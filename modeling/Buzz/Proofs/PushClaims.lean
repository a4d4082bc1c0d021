import Buzz.Relay.PushDelivery

/-!
# Claims on a wake

A claim is taken only over a row that is free or whose claim has run out, and
every write that ends a wake is fenced by the claim. So a worker whose claim
has not run out is alone with its wakes, and a finished wake stays finished,
whatever the workers, the leases and the clock do.
-/

namespace Buzz.Db.PushStore

open Buzz.Lib

variable {s : PushStore} {community : CommunityId}

/-! ## What a statement does to a row -/

/-- What stays of a row for good. -/
structure RowKept (o o' : WakeRow) : Prop where
  author : o'.author = o.author
  eventId : o'.eventId = o.eventId

theorem RowKept.refl (o : WakeRow) : RowKept o o := ⟨rfl, rfl⟩

theorem fencedUpdate_wakes (id claimId : Nat) (set : WakeRow → WakeRow) (key : WakeKey) :
    (s.fencedUpdate community id claimId set).wakes.lookup key = s.wakes.lookup key ∨
      ∃ o, key = (community, id) ∧ s.wakes.lookup key = some o ∧ o.claimId = some claimId ∧
        o.state = .sending ∧
        (s.fencedUpdate community id claimId set).wakes.lookup key = some (set o) := by
  unfold fencedUpdate
  split
  · next o ho =>
      split
      · next hfence =>
          by_cases hkey : key = (community, id)
          · subst hkey
            refine .inr ⟨o, rfl, ho, hfence.1, hfence.2, ?_⟩
            rw [HMap.lookup_insert_ite, if_pos rfl]
          · refine .inl ?_
            rw [HMap.lookup_insert_ite, if_neg hkey]
      · exact .inl rfl
  · exact .inl rfl

/-- Only the outbox changes. -/
structure SameTables (s s' : PushStore) : Prop where
  now : s'.now = s.now
  leases : s'.leases = s.leases
  events : s'.events = s.events
  members : s'.members = s.members
  refusing : s'.refusing = s.refusing

theorem fencedUpdate_same (id claimId : Nat) (set : WakeRow → WakeRow) :
    SameTables s (s.fencedUpdate community id claimId set) ∧
      (s.fencedUpdate community id claimId set).nextWake = s.nextWake ∧
      (s.fencedUpdate community id claimId set).nextClaim = s.nextClaim := by
  unfold fencedUpdate
  split
  · split
    · exact ⟨⟨rfl, rfl, rfl, rfl, rfl⟩, rfl, rfl⟩
    · exact ⟨⟨rfl, rfl, rfl, rfl, rfl⟩, rfl, rfl⟩
  · exact ⟨⟨rfl, rfl, rfl, rfl, rfl⟩, rfl, rfl⟩

/-! ## Enqueueing -/

/-- Existing rows stay, and a new row is pending under a new id. -/
structure Enqueued (s s' : PushStore) : Prop extends SameTables s s' where
  nextClaim : s'.nextClaim = s.nextClaim
  nextWake : s.nextWake ≤ s'.nextWake
  rows : ∀ key, s'.wakes.lookup key = s.wakes.lookup key ∨
    (s.nextWake ≤ key.2 ∧ key.2 < s'.nextWake ∧
      ∃ o, s'.wakes.lookup key = some o ∧ o.state = .pending ∧ o.claimId = none)

theorem Enqueued.refl (s : PushStore) : Enqueued s s :=
  ⟨⟨rfl, rfl, rfl, rfl, rfl⟩, rfl, Nat.le_refl _, fun _ => .inl rfl⟩

theorem Enqueued.trans {s₁ s₂ s₃ : PushStore} (h : Enqueued s₁ s₂) (h' : Enqueued s₂ s₃) :
    Enqueued s₁ s₃ where
  now := h'.now.trans h.now
  leases := h'.leases.trans h.leases
  events := h'.events.trans h.events
  members := h'.members.trans h.members
  refusing := h'.refusing.trans h.refusing
  nextClaim := h'.nextClaim.trans h.nextClaim
  nextWake := h.nextWake.trans h'.nextWake
  rows key := by
    rcases h'.rows key with heq | ⟨hge, hlt, o, ho, hnew⟩
    · rcases h.rows key with heq' | ⟨hge, hlt, o, ho, hnew⟩
      · exact .inl (heq.trans heq')
      · exact .inr ⟨hge, Nat.lt_of_lt_of_le hlt h'.nextWake, o, heq.trans ho, hnew⟩
    · exact .inr ⟨h.nextWake.trans hge, hlt, o, ho, hnew⟩

theorem enqueueWake_enqueued (r : WakeRequest) : Enqueued s (s.enqueueWake community r).1 := by
  unfold enqueueWake
  split
  · exact .refl s
  · split
    · exact .refl s
    · refine ⟨⟨rfl, rfl, rfl, rfl, rfl⟩, rfl, Nat.le_succ _, fun key => ?_⟩
      rw [HMap.lookup_insert_ite]
      split
      · next hkey =>
          subst hkey
          exact .inr ⟨Nat.le_refl _, Nat.lt_succ_self _, _, rfl, rfl, rfl⟩
      · exact .inl rfl

theorem enqueueWakes_enqueued (requests : List WakeRequest) :
    Enqueued s (s.enqueueWakes community requests).1 := by
  induction requests generalizing s with
  | nil => exact .refl s
  | cons r rs ih => exact (enqueueWake_enqueued r).trans ih

/-! ## Claiming -/

/-- The row as the claim leaves it. -/
def claimedRow (o : WakeRow) (claimId : Nat) (leaseUntil : Int) : WakeRow :=
  { o with state := .sending, claimId := some claimId, leaseUntil := some leaseUntil,
           attempts := o.attempts + 1 }

/-- What a claim may do, and what it hands to the worker. -/
structure Claims (s s' : PushStore) (community : CommunityId) (claimId : Nat)
    (leaseUntil : Int) (ids : List Nat) (claimed : List ClaimedWake) : Prop
    extends SameTables s s' where
  nextClaim : s'.nextClaim = s.nextClaim
  nextWake : s'.nextWake = s.nextWake
  rows : ∀ key, s'.wakes.lookup key = s.wakes.lookup key ∨
    (key.1 = community ∧ key.2 ∈ ids ∧ ∃ o, s.wakes.lookup key = some o ∧ s.due community o ∧
      s'.wakes.lookup key = some (claimedRow o claimId leaseUntil))
  held : ∀ c ∈ claimed, c.community = community ∧ c.id ∈ ids ∧ c.claimId = claimId ∧
    ∃ o, s.wakes.lookup c.key = some o ∧ s'.wakes.lookup c.key =
        some (claimedRow o claimId leaseUntil) ∧
      c.author = o.author ∧ c.channelId = (s.liveEvent community o).bind (·.channelId)
  nodup : (claimed.map (·.id)).Nodup

/-- Whether a row is due depends on the tables a claim leaves alone. -/
theorem SameTables.due {s' : PushStore} (h : SameTables s s') (o : WakeRow) :
    s'.due community o = s.due community o := by
  unfold PushStore.due liveEvent leaseAuthorizes
  rw [h.now, h.events, h.leases]

theorem claimOne_cases (id claimId : Nat) (leaseUntil : Int) :
    s.claimOne community id claimId leaseUntil = (s, none) ∨
      ∃ o, s.wakes.lookup (community, id) = some o ∧ s.due community o ∧
        s.claimOne community id claimId leaseUntil =
          ({ s with wakes := s.wakes.insert (community, id) (claimedRow o claimId leaseUntil) },
            some (claimedWake (community, id) (claimedRow o claimId leaseUntil) claimId
              (s.liveEvent community o))) := by
  unfold claimOne
  split
  · next o ho =>
      split
      · next hdue => exact .inr ⟨o, ho, hdue, rfl⟩
      · exact .inl rfl
  · exact .inl rfl

/-- One more claim in front. The row it took is not among the ids that follow. -/
theorem Claims.cons {t s' : PushStore} {id claimId : Nat} {leaseUntil : Int} {ids : List Nat}
    {claimed : List ClaimedWake} {o : WakeRow} (hsame : SameTables s t)
    (hclaim : t.nextClaim = s.nextClaim) (hwake : t.nextWake = s.nextWake)
    (ho : s.wakes.lookup (community, id) = some o) (hdue : s.due community o)
    (hlook : ∀ key, t.wakes.lookup key = if key = (community, id) then
      some (claimedRow o claimId leaseUntil) else s.wakes.lookup key)
    (hnot : id ∉ ids) (hrest : Claims t s' community claimId leaseUntil ids claimed) :
    Claims s s' community claimId leaseUntil (id :: ids)
      (claimedWake (community, id) (claimedRow o claimId leaseUntil) claimId
        (s.liveEvent community o) :: claimed) := by
  have hother : ∀ key : WakeKey, key.2 ∈ ids →
      t.wakes.lookup key = s.wakes.lookup key := by
    intro key hmem
    rw [hlook, if_neg]
    rintro rfl
    exact hnot hmem
  have hlive : ∀ o, t.liveEvent community o = s.liveEvent community o := by
    intro o
    unfold liveEvent
    rw [hsame.events]
  have hfirst : s'.wakes.lookup (community, id) = some (claimedRow o claimId leaseUntil) := by
    rcases hrest.rows (community, id) with h | ⟨-, hmem, -⟩
    · rw [h, hlook, if_pos rfl]
    · exact absurd hmem hnot
  constructor
  case toSameTables =>
    exact ⟨hrest.now.trans hsame.now, hrest.leases.trans hsame.leases,
      hrest.events.trans hsame.events, hrest.members.trans hsame.members,
      hrest.refusing.trans hsame.refusing⟩
  case nextClaim => exact hrest.nextClaim.trans hclaim
  case nextWake => exact hrest.nextWake.trans hwake
  case rows =>
    intro key
    by_cases hkey : key = (community, id)
    · subst hkey
      exact .inr ⟨rfl, List.mem_cons_self, o, ho, hdue, hfirst⟩
    · rcases hrest.rows key with h | ⟨hcom, hmem, o', ho', hdue', h⟩
      · rw [h, hlook, if_neg hkey]
        exact .inl rfl
      · rw [hother key hmem] at ho'
        rw [hsame.due] at hdue'
        exact .inr ⟨hcom, List.mem_cons_of_mem _ hmem, o', ho', hdue', h⟩
  case held =>
    intro c hc
    rcases List.mem_cons.1 hc with rfl | hc
    · exact ⟨rfl, List.mem_cons_self, rfl, o, ho, hfirst, rfl, rfl⟩
    · obtain ⟨hcom, hmem, hclaimId, o', ho', h, hauthor, hchannel⟩ := hrest.held c hc
      rw [hother c.key hmem] at ho'
      rw [hlive] at hchannel
      exact ⟨hcom, List.mem_cons_of_mem _ hmem, hclaimId, o', ho', h, hauthor, hchannel⟩
  case nodup =>
    refine List.nodup_cons.2 ⟨fun hmem => ?_, hrest.nodup⟩
    obtain ⟨c, hc, hid⟩ := List.mem_map.1 hmem
    have hid : c.id = id := hid
    exact hnot (hid ▸ (hrest.held c hc).2.1)

theorem claimRows_claims (claimId : Nat) (leaseUntil : Int) {ids : List Nat}
    (hnd : ids.Nodup) :
    Claims s (s.claimRows community claimId leaseUntil ids).1 community claimId leaseUntil ids
      (s.claimRows community claimId leaseUntil ids).2 := by
  induction ids generalizing s with
  | nil =>
      exact ⟨⟨rfl, rfl, rfl, rfl, rfl⟩, rfl, rfl, fun _ => .inl rfl, fun _ h => (by cases h),
        List.nodup_nil⟩
  | cons id ids ih =>
      obtain ⟨hnot, hnd⟩ := List.nodup_cons.1 hnd
      rcases @claimOne_cases s community id claimId leaseUntil with hone | ⟨o, ho, hdue, hone⟩
      · have hrest := @ih s hnd
        unfold claimRows
        rw [hone]
        refine { hrest with rows := fun key => ?_, held := fun c hc => ?_ }
        · rcases hrest.rows key with h | ⟨hcom, hmem, h⟩
          · exact .inl h
          · exact .inr ⟨hcom, List.mem_cons_of_mem _ hmem, h⟩
        · obtain ⟨hcom, hmem, h⟩ := hrest.held c hc
          exact ⟨hcom, List.mem_cons_of_mem _ hmem, h⟩
      · have hrest := @ih { s with
          wakes := s.wakes.insert (community, id) (claimedRow o claimId leaseUntil) } hnd
        unfold claimRows
        rw [hone]
        have hlook := HMap.lookup_insert_ite s.wakes (community, id)
        exact Claims.cons (t := { s with
            wakes := s.wakes.insert (community, id) (claimedRow o claimId leaseUntil) })
          ⟨rfl, rfl, rfl, rfl, rfl⟩ rfl rfl ho hdue (fun key => hlook key _) hnot hrest

/-! ## The send-time check -/

/-- What the check hands on is the row, under the claim it was asked about. -/
theorem revalidate_some {id claimId : Nat} {w : ClaimedWake}
    (h : s.revalidateWakeForSend community id claimId = some w) :
    w.key = (community, id) ∧ w.claimId = claimId ∧
      ∃ o e, s.wakes.lookup (community, id) = some o ∧ w.author = o.author ∧
        s.liveEvent community o = some e ∧ w.channelId = e.channelId := by
  unfold revalidateWakeForSend at h
  obtain ⟨o, ho, h⟩ := Option.bind_eq_some_iff.1 h
  obtain ⟨e, he, h⟩ := Option.bind_eq_some_iff.1 h
  split at h
  · cases h
    exact ⟨rfl, rfl, o, e, ho, rfl, he, rfl⟩
  · cases h

end Buzz.Db.PushStore

namespace Buzz.Relay

open Buzz.Db Buzz.Db.PushStore Buzz.Lib

/-! ## The claims of the workers -/

/-- The wakes a worker has claimed and not finished. -/
def PushWorker.held (w : PushWorker) : List ClaimedWake := w.phase.wake.toList ++ w.batch

/-- The worker's picture of a wake it holds. -/
structure Known (s : PushStore) (c : ClaimedWake) : Prop where
  claim : c.claimId < s.nextClaim
  row : ∃ o, s.wakes.lookup c.key = some o ∧ o.author = c.author ∧
    ∀ channel, c.channelId = some channel →
      ∃ e, s.events.lookup (c.community, o.eventId) = some e ∧ e.channelId = some channel

/-- The row is under the claim. -/
def Under (s : PushStore) (c : ClaimedWake) (claimUntil : Int) : Prop :=
  ∃ o, s.wakes.lookup c.key = some o ∧ o.state = .sending ∧ o.claimId = some c.claimId ∧
    o.leaseUntil = some claimUntil

/-- Every wake a worker holds is known by its claim, and claims are not shared.
-/
structure PushState.Inv (s : PushState) : Prop where
  ids : ∀ key o, s.wakes.lookup key = some o → key.2 < s.nextWake
  until' : ∀ key o, s.wakes.lookup key = some o → o.claimId.isSome → o.leaseUntil.isSome
  known : ∀ (i : Nat) (w : PushWorker), s.workers[i]? = some w →
    ∀ c ∈ w.held, Known s.toPushStore c
  under : ∀ (i : Nat) (w : PushWorker), s.workers[i]? = some w → s.now ≤ w.claimUntil →
    ∀ c ∈ w.held, Under s.toPushStore c w.claimUntil
  own : ∀ (i j : Nat) (w w' : PushWorker), s.workers[i]? = some w → s.workers[j]? = some w' →
    i ≠ j → ∀ c ∈ w.held, ∀ c' ∈ w'.held, c.claimId ≠ c'.claimId
  nodup : ∀ (i : Nat) (w : PushWorker), s.workers[i]? = some w → (w.held.map (·.key)).Nodup

/-- The tables as a worker's pictures need them: rows and events stay what
they are, and ids only grow. -/
structure Grows (s s' : PushStore) : Prop where
  claim : s.nextClaim ≤ s'.nextClaim
  rows : ∀ key o, s.wakes.lookup key = some o →
    ∃ o', s'.wakes.lookup key = some o' ∧ RowKept o o'
  events : ∀ key e, s.events.lookup key = some e →
    ∃ e', s'.events.lookup key = some e' ∧ e'.channelId = e.channelId

theorem Known.grows {s s' : PushStore} {c : ClaimedWake} (h : Known s c) (hg : Grows s s') :
    Known s' c := by
  obtain ⟨o, ho, hauthor, hchannel⟩ := h.row
  obtain ⟨o', ho', hkept⟩ := hg.rows _ _ ho
  refine ⟨Nat.lt_of_lt_of_le h.claim hg.claim, o', ho', hkept.author.trans hauthor,
    fun channel hc => ?_⟩
  obtain ⟨e, he, hec⟩ := hchannel channel hc
  obtain ⟨e', he', hsame⟩ := hg.events _ _ he
  rw [hkept.eventId]
  exact ⟨e', he', hsame.trans hec⟩

section Steps

variable {s : PushState} {i : Nat} {w w' : PushWorker} {store : PushStore}

/-- The tables change under workers that stay as they are. -/
theorem PushState.Inv.tables (hinv : s.Inv) (hg : Grows s.toPushStore store)
    (hnow : s.now ≤ store.now)
    (hids : ∀ key o, store.wakes.lookup key = some o → key.2 < store.nextWake)
    (huntil : ∀ key o, store.wakes.lookup key = some o → o.claimId.isSome → o.leaseUntil.isSome)
    (hunder : ∀ (j : Nat) (v : PushWorker), s.workers[j]? = some v → s.now ≤ v.claimUntil →
      ∀ c ∈ v.held, Under s.toPushStore c v.claimUntil → Under store c v.claimUntil) :
    PushState.Inv ⟨store, s.workers⟩ where
  ids := hids
  until' := huntil
  known j v hv c hc := (hinv.known j v hv c hc).grows hg
  under j v hv hle c hc := by
    have hle : s.now ≤ v.claimUntil := Int.le_trans hnow hle
    exact hunder j v hv hle c hc (hinv.under j v hv hle c hc)
  own := hinv.own
  nodup := hinv.nodup

/-- A worker moves on with wakes it already held. -/
theorem PushState.Inv.worker (hinv : s.Inv) (hw : s.workers[i]? = some w)
    (huntil : w'.claimUntil = w.claimUntil)
    (hheld : ∀ c ∈ w'.held, ∃ c₀ ∈ w.held, c.key = c₀.key ∧ c.claimId = c₀.claimId ∧
      (Known s.toPushStore c₀ → Known s.toPushStore c))
    (hnodup : (w'.held.map (·.key)).Nodup) :
    PushState.Inv { s with workers := s.workers.set i w' } where
  ids := hinv.ids
  until' := hinv.until'
  known j v hv c hc := by
    rcases getElem?_set_cases hv with ⟨-, rfl, -⟩ | ⟨-, hv⟩
    · obtain ⟨c₀, hc₀, -, -, hknown⟩ := hheld c hc
      exact hknown (hinv.known i w hw c₀ hc₀)
    · exact hinv.known j v hv c hc
  under j v hv hle c hc := by
    rcases getElem?_set_cases hv with ⟨-, rfl, -⟩ | ⟨-, hv⟩
    · obtain ⟨c₀, hc₀, hkey, hclaim, -⟩ := hheld c hc
      rw [huntil] at hle ⊢
      obtain ⟨o, ho, hstate, hid, hu⟩ := hinv.under i w hw hle c₀ hc₀
      exact ⟨o, hkey ▸ ho, hstate, hclaim ▸ hid, hu⟩
    · exact hinv.under j v hv hle c hc
  own j k v v' hv hv' hne c hc c' hc' := by
    rcases getElem?_set_cases hv with ⟨hj, rfl, -⟩ | ⟨hj, hv₀⟩ <;>
      rcases getElem?_set_cases hv' with ⟨hk, rfl, -⟩ | ⟨hk, hv₀'⟩
    · exact absurd (hj.trans hk.symm) hne
    · obtain ⟨c₀, hc₀, -, hclaim, -⟩ := hheld c hc
      rw [hclaim]
      exact hinv.own i k w v' hw hv₀' (fun h => hk h.symm) c₀ hc₀ c' hc'
    · obtain ⟨c₀, hc₀, -, hclaim, -⟩ := hheld c' hc'
      rw [hclaim]
      exact hinv.own j i v w hv₀ hw hj c hc c₀ hc₀
    · exact hinv.own j k v v' hv₀ hv₀' hne c hc c' hc'
  nodup j v hv := by
    rcases getElem?_set_cases hv with ⟨-, rfl, -⟩ | ⟨-, hv⟩
    · exact hnodup
    · exact hinv.nodup j v hv

/-- A statement that leaves every row under a claim where it is, made by a
worker whose wakes do not change. -/
theorem PushState.Inv.write (hinv : s.Inv) (hw : s.workers[i]? = some w)
    (huntil : w'.claimUntil = w.claimUntil) {c : ClaimedWake}
    (hheld : w.held = c :: w'.held) {set : WakeRow → WakeRow}
    (hset : ∀ o, RowKept o (set o) ∧ (set o).claimId = none) :
    PushState.Inv ⟨s.fencedUpdate c.community c.id c.claimId set, s.workers.set i w'⟩ := by
  have hmove := @PushState.Inv.worker s i w w' hinv hw huntil
    (fun c' hc' => ⟨c', hheld ▸ List.mem_cons_of_mem _ hc', rfl, rfl, id⟩)
    (by
      have hnd := hinv.nodup i w hw
      rw [hheld, List.map_cons] at hnd
      exact (List.nodup_cons.1 hnd).2)
  obtain ⟨hsame, hnextWake, hnextClaim⟩ := @fencedUpdate_same s.toPushStore c.community c.id
    c.claimId set
  have hrows := @fencedUpdate_wakes s.toPushStore c.community c.id c.claimId set
  refine hmove.tables ⟨?_, ?_, ?_⟩ ?_ ?_ ?_ ?_
  · rw [hnextClaim]
  · intro key o ho
    rcases hrows key with h | ⟨o', -, ho', -, -, h⟩
    · exact ⟨o, h.trans ho, .refl o⟩
    · have : o' = o := Option.some.inj (ho'.symm.trans ho)
      subst this
      exact ⟨_, h, (hset o').1⟩
  · intro key e he
    rw [hsame.events]
    exact ⟨e, he, rfl⟩
  · exact Int.le_of_eq hsame.now.symm
  · intro key o ho
    rw [hnextWake]
    rcases hrows key with h | ⟨o', -, ho', -, -, -⟩
    · exact hinv.ids key o (h.symm.trans ho)
    · exact hinv.ids key o' ho'
  · intro key o ho hsome
    rcases hrows key with h | ⟨o', -, ho', -, -, h⟩
    · exact hinv.until' key o (h.symm.trans ho) hsome
    · have : set o' = o := Option.some.inj (h.symm.trans ho)
      rw [← this, (hset o').2] at hsome
      cases hsome
  · intro j v hv hle c' hc' hunder
    obtain ⟨o, ho, hstate, hclaim, hu⟩ := hunder
    rcases hrows c'.key with h | ⟨o', hkey, ho', hclaim', -, -⟩
    · exact ⟨o, h.trans ho, hstate, hclaim, hu⟩
    -- The row written carries the writer's claim, so `c'` would share it.
    · exfalso
      have : o' = o := Option.some.inj (ho'.symm.trans ho)
      subst this
      rw [hclaim'] at hclaim
      have hsame : c.claimId = c'.claimId := Option.some.inj hclaim
      have hcw : c ∈ w.held := hheld ▸ List.mem_cons_self
      rcases getElem?_set_cases hv with ⟨-, rfl, -⟩ | ⟨hj, hv⟩
      · have hnd := hinv.nodup i w hw
        rw [hheld, List.map_cons] at hnd
        exact (List.nodup_cons.1 hnd).1 (List.mem_map.2 ⟨c', hc', hkey⟩)
      · exact hinv.own i j w v hw hv (fun h => hj h.symm) c hcw c' hc' hsame

/-- A worker with nothing left takes a new batch. -/
theorem PushState.Inv.claim (hinv : s.Inv) {community : CommunityId} {claimUntil : Int}
    {ids : List Nat} {claimed : List ClaimedWake}
    (hclaims : Claims { s.toPushStore with nextClaim := s.nextClaim + 1 } store community
      s.nextClaim claimUntil ids claimed)
    (hheld : w'.held = claimed) (huntil : w'.claimUntil = claimUntil) :
    PushState.Inv ⟨store, s.workers.set i w'⟩ := by
  have hnext : store.nextClaim = s.nextClaim + 1 := hclaims.nextClaim
  have hgrows : Grows s.toPushStore store := by
    refine ⟨by rw [hnext]; omega, fun key o ho => ?_, fun key e he => ?_⟩
    · rcases hclaims.rows key with h | ⟨-, -, o', ho', -, h⟩
      · exact ⟨o, h.trans ho, .refl o⟩
      · have : o' = o := Option.some.inj (ho'.symm.trans ho)
        subst this
        exact ⟨_, h, ⟨rfl, rfl⟩⟩
    · exact ⟨e, (congrArg (·.lookup key) hclaims.events).trans he, rfl⟩
  -- A row under an unexpired claim is not due.
  have hkeep : ∀ c u, s.now ≤ u → Under s.toPushStore c u → Under store c u := by
    rintro c u hle ⟨o, ho, hstate, hclaim, hu⟩
    rcases hclaims.rows c.key with h | ⟨-, -, o', ho', hdue, -⟩
    · exact ⟨o, h.trans ho, hstate, hclaim, hu⟩
    · exfalso
      have : o' = o := Option.some.inj (ho'.symm.trans ho)
      subst this
      unfold PushStore.due at hdue
      simp [hstate, hu, Int.not_lt.2 hle] at hdue
  have hnew : ∀ c ∈ claimed, c.claimId = s.nextClaim :=
    fun c hc => (hclaims.held c hc).2.2.1
  constructor
  case ids =>
    intro key o ho
    have hwake : store.nextWake = s.nextWake := hclaims.nextWake
    rw [hwake]
    rcases hclaims.rows key with h | ⟨-, -, o', ho', -, -⟩
    · exact hinv.ids key o (h.symm.trans ho)
    · exact hinv.ids key o' ho'
  case until' =>
    intro key o ho hsome
    rcases hclaims.rows key with h | ⟨-, -, o', -, -, h⟩
    · exact hinv.until' key o (h.symm.trans ho) hsome
    · have : claimedRow o' s.nextClaim claimUntil = o := Option.some.inj (h.symm.trans ho)
      rw [← this]
      rfl
  case known =>
    intro j v hv c hc
    rcases getElem?_set_cases hv with ⟨-, rfl, -⟩ | ⟨-, hv⟩
    · rw [hheld] at hc
      obtain ⟨hcom, -, hid, o, -, ho, hauthor, hchannel⟩ := hclaims.held c hc
      refine ⟨by rw [hid, hnext]; omega, _, ho, hauthor.symm, fun channel hch => ?_⟩
      rw [hchannel] at hch
      obtain ⟨e, he, hec⟩ := Option.bind_eq_some_iff.1 hch
      unfold PushStore.liveEvent at he
      obtain ⟨he, -⟩ := Option.filter_eq_some_iff.1 he
      refine ⟨e, ?_, hec⟩
      rw [hcom, hclaims.events]
      exact he
    · exact (hinv.known j v hv c hc).grows hgrows
  case under =>
    intro j v hv hle c hc
    have hnow : s.now = store.now := hclaims.now.symm
    rcases getElem?_set_cases hv with ⟨-, rfl, -⟩ | ⟨-, hv⟩
    · rw [hheld] at hc
      obtain ⟨-, -, hid, o, -, ho, -, -⟩ := hclaims.held c hc
      rw [huntil]
      exact ⟨_, ho, rfl, by rw [hid]; rfl, rfl⟩
    · have hle : s.now ≤ v.claimUntil := by rw [hnow]; exact hle
      exact hkeep c _ hle (hinv.under j v hv hle c hc)
  case own =>
    intro j k v v' hv hv' hne c hc c' hc' heq
    rcases getElem?_set_cases hv with ⟨hj, rfl, -⟩ | ⟨hj, hv₀⟩ <;>
      rcases getElem?_set_cases hv' with ⟨hk, rfl, -⟩ | ⟨hk, hv₀'⟩
    · exact hne (hj.trans hk.symm)
    · rw [hheld] at hc
      have hlt := (hinv.known k v' hv₀' c' hc').claim
      rw [hnew c hc] at heq
      omega
    · rw [hheld] at hc'
      have hlt := (hinv.known j v hv₀ c hc).claim
      rw [hnew c' hc'] at heq
      omega
    · exact hinv.own j k v v' hv₀ hv₀' hne c hc c' hc' heq
  case nodup =>
    intro j v hv
    rcases getElem?_set_cases hv with ⟨-, rfl, -⟩ | ⟨-, hv⟩
    · rw [hheld]
      have hpair : claimed.map (·.key) = (claimed.map (·.id)).map (fun id => (community, id)) := by
        rw [List.map_map]
        refine List.map_congr_left fun c hc => ?_
        show (c.community, c.id) = (community, c.id)
        rw [(hclaims.held c hc).1]
      rw [hpair]
      exact hclaims.nodup.map (fun a b h => (Prod.mk.inj h).2)
    · exact hinv.nodup j v hv

/-- A call goes on with the wake it is about, under the same claim. -/
theorem DeliverPhase.step_wake {s : PushStore} {p p' : DeliverPhase} {m : PushMove}
    (h : p.step s m = some p') :
    ∃ c, p.wake = some c ∧ ∀ c', p'.wake = some c' →
      c'.key = c.key ∧ c'.claimId = c.claimId ∧ (Known s c → Known s c') := by
  have hcheck : ∀ {c c' : ClaimedWake},
      s.revalidateWakeForSend c.community c.id c.claimId = some c' →
      c'.key = c.key ∧ c'.claimId = c.claimId ∧ (Known s c → Known s c') := by
    intro c c' hc
    obtain ⟨hkey, hclaim, o, e, ho, hauthor, he, hchannel⟩ := revalidate_some hc
    refine ⟨hkey, hclaim, fun hknown => ⟨hclaim ▸ hknown.claim, o, hkey ▸ ho, hauthor.symm,
      fun channel hch => ⟨e, ?_, hchannel ▸ hch⟩⟩⟩
    rw [show c'.community = c.community from (Prod.mk.inj hkey).1]
    unfold PushStore.liveEvent at he
    exact (Option.filter_eq_some_iff.1 he).1
  have hsame : ∀ {c c' : ClaimedWake}, some c = some c' →
      c'.key = c.key ∧ c'.claimId = c.claimId ∧ (Known s c → Known s c') := by
    intro c c' hc
    cases hc
    exact ⟨rfl, rfl, fun h => h⟩
  unfold DeliverPhase.step at h
  split at h
  · next w i answered =>
      refine ⟨w, rfl, fun c' hc' => ?_⟩
      split at h
      · cases h
        split at hc'
        · exact hsame hc'
        · next w' hw' =>
            cases hc'
            exact hcheck hw'
      · cases h
        cases hc'
  · next w i answered =>
      refine ⟨w, rfl, fun c' hc' => hsame ?_⟩
      cases h
      split at hc'
      · exact hc'
      · split at hc'
        · split at hc' <;> exact hc'
        · exact hc'
  · next w i answered =>
      refine ⟨w, rfl, fun c' hc' => ?_⟩
      split at h
      · cases h
        split at hc'
        · exact hsame hc'
        · next w' hw' =>
            cases hc'
            exact hcheck hw'
      · cases h
        cases hc'
  · next w i answered =>
      refine ⟨w, rfl, fun c' hc' => hsame ?_⟩
      cases h
      split at hc' <;> exact hc'
  · next w i ready =>
      refine ⟨w, rfl, fun c' hc' => ?_⟩
      cases h
      split at hc'
      · exact hsame hc'
      · cases hc'
  · next w i reply =>
      refine ⟨w, rfl, fun c' hc' => ?_⟩
      cases h
      unfold deliverReply retryOrFail at hc'
      repeat' split at hc'
      all_goals first
        | exact hsame hc'
        | cases hc'
  · cases h

/-! ## Everything a move can do -/

/-- The worker whose `deliver_one` the move is a call of. -/
def PushMove.caller : PushMove → Option Nat
  | .check i _ | .member i _ | .acquire i _ | .prepare i _ | .reply i _ => some i
  | _ => none

/-- Tables the outbox does not depend on move, or time passes. -/
structure Quiet (s s' : PushStore) : Prop where
  now : s.now ≤ s'.now
  wakes : s'.wakes = s.wakes
  nextWake : s'.nextWake = s.nextWake
  nextClaim : s'.nextClaim = s.nextClaim
  events : ∀ key e, s.events.lookup key = some e →
    ∃ e', s'.events.lookup key = some e' ∧ e'.channelId = e.channelId

/-- What a step of the outbox can do. -/
inductive StepSpec (s : PushState) (m : PushMove) : PushState → Prop where
  | quiet (store : PushStore) (h : Quiet s.toPushStore store) : StepSpec s m ⟨store, s.workers⟩
  | join : StepSpec s m { s with workers := s.workers ++ [{}] }
  | enqueue (store : PushStore) (h : Enqueued s.toPushStore store) :
      StepSpec s m ⟨store, s.workers⟩
  | claim (i : Nat) (w : PushWorker) (store : PushStore) (community : CommunityId)
      (claimUntil : Int) (ids : List Nat) (claimed : List ClaimedWake)
      (hw : s.workers[i]? = some w) (hidle : w.phase = .idle)
      (h : Claims { s.toPushStore with nextClaim := s.nextClaim + 1 } store community
        s.nextClaim claimUntil ids claimed) :
      StepSpec s m ⟨store, s.workers.set i { w with batch := claimed, claimUntil }⟩
  | next (i : Nat) (w : PushWorker) (c : ClaimedWake) (rest : List ClaimedWake)
      (hw : s.workers[i]? = some w) (hidle : w.phase = .idle) (hbatch : w.batch = c :: rest) :
      StepSpec s m ⟨s.toPushStore, s.workers.set i
        { w with phase := .revalidate c, batch := rest, calls := w.calls + 1 }⟩
  | call (i : Nat) (w : PushWorker) (p : DeliverPhase) (hw : s.workers[i]? = some w)
      (hm : m.caller = some i) (h : w.phase.step s.toPushStore m = some p) :
      StepSpec s m ⟨s.toPushStore, s.workers.set i { w with phase := p }⟩
  | disable (i : Nat) (w : PushWorker) (c : ClaimedWake) (store : PushStore)
      (hw : s.workers[i]? = some w) (hphase : w.phase = .disable c)
      (h : Quiet s.toPushStore store) :
      StepSpec s m ⟨store, s.workers.set i { w with phase := .fail c }⟩
  | finish (i : Nat) (w : PushWorker) (c : ClaimedWake) (set : WakeRow → WakeRow)
      (hw : s.workers[i]? = some w) (hwake : w.phase.wake = some c)
      (hset : ∀ o, RowKept o (set o) ∧ (set o).claimId = none)
      (hfailed : ∀ o, (set o).state = .failed → w.phase = .fail c) :
      StepSpec s m ⟨s.fencedUpdate c.community c.id c.claimId set,
        s.workers.set i { w with phase := .idle }⟩
  | giveUp (i : Nat) (w : PushWorker) (hw : s.workers[i]? = some w) :
      StepSpec s m ⟨s.toPushStore, s.workers.set i { w with phase := .idle }⟩
  | crash (i : Nat) (w : PushWorker) (hw : s.workers[i]? = some w) :
      StepSpec s m ⟨s.toPushStore, s.workers.set i { w with crashed := true }⟩

theorem Quiet.refl (s : PushStore) : Quiet s s :=
  ⟨Int.le_refl _, rfl, rfl, rfl, fun _ e he => ⟨e, he, rfl⟩⟩

theorem quiet_disable {s : PushStore} (community : CommunityId) (author : PublicKey)
    (installationId : String) (generation : Int) :
    Quiet s (s.disableEndpointGeneration community author installationId generation) := by
  unfold PushStore.disableEndpointGeneration
  split
  · split
    · exact ⟨Int.le_refl _, rfl, rfl, rfl, fun _ e he => ⟨e, he, rfl⟩⟩
    · exact .refl s
  · exact .refl s

/-- A move of a worker is settled by what it does to a live worker. -/
theorem PushState.onWorker_spec {m : PushMove}
    {f : PushWorker → Option (PushStore × PushWorker)}
    (h : ∀ w store w', s.workers[i]? = some w → f w = some (store, w') →
      StepSpec s m ⟨store, s.workers.set i w'⟩) :
    StepSpec s m (s.onWorker i f) := by
  unfold PushState.onWorker
  split
  · exact .quiet _ (.refl _)
  · next w hw =>
      split
      · exact .quiet _ (.refl _)
      · split
        · exact .quiet _ (.refl _)
        · next store w' hf => exact h w store w' hw hf

theorem PushState.write_spec (s : PushState) (i : Nat) (applied : Bool) (clock : Int) :
    StepSpec s (.write i applied clock) (s.step (.write i applied clock)) := by
  refine onWorker_spec fun w store w' hw hf => ?_
  obtain ⟨⟨store₀, p⟩, hwrite, hf⟩ := Option.map_eq_some_iff.1 hf
  cases hf
  unfold DeliverPhase.write at hwrite
  split at hwrite
  · next c hc =>
      cases hwrite
      split
      · exact .disable i w c _ hw hc (quiet_disable _ _ _ _)
      · exact .disable i w c _ hw hc (.refl _)
  · next c hc =>
      cases hwrite
      split
      · exact .finish i w c _ hw (by rw [hc]; rfl) (fun _ => ⟨⟨rfl, rfl⟩, rfl⟩)
          (fun _ h => (by cases h))
      · exact .giveUp i w hw
  · next c hc =>
      cases hwrite
      split
      · exact .finish i w c _ hw (by rw [hc]; rfl) (fun _ => ⟨⟨rfl, rfl⟩, rfl⟩)
          (fun _ _ => hc)
      · exact .giveUp i w hw
  · next c secs hc =>
      cases hwrite
      split
      · exact .finish i w c _ hw (by rw [hc]; rfl) (fun _ => ⟨⟨rfl, rfl⟩, rfl⟩)
          (fun _ h => (by cases h))
      · exact .giveUp i w hw
  · cases hwrite

theorem PushState.call_spec (s : PushState) (m : PushMove) (i : Nat)
    (hm : m.caller = some i) :
    StepSpec s m (s.onWorker i fun w =>
      (w.phase.step s.toPushStore m).map fun phase => (s.toPushStore, { w with phase })) := by
  refine onWorker_spec fun w store w' hw hf => ?_
  obtain ⟨p, hp, hf⟩ := Option.map_eq_some_iff.1 hf
  cases hf
  exact .call i w p hw hm hp

theorem PushState.step_spec (s : PushState) (m : PushMove) : StepSpec s m (s.step m) := by
  cases m with
  | join => exact .join
  | claim i community ids clock =>
      refine onWorker_spec fun w store w' hw hf => ?_
      split at hf
      · next hidle =>
          cases hf
          exact .claim i w _ community _ _ _ hw hidle.1
            (claimRows_claims _ _ (ids.nodup_dedup.sublist (List.take_sublist _ _)))
      · cases hf
  | next i =>
      refine onWorker_spec fun w store w' hw hf => ?_
      split at hf
      · next c rest hidle hbatch =>
          cases hf
          exact .next i w c rest hw hidle hbatch
      · cases hf
  | check i answered => exact s.call_spec _ i rfl
  | member i answered => exact s.call_spec _ i rfl
  | acquire i answered => exact s.call_spec _ i rfl
  | prepare i ready => exact s.call_spec _ i rfl
  | reply i reply => exact s.call_spec _ i rfl
  | write i applied clock => exact s.write_spec i applied clock
  | crash i =>
      show StepSpec s (.crash i)
        (s.onWorker i fun w => some (s.toPushStore, { w with crashed := true }))
      refine onWorker_spec fun w store w' hw hf => ?_
      cases hf
      exact .crash i w hw
  | tick micros =>
      exact .quiet _ ⟨Int.le_add_of_nonneg_right (Int.natCast_nonneg _), rfl, rfl, rfl,
        fun _ e he => ⟨e, he, rfl⟩⟩
  | enqueue community requests =>
      unfold PushState.step
      dsimp only
      split
      · exact .enqueue _ (enqueueWakes_enqueued requests)
      · exact .quiet _ (.refl _)
  | setLease key row =>
      exact .quiet _ ⟨Int.le_refl _, rfl, rfl, rfl, fun _ e he => ⟨e, he, rfl⟩⟩
  | storeEvent key channelId =>
      unfold PushState.step
      dsimp only
      split
      · exact .quiet _ (.refl _)
      · next hnone =>
          refine .quiet _ ⟨Int.le_refl _, rfl, rfl, rfl, fun key' e he => ⟨e, ?_, rfl⟩⟩
          rw [HMap.lookup_insert_ite, if_neg]
          · exact he
          · rintro rfl
            rw [he] at hnone
            exact hnone rfl
  | deleteEvent key =>
      unfold PushState.step
      dsimp only
      split
      · next e₀ he₀ =>
          refine .quiet _ ⟨Int.le_refl _, rfl, rfl, rfl, fun key' e he => ?_⟩
          rw [HMap.lookup_insert_ite]
          split
          · next hkey =>
              subst hkey
              rw [he₀] at he
              cases he
              exact ⟨_, rfl, rfl⟩
          · exact ⟨e, he, rfl⟩
      · exact .quiet _ (.refl _)
  | setMembers members =>
      exact .quiet _ ⟨Int.le_refl _, rfl, rfl, rfl, fun _ e he => ⟨e, he, rfl⟩⟩
  | setRefusing communities =>
      exact .quiet _ ⟨Int.le_refl _, rfl, rfl, rfl, fun _ e he => ⟨e, he, rfl⟩⟩

theorem Quiet.grows {s s' : PushStore} (h : Quiet s s') : Grows s s' :=
  ⟨Nat.le_of_eq h.nextClaim.symm, fun _ o ho => ⟨o, h.wakes ▸ ho, .refl o⟩, h.events⟩

theorem PushState.Inv.quiet (hinv : s.Inv) (h : Quiet s.toPushStore store) :
    PushState.Inv ⟨store, s.workers⟩ := by
  refine hinv.tables h.grows h.now ?_ ?_ ?_
  · intro key o ho
    rw [h.nextWake]
    exact hinv.ids key o (h.wakes ▸ ho)
  · intro key o ho
    exact hinv.until' key o (h.wakes ▸ ho)
  · rintro j v - - c - ⟨o, ho, hrest⟩
    exact ⟨o, h.wakes ▸ ho, hrest⟩

theorem PushState.Inv.enqueue (hinv : s.Inv) (h : Enqueued s.toPushStore store) :
    PushState.Inv ⟨store, s.workers⟩ := by
  -- A row that was there has an old id, so the insert did not touch it.
  have hold : ∀ key o, s.wakes.lookup key = some o → store.wakes.lookup key = some o := by
    intro key o ho
    rcases h.rows key with heq | ⟨hge, -⟩
    · exact heq.trans ho
    · exact absurd (hinv.ids key o ho) (Nat.not_lt.2 hge)
  refine hinv.tables ⟨Nat.le_of_eq h.nextClaim.symm, fun key o ho => ⟨o, hold key o ho, .refl o⟩,
    fun key e he => ⟨e, by rw [h.events]; exact he, rfl⟩⟩ (Int.le_of_eq h.now.symm) ?_ ?_ ?_
  · intro key o ho
    rcases h.rows key with heq | ⟨-, hlt, -⟩
    · exact Nat.lt_of_lt_of_le (hinv.ids key o (heq.symm.trans ho)) h.nextWake
    · exact hlt
  · intro key o ho hsome
    rcases h.rows key with heq | ⟨-, -, o', ho', -, hnone⟩
    · exact hinv.until' key o (heq.symm.trans ho) hsome
    · cases ho'.symm.trans ho
      rw [hnone] at hsome
      cases hsome
  · rintro j v - - c - ⟨o, ho, hrest⟩
    exact ⟨o, hold _ _ ho, hrest⟩

theorem PushState.Inv.join (hinv : s.Inv) :
    PushState.Inv { s with workers := s.workers ++ [{}] } where
  ids := hinv.ids
  until' := hinv.until'
  known j v hv c hc := by
    rcases getElem?_snoc_cases hv with ⟨-, rfl⟩ | ⟨-, hv⟩
    · cases hc
    · exact hinv.known j v hv c hc
  under j v hv hle c hc := by
    rcases getElem?_snoc_cases hv with ⟨-, rfl⟩ | ⟨-, hv⟩
    · cases hc
    · exact hinv.under j v hv hle c hc
  own j k v v' hv hv' hne c hc c' hc' := by
    rcases getElem?_snoc_cases hv with ⟨-, rfl⟩ | ⟨-, hv⟩
    · cases hc
    · rcases getElem?_snoc_cases hv' with ⟨-, rfl⟩ | ⟨-, hv'⟩
      · cases hc'
      · exact hinv.own j k v v' hv hv' hne c hc c' hc'
  nodup j v hv := by
    rcases getElem?_snoc_cases hv with ⟨-, rfl⟩ | ⟨-, hv⟩
    · exact List.nodup_nil
    · exact hinv.nodup j v hv

/-- A worker that drops the wake of its call, or goes on with it. -/
theorem PushState.Inv.phase (hinv : s.Inv) (hw : s.workers[i]? = some w) {p : DeliverPhase}
    (hp : ∀ c', p.wake = some c' → ∃ c, w.phase.wake = some c ∧ c'.key = c.key ∧
      c'.claimId = c.claimId ∧ (Known s.toPushStore c → Known s.toPushStore c')) :
    PushState.Inv ⟨s.toPushStore, s.workers.set i { w with phase := p }⟩ := by
  refine hinv.worker hw rfl (fun c' hc' => ?_) ?_
  · rcases List.mem_append.1 hc' with hc' | hc'
    · obtain ⟨c, hc, h⟩ := hp c' (Option.mem_toList.1 hc')
      exact ⟨c, List.mem_append_left _ (Option.mem_toList.2 hc), h⟩
    · exact ⟨c', List.mem_append_right _ hc', rfl, rfl, fun h => h⟩
  · have hnd := hinv.nodup i w hw
    unfold PushWorker.held at hnd ⊢
    rw [List.map_append] at hnd ⊢
    cases hwake : p.wake with
    | none => exact (List.nodup_append.1 hnd).2.1
    | some c' =>
        obtain ⟨c, hc, hkey, -⟩ := hp c' hwake
        rw [hc] at hnd
        show ((c'.key :: w.batch.map (·.key))).Nodup
        rw [hkey]
        exact hnd

theorem PushState.Inv.step (hinv : s.Inv) (m : PushMove) : (s.step m).Inv := by
  have hspec := s.step_spec m
  generalize s.step m = s' at hspec ⊢
  cases hspec with
  | quiet store h => exact hinv.quiet h
  | join => exact hinv.join
  | enqueue store h => exact hinv.enqueue h
  | claim i w store community claimUntil ids claimed hw hidle h =>
      refine hinv.claim h ?_ rfl
      unfold PushWorker.held
      rw [hidle]
      rfl
  | next i w c rest hw hidle hbatch =>
      have hheld : w.held = c :: rest := by
        unfold PushWorker.held
        rw [hidle, hbatch]
        rfl
      refine hinv.worker hw rfl (fun c' hc' => ⟨c', ?_, rfl, rfl, fun h => h⟩) ?_
      · rw [hheld]
        exact hc'
      · have hnd := hinv.nodup i w hw
        rw [hheld] at hnd
        exact hnd
  | call i w p hw hm h =>
      obtain ⟨c, hc, hgo⟩ := DeliverPhase.step_wake h
      exact hinv.phase hw fun c' hc' => ⟨c, hc, hgo c' hc'⟩
  | disable i w c store hw hphase h =>
      refine (hinv.phase hw (p := .fail c) fun c' hc' => ⟨c, by rw [hphase]; rfl, ?_⟩).quiet h
      cases hc'
      exact ⟨rfl, rfl, fun h => h⟩
  | finish i w c set hw hwake hset hfailed =>
      have hheld : w.held = c :: PushWorker.held { w with phase := .idle } := by
        unfold PushWorker.held
        rw [hwake]
        rfl
      have huntil : PushWorker.claimUntil { w with phase := .idle } = w.claimUntil := rfl
      exact PushState.Inv.write hinv hw huntil hheld hset
  | giveUp i w hw => exact hinv.phase hw fun c' hc' => (by cases hc')
  | crash i w hw =>
      exact hinv.worker hw rfl (fun c' hc' => ⟨c', hc', rfl, rfl, fun h => h⟩)
        (hinv.nodup i w hw)

end Steps

/-- A worker holds an unexpired claim on the wake. -/
def PushState.Holds (s : PushState) (i : Nat) (key : WakeKey) : Prop :=
  ∃ w, s.workers[i]? = some w ∧ s.now ≤ w.claimUntil ∧ ∃ c ∈ w.held, c.key = key

theorem PushState.Inv.holds_unique {s : PushState} (hinv : s.Inv) {i j : Nat} {key : WakeKey}
    (hi : s.Holds i key) (hj : s.Holds j key) : i = j := by
  obtain ⟨w, hw, hle, c, hc, hkey⟩ := hi
  obtain ⟨w', hw', hle', c', hc', hkey'⟩ := hj
  by_contra hne
  obtain ⟨o, ho, -, hclaim, -⟩ := hinv.under i w hw hle c hc
  obtain ⟨o', ho', -, hclaim', -⟩ := hinv.under j w' hw' hle' c' hc'
  rw [hkey] at ho
  rw [hkey', ho] at ho'
  cases ho'
  rw [hclaim] at hclaim'
  exact hinv.own i j w w' hw hw' hne c hc c' hc' (Option.some.inj hclaim')

end Buzz.Relay
