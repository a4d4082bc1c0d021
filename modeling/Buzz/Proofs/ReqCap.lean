import Buzz.Proofs.Lifecycle
import Buzz.Relay.ReqTasks
import Mathlib.Data.List.Induction

/-!
# How many ids a connection holds

`handle_req` tests the cap in its first critical section and claims the id in
a later one, with database reads in between; the claim does not test again.
What the test leaves behind is room for its own id: the other ids of the map
are fewer than the cap. Only a claim of another new id takes that room away,
because nothing else a connection does puts an id into the map. So the cap
holds throughout a run in which no claim is overtaken by such a claim since
its own test.

The sync claim tests the cap in the section that claims, and needs no such
condition.
-/

namespace Buzz.Relay

open Buzz.Core Buzz.Lib AppState

namespace AppState

variable {s : AppState} {conn : ConnId} {sub : SubId} {t : AppState}

/-- The ids in a connection's map. -/
def ids (s : AppState) (conn : ConnId) : List SubId :=
  (s.connections.lookup conn).elim [] (·.subscriptions.keys)

/-- The number of ids in a connection's map. -/
def held (s : AppState) (conn : ConnId) : Nat :=
  (s.ids conn).length

/-- How many ids the map holds besides one: the room that a cap test finds is
what these leave. -/
def others (s : AppState) (conn : ConnId) (sub : SubId) : Nat :=
  ((s.ids conn).erase sub).length

theorem nodup_ids : (s.ids conn).Nodup := by
  unfold ids
  cases s.connections.lookup conn with
  | none => exact List.nodup_nil
  | some c => exact c.subscriptions.keys_nodup

theorem held_le_of_subset (h : t.ids conn ⊆ s.ids conn) :
    t.held conn ≤ s.held conn :=
  (nodup_ids.subperm h).length_le

theorem others_le (h : ∀ id ∈ t.ids conn, id ≠ sub → id ∈ s.ids conn) :
    t.others conn sub ≤ s.others conn sub := by
  refine ((nodup_ids.erase sub).subperm fun id hid => ?_).length_le
  obtain ⟨hne, hmem⟩ := nodup_ids.mem_erase_iff.1 hid
  exact nodup_ids.mem_erase_iff.2 ⟨hne, h id hmem hne⟩

theorem held_le_others : s.held conn ≤ s.others conn sub + 1 := by
  unfold held others
  rw [List.length_erase]
  split
  · omega
  · omega

/-- What the cap test leaves behind when it passes. -/
theorem others_lt (hs : s.held conn ≤ maxSubscriptions)
    (h : sub ∉ s.ids conn → s.held conn < maxSubscriptions) :
    s.others conn sub < maxSubscriptions := by
  unfold held at hs h
  unfold others
  rw [List.length_erase]
  split
  · next hmem =>
      have hpos := List.length_pos_of_mem hmem
      omega
  · next hmem => exact h hmem

theorem ids_congr (h : t.connections = s.connections) :
    t.ids conn = s.ids conn := by
  unfold ids
  rw [h]

theorem ids_dropToken_subset : (s.dropToken conn sub).ids conn ⊆ s.ids conn := by
  unfold ids
  rw [lookup_dropToken, if_pos rfl]
  cases s.connections.lookup conn with
  | none => exact List.Subset.refl _
  | some c =>
      simp only [Option.map_some, Option.elim_some, AList.keys_erase]
      exact List.erase_subset

theorem ids_cancelConn : (s.cancelConn conn).ids conn = s.ids conn := by
  unfold ids
  rw [lookup_cancelConn, if_pos rfl]
  cases s.connections.lookup conn <;> rfl

theorem ids_send {sub' : SubId} {kind : FrameKind} {owner : Option Nat}
    {queued : Bool} :
    (s.send conn sub' kind owner queued).ids conn = s.ids conn :=
  ids_congr connections_send

theorem ids_sendClosed {owner : Option Nat} {queued : Bool} :
    (s.sendClosed conn sub owner queued).ids conn = s.ids conn := by
  unfold AppState.sendClosed
  dsimp only
  split
  · exact ids_send
  · rw [ids_cancelConn, ids_send]

theorem ids_retireLocked_subset (c : ConnectionState) :
    (s.retireLocked conn c sub).ids conn ⊆ s.ids conn := by
  have hsame : (s.retireLocked conn c sub).ids conn =
      (s.dropToken conn sub).ids conn := by
    refine ids_congr ?_
    unfold retireLocked
    rw [connections_unregister]
    rfl
  rw [hsame]
  exact ids_dropToken_subset

theorem ids_refuse_subset (queued : Bool) :
    (s.refuse conn sub queued).ids conn ⊆ s.ids conn := by
  unfold AppState.refuse
  split
  · exact List.Subset.refl _
  · rw [ids_sendClosed]
    exact ids_retireLocked_subset _

theorem ids_closeIfOwner_subset (owner : Nat) (closed queued : Bool) :
    (s.closeIfOwner conn sub owner closed queued).ids conn ⊆ s.ids conn := by
  unfold AppState.closeIfOwner
  split
  · exact List.Subset.refl _
  · split
    · exact List.Subset.refl _
    · dsimp only
      split
      · rw [ids_sendClosed]
        exact ids_retireLocked_subset _
      · exact ids_retireLocked_subset _

theorem ids_sendIfOwner (owner : Nat) (frame : HistoryFrame) (queued : Bool) :
    (s.sendIfOwner conn sub owner frame queued).ids conn = s.ids conn := by
  unfold AppState.sendIfOwner
  split
  · rfl
  · split
    · exact ids_send
    · rfl

theorem ids_checkCap (queued : Bool) :
    (s.checkCap conn sub queued).ids conn = s.ids conn := by
  unfold AppState.checkCap
  split
  · rfl
  · split
    · exact ids_sendClosed
    · rfl

theorem mem_ids_claimLive {c : ConnectionState}
    (hc : s.connections.lookup conn = some c) (hlive : c.cancelled = false)
    {filters : List Filter} {channelIds : Option (BTreeSet Uuid)} {id : SubId}
    (h : id ∈ (s.claimLiveSubscription conn sub filters channelIds).ids conn) :
    id = sub ∨ id ∈ s.ids conn := by
  unfold ids at h ⊢
  rw [lookup_claimLive hc hlive, Option.elim_some, AList.keys_insert] at h
  rw [hc]
  exact (List.mem_cons.1 h).imp_right fun h => List.mem_of_mem_erase h

theorem mem_ids_claimSearch {c : ConnectionState}
    (hc : s.connections.lookup conn = some c) (hlive : c.cancelled = false)
    {id : SubId} (h : id ∈ (s.claimSearchSubscription conn sub).ids conn) :
    id = sub ∨ id ∈ s.ids conn := by
  unfold claimSearchSubscription at h
  rw [hc] at h
  dsimp only at h
  rw [if_neg (by rw [hlive]; exact Bool.false_ne_true)] at h
  unfold ids at h
  rw [lookup_putToken, if_pos rfl] at h
  cases hr : (s.retireLocked conn c sub).connections.lookup conn with
  | none =>
      rw [hr] at h
      cases h
  | some c' =>
      rw [hr, Option.map_some, Option.elim_some, AList.keys_insert] at h
      refine (List.mem_cons.1 h).imp_right fun h => ?_
      have hsub : (s.retireLocked conn c sub).ids conn ⊆ s.ids conn :=
        ids_retireLocked_subset c
      refine hsub ?_
      unfold ids
      rw [hr]
      exact List.mem_of_mem_erase h

theorem ids_evict_subset (c : CommunityId) (ch : Uuid) (queued : SubId → Bool) :
    (s.evictConnChannelSubscriptions c ch conn queued).ids conn ⊆ s.ids conn := by
  have hround : ∀ (s : AppState) (u : ChannelSubscriptionUpdate),
      (evictUpdate c ch conn queued s u).ids conn ⊆ s.ids conn := by
    intro s u
    have hreg : (evictRegistry c ch conn s u).ids conn = s.ids conn := by
      refine ids_congr ?_
      unfold evictRegistry
      dsimp only
      split
      · rw [connections_unregister]; rfl
      · rfl
    rw [evictUpdate_eq]
    split
    · rw [ids_sendClosed, ← hreg]
      exact ids_dropToken_subset
    · rw [hreg]
      exact List.Subset.refl _
  have hloop : ∀ (us : List ChannelSubscriptionUpdate) (s : AppState),
      (us.foldl (evictUpdate c ch conn queued) s).ids conn ⊆ s.ids conn := by
    intro us
    induction us with
    | nil => intro s; exact List.Subset.refl _
    | cons u us ih => intro s; exact List.Subset.trans (ih _) (hround s u)
  unfold evictConnChannelSubscriptions
  split
  · exact List.Subset.refl _
  · exact hloop _ _

theorem ids_release_subset :
    (s.releaseConnectionSubscriptions conn).ids conn ⊆ s.ids conn := by
  have hloop : ∀ (xs : List RemovedSubscription) (c : CommunityId) (s : AppState),
      (xs.foldl (fun s x => s.releaseRemoved c (some x)) s).ids conn =
        s.ids conn := by
    intro xs c
    induction xs with
    | nil => intro s; rfl
    | cons x xs ih =>
        intro s
        rw [List.foldl_cons, ih]
        exact ids_congr (connections_releaseRemoved _ _)
  unfold releaseConnectionSubscriptions
  split
  · exact List.Subset.refl _
  · next c hc =>
      split
      · exact List.Subset.refl _
      · have hnil : (s.setConn conn { c with subscriptions := ∅ }).ids conn = [] := by
          unfold ids setConn
          rw [HMap.lookup_insert_ite, if_pos rfl]
          rfl
        dsimp only
        rw [hloop]
        intro id hid
        have hnone : id ∈ (s.setConn conn { c with subscriptions := ∅ }).ids conn :=
          hid
        rw [hnil] at hnone
        cases hnone

end AppState

theorem ReqTask.not_isCancelled {app : AppState} {conn : ConnId}
    (h : ReqTask.isCancelled app conn = false) :
    ∃ c, app.connections.lookup conn = some c ∧ c.cancelled = false := by
  unfold ReqTask.isCancelled at h
  cases hc : app.connections.lookup conn with
  | none => simp [hc] at h
  | some c => exact ⟨c, rfl, by simpa [hc] using h⟩

namespace ConnRun

variable {conn : ConnId} {s : ConnRun} {m : ConnMove} {sub : SubId}

/-- Whether a move is the claim that a request with these filters makes. -/
def isClaim (filters : List Filter) : ReqMove → Bool
  | .claimLive _ => !isOneShot filters
  | .claimSearch => isOneShot filters
  | _ => false

/-- The id a move claims, if it claims one: a checked request's claim on a
connection that is not closing. -/
def claims (conn : ConnId) (s : ConnRun) : ConnMove → Option SubId
  | .task i move =>
      match s.frames[i]? with
      | some (.req t) =>
          if isClaim t.filters move && t.phase == .checked &&
              !ReqTask.isCancelled s.app conn then
            some t.sub
          else none
      | _ => none
  | _ => none

theorem claims_eq_some_iff :
    claims conn s m = some sub ↔
      ∃ i move t, m = .task i move ∧ s.frames[i]? = some (.req t) ∧
        isClaim t.filters move = true ∧ t.phase = .checked ∧
        ReqTask.isCancelled s.app conn = false ∧ t.sub = sub := by
  constructor
  · intro h
    cases m with
    | task i move =>
        unfold claims at h
        dsimp only at h
        split at h
        · next t ht =>
            split at h
            · next hcond =>
                simp only [Bool.and_eq_true, beq_iff_eq, Bool.not_eq_true',
                  and_assoc] at hcond
                obtain ⟨hmove, hphase, hx⟩ := hcond
                exact ⟨i, move, t, rfl, ht, hmove, hphase, hx, Option.some.inj h⟩
            · cases h
        · cases h
    | recvReq | refuseReq | recvClose | evict | cancel | release => cases h
  · rintro ⟨i, move, t, rfl, ht, hmove, hphase, hx, rfl⟩
    unfold claims
    simp [ht, hmove, hphase, hx]

theorem claim_noop_of_isCancelled {app : AppState}
    (h : ReqTask.isCancelled app conn = true) (sub : SubId)
    (filters : List Filter) (channelIds : Option (BTreeSet Uuid)) :
    app.claimLiveSubscription conn sub filters channelIds = app ∧
      app.claimSearchSubscription conn sub = app := by
  unfold claimLiveSubscription claimSearchSubscription
  unfold ReqTask.isCancelled at h
  cases hc : app.connections.lookup conn with
  | none => exact ⟨rfl, rfl⟩
  | some c =>
      rw [hc, Option.all_some] at h
      simp [h]

/-- One section of a task puts no id into the map but the one it claims. -/
theorem mem_ids_reqStep {app : AppState} {t : ReqTask} {move : ReqMove}
    {id : SubId} (h : id ∈ (t.step conn app move).1.ids conn) :
    id ∈ app.ids conn ∨ (isClaim t.filters move = true ∧ t.phase = .checked ∧
      ReqTask.isCancelled app conn = false ∧ t.sub = id) := by
  cases move with
  | check queued =>
      left
      unfold ReqTask.step at h
      dsimp only at h
      split at h
      · rwa [ids_checkCap] at h
      · exact h
  | refuse queued =>
      left
      unfold ReqTask.step at h
      dsimp only at h
      split at h
      · exact ids_refuse_subset queued h
      · exact ids_refuse_subset queued h
      · exact h
  | claimLive channelIds =>
      unfold ReqTask.step at h
      dsimp only at h
      split at h
      · next hphase hone =>
          cases hx : ReqTask.isCancelled app conn with
          | true =>
              rw [(claim_noop_of_isCancelled hx _ _ _).1] at h
              exact .inl h
          | false =>
              obtain ⟨c, hc, hlive⟩ := ReqTask.not_isCancelled hx
              refine (mem_ids_claimLive hc hlive h).symm.imp_right fun he => ?_
              exact ⟨by simp [isClaim, hone], hphase, rfl, he.symm⟩
      · exact .inl h
  | claimSearch =>
      unfold ReqTask.step at h
      dsimp only at h
      split at h
      · next hphase hone =>
          cases hx : ReqTask.isCancelled app conn with
          | true =>
              rw [(claim_noop_of_isCancelled hx _ [] none).2] at h
              exact .inl h
          | false =>
              obtain ⟨c, hc, hlive⟩ := ReqTask.not_isCancelled hx
              refine (mem_ids_claimSearch hc hlive h).symm.imp_right fun he => ?_
              exact ⟨hone, hphase, rfl, he.symm⟩
      · exact .inl h
  | send frame queued =>
      left
      unfold ReqTask.step at h
      dsimp only at h
      split at h
      · rwa [ids_sendIfOwner] at h
      · rwa [ids_sendIfOwner] at h
      · exact h
  | close closed queued =>
      left
      unfold ReqTask.step at h
      dsimp only at h
      split at h
      · exact ids_closeIfOwner_subset _ _ _ h
      · exact ids_closeIfOwner_subset _ _ _ h
      · exact h
  | finish =>
      left
      unfold ReqTask.step at h
      dsimp only at h
      split at h
      · exact h
      · exact h

/-- An id in the map after a step was there before, or the step claimed it. -/
theorem mem_ids_step {id : SubId} (h : id ∈ (s.step conn m).app.ids conn) :
    id ∈ s.app.ids conn ∨ claims conn s m = some id := by
  cases m with
  | recvReq sub filters =>
      left
      unfold step at h
      dsimp only at h
      split at h
      · exact h
      · exact h
  | refuseReq sub filters queued =>
      left
      unfold step at h
      dsimp only at h
      split at h
      · exact h
      · exact ids_refuse_subset queued h
  | recvClose sub queued =>
      left
      unfold step at h
      dsimp only at h
      split at h
      · exact h
      · unfold AppState.handleClose at h
        split at h
        · exact h
        · rw [ids_send] at h
          exact ids_retireLocked_subset _ h
  | task i move =>
      unfold step at h
      dsimp only at h
      split at h
      · next t ht =>
          refine (mem_ids_reqStep h).imp_right fun hclaim => ?_
          exact claims_eq_some_iff.2 ⟨i, move, t, rfl, ht, hclaim⟩
      · exact .inl h
  | evict c ch queued => exact .inl (ids_evict_subset c ch queued h)
  | cancel =>
      left
      rwa [← ids_cancelConn]
  | release => exact .inl (ids_release_subset h)

/-! ## What a cap test leaves behind -/

/-- The request at place `i` has passed its cap test for an id and has not
claimed it. -/
def CheckedFor (s : ConnRun) (i : Nat) (sub : SubId) : Prop :=
  ∃ t, s.frames[i]? = some (.req t) ∧ t.phase = .checked ∧ t.sub = sub

/-- The cap test of `handle_req`, at the state where it is evaluated. -/
def atCap (conn : ConnId) (s : ConnRun) (sub : SubId) : Bool :=
  (s.app.connections.lookup conn).any (AppState.atCap · sub)

theorem atCap_iff :
    atCap conn s sub = true ↔
      sub ∉ s.app.ids conn ∧ maxSubscriptions ≤ s.app.held conn := by
  unfold atCap AppState.held AppState.ids AppState.atCap
  cases s.app.connections.lookup conn with
  | none => simp [maxSubscriptions]
  | some c => simp [AList.lookup_eq_none, AList.mem_keys]

/-- A section that leaves a task past its cap test did nothing to it, or is the
test itself, which changes nothing when it passes. -/
theorem checked_reqStep {app : AppState} {t : ReqTask} {move : ReqMove}
    (h : (t.step conn app move).2.phase = .checked) :
    (t.step conn app move).2 = t ∨
      ((t.step conn app move).1 = app ∧ (t.step conn app move).2.sub = t.sub ∧
        (app.connections.lookup conn).any (AppState.atCap · t.sub) = false) := by
  cases move with
  | check queued =>
      unfold ReqTask.step at h ⊢
      dsimp only at h ⊢
      split
      · next hphase =>
          simp only [hphase] at h
          right
          cases hcap : (app.connections.lookup conn).any (AppState.atCap · t.sub) with
          | true => simp [hcap] at h
          | false =>
              refine ⟨?_, rfl, rfl⟩
              show app.checkCap conn t.sub queued = app
              unfold AppState.checkCap
              cases hc : app.connections.lookup conn with
              | none => rfl
              | some c =>
                  rw [hc, Option.any_some] at hcap
                  simp [hcap]
      · exact .inl rfl
  | refuse queued =>
      unfold ReqTask.step at h ⊢
      dsimp only at h ⊢
      split at h
      · cases h
      · cases h
      · exact .inl rfl
  | claimLive channelIds =>
      unfold ReqTask.step at h ⊢
      dsimp only at h ⊢
      split at h
      · dsimp only at h
        split at h <;> cases h
      · exact .inl rfl
  | claimSearch =>
      unfold ReqTask.step at h ⊢
      dsimp only at h ⊢
      split at h
      · dsimp only at h
        split at h <;> cases h
      · exact .inl rfl
  | send frame queued =>
      unfold ReqTask.step
      dsimp only
      split
      · exact .inl rfl
      · exact .inl rfl
      · exact .inl rfl
  | close closed queued =>
      unfold ReqTask.step at h ⊢
      dsimp only at h ⊢
      split at h
      · cases h
      · cases h
      · exact .inl rfl
  | finish =>
      unfold ReqTask.step at h ⊢
      dsimp only at h ⊢
      split at h
      · cases h
      · exact .inl rfl

theorem checkedFor_step {i : Nat} (h : CheckedFor (s.step conn m) i sub) :
    CheckedFor s i sub ∨
      ((s.step conn m).app = s.app ∧ atCap conn s sub = false) := by
  -- A frame that has just arrived is not past its cap test.
  have hold : ∀ {app : AppState} {f : ClientFrame},
      CheckedFor ⟨app, s.frames ++ [f]⟩ i sub →
      (∀ t, f = .req t → t.phase ≠ .checked) → CheckedFor s i sub := by
    rintro app f ⟨t, ht, hphase, hsub⟩ hnew
    refine ⟨t, ?_, hphase, hsub⟩
    rcases Nat.lt_or_ge i s.frames.length with hi | hi
    · rwa [List.getElem?_append_left hi] at ht
    · rw [List.getElem?_append_right hi, List.getElem?_singleton] at ht
      split at ht
      · exact absurd hphase (hnew t (Option.some.inj ht))
      · cases ht
  cases m with
  | recvReq sub' filters =>
      left
      unfold step at h
      dsimp only at h
      split at h
      · exact h
      · refine hold h ?_
        rintro t ⟨⟩ ⟨⟩
  | refuseReq sub' filters queued =>
      left
      unfold step at h
      dsimp only at h
      split at h
      · exact h
      · refine hold h ?_
        rintro t ⟨⟩ ⟨⟩
  | recvClose sub' queued =>
      left
      unfold step at h
      dsimp only at h
      split at h
      · exact h
      · refine hold h ?_
        rintro t ⟨⟩
  | task j move =>
      unfold step at h ⊢
      dsimp only at h ⊢
      split at h
      · next t ht =>
          obtain ⟨t', ht', hphase, hsub⟩ := h
          rw [List.getElem?_set] at ht'
          split at ht'
          · next hji =>
              subst hji
              split at ht'
              · cases Option.some.inj ht'
                rcases checked_reqStep hphase with hsame | ⟨happ, hid, hcap⟩
                · left
                  rw [hsame] at hphase hsub
                  exact ⟨t, ht, hphase, hsub⟩
                · right
                  rw [hid] at hsub
                  rw [hsub] at hcap
                  exact ⟨happ, hcap⟩
              · cases ht'
          · exact .inl ⟨t', ht', hphase, hsub⟩
      · exact .inl h
  | evict c ch queued => exact .inl h
  | cancel => exact .inl h
  | release => exact .inl h

/-- Since the cap test of the request at place `i`, which is for the id `sub`,
another id has been claimed that was new to the map. -/
def Overtaken (conn : ConnId) (s : ConnRun) (moves : List ConnMove) (i : Nat)
    (sub : SubId) : Prop :=
  ∃ p m rest id, moves = p ++ m :: rest ∧ CheckedFor (run conn s p) i sub ∧
    claims conn (run conn s p) m = some id ∧
    id ∉ (run conn s p).app.ids conn ∧ id ≠ sub

theorem Overtaken.append {moves : List ConnMove} {i : Nat}
    (h : Overtaken conn s moves i sub) (later : List ConnMove) :
    Overtaken conn s (moves ++ later) i sub := by
  obtain ⟨p, m, rest, id, rfl, hrest⟩ := h
  exact ⟨p, m, rest ++ later, id, by simp, hrest⟩

/-- The cap holds, and a request that is past its cap test and not overtaken
still has the room that the test found. -/
structure Room (conn : ConnId) (s : ConnRun) (moves : List ConnMove) : Prop where
  held : (run conn s moves).app.held conn ≤ maxSubscriptions
  room : ∀ i sub, CheckedFor (run conn s moves) i sub →
    ¬ Overtaken conn s moves i sub →
    (run conn s moves).app.others conn sub < maxSubscriptions

theorem run_concat (moves : List ConnMove) (m : ConnMove) :
    run conn s (moves ++ [m]) = (run conn s moves).step conn m := by
  simp [run]

theorem Room.step {moves : List ConnMove} (h : Room conn s moves)
    (hfree : ∀ i move sub, m = .task i move →
      claims conn (run conn s moves) m = some sub →
      ¬ Overtaken conn s moves i sub) :
    Room conn s (moves ++ [m]) := by
  constructor
  · rw [run_concat]
    cases hm : claims conn (run conn s moves) m with
    | none =>
        refine Nat.le_trans (held_le_of_subset fun id hid => ?_) h.held
        refine (mem_ids_step hid).resolve_right fun hc => ?_
        rw [hm] at hc
        cases hc
    | some sub =>
        obtain ⟨i, move, t, rfl, ht, -, hphase, -, hsub⟩ := claims_eq_some_iff.1 hm
        have hroom := h.room i sub ⟨t, ht, hphase, hsub⟩ (hfree i move sub rfl hm)
        have hless : ((run conn s moves).step conn (.task i move)).app.others conn
            sub ≤ (run conn s moves).app.others conn sub := by
          refine others_le fun id hid hne => ?_
          refine (mem_ids_step hid).resolve_right fun hc => hne ?_
          rw [hm] at hc
          exact (Option.some.inj hc).symm
        have hheld : ((run conn s moves).step conn (.task i move)).app.held conn ≤
            ((run conn s moves).step conn (.task i move)).app.others conn sub + 1 :=
          held_le_others
        omega
  · intro i sub hchecked hnot
    rw [run_concat] at hchecked ⊢
    rcases checkedFor_step hchecked with hbefore | ⟨happ, hcap⟩
    · have hroom := h.room i sub hbefore fun ho => hnot (ho.append [m])
      refine Nat.lt_of_le_of_lt (others_le fun id hid hne => ?_) hroom
      -- A new id that this step claims would have overtaken the request.
      by_contra hnew
      have hclaim := (mem_ids_step hid).resolve_left hnew
      exact hnot ⟨moves, m, [], id, rfl, hbefore, hclaim, hnew, hne⟩
    · rw [happ]
      refine others_lt h.held fun hnew => ?_
      by_contra hfull
      rw [atCap_iff.2 ⟨hnew, Nat.not_lt.1 hfull⟩] at hcap
      cases hcap

theorem lookup_init (conn : ConnId) (c : CommunityId) :
    (init conn c).app.connections.lookup conn = some { communityId := c } := by
  show ((∅ : HMap ConnId ConnectionState).insert conn _).lookup conn = _
  rw [HMap.lookup_insert_ite, if_pos rfl]

theorem ids_init (conn : ConnId) (c : CommunityId) :
    (init conn c).app.ids conn = [] := by
  unfold AppState.ids
  rw [lookup_init]
  rfl

/-- Pairwise different subscription ids. -/
def raceId (n : Nat) : SubId := String.ofList (List.replicate n 'x')

/-- One request that is received, checked and registered. -/
def serveOne (i : Nat) : List ConnMove :=
  [.recvReq (raceId i) [{}], .task i (.check true), .task i (.claimLive none)]

/-- A connection stays within the cap throughout every run in which no request
is overtaken between its cap test and its claim. -/
theorem held_le_of_not_overtaken (conn : ConnId) (c : CommunityId)
    (moves : List ConnMove)
    (h : ∀ p i move sub, p ++ [.task i move] <+: moves →
      claims conn (run conn (init conn c) p) (.task i move) = some sub →
      ¬ Overtaken conn (init conn c) p i sub) :
    ∀ p, p <+: moves →
      (run conn (init conn c) p).app.held conn ≤ maxSubscriptions := by
  intro p hp
  suffices hroom : Room conn (init conn c) p from hroom.held
  induction p using List.reverseRec with
  | nil =>
      constructor
      · show ((init conn c).app.ids conn).length ≤ _
        rw [ids_init]
        exact Nat.zero_le _
      · rintro i sub ⟨t, ht, -⟩ -
        cases ht
  | append_singleton p m ih =>
      refine (ih ((List.prefix_append p [m]).trans hp)).step ?_
      rintro i move sub rfl hclaim
      exact h p i move sub hp hclaim

/-- Two requests one after the other: the second tests the cap after the first
has claimed. -/
theorem held_le_of_not_overtaken_inTurn :
    (run (.ofByte 1) (init (.ofByte 1) ⟨.ofByte 2⟩)
      (serveOne 0 ++ serveOne 1)).app.held (.ofByte 1) ≤ maxSubscriptions := by
  refine held_le_of_not_overtaken (.ofByte 1) ⟨.ofByte 2⟩ _ ?_ _ List.prefix_rfl
  rintro p i move sub ⟨later, hp⟩ - ⟨q, m, rest, id, rfl, ⟨t, ht, -⟩, hm, -⟩
  obtain ⟨j, move', t', rfl, -, hclaim, -⟩ := claims_eq_some_iff.1 hm
  -- The only claim with a claim after it is the first, before the second frame.
  rcases q with _ | ⟨a, _ | ⟨b, _ | ⟨c, _ | ⟨d, _ | ⟨e, q⟩⟩⟩⟩⟩
  all_goals simp [serveOne] at hp
  · obtain ⟨-, ⟨-, rfl⟩, -⟩ := hp
    cases hclaim
  · obtain ⟨rfl, rfl, -, hlater⟩ := hp
    have hmem : ConnMove.task i move ∈ rest ++ .task i move :: later := by simp
    have hi : i = 1 := by
      rw [hlater] at hmem
      simp only [List.mem_cons, ConnMove.task.injEq, reduceCtorEq, false_or,
        List.not_mem_nil, or_false] at hmem
      exact hmem.elim And.left And.left
    subst hi
    cases ht
  · obtain ⟨-, -, -, -, ⟨-, rfl⟩, -⟩ := hp
    cases hclaim
  · have := congrArg List.length hp.2.2.2.2.2
    simp only [List.length_append, List.length_cons, List.length_nil] at this
    omega

/-! ## Two requests pass the test before either claims -/

theorem raceId_injective {m n : Nat} (h : raceId m = raceId n) : m = n := by
  have := congrArg (fun s : String => s.toList.length) h
  simpa [raceId] using this

/-- The connection is open and holds `n` ids, none of them a `raceId` from
`n` on. -/
structure Filled (conn : ConnId) (app : AppState) (n : Nat) : Prop where
  live : ReqTask.isCancelled app conn = false
  held : app.held conn = n
  fresh : ∀ i, n ≤ i → raceId i ∉ app.ids conn

variable {app : AppState} {frames : List ClientFrame} {n : Nat}

theorem step_recvReq (h : Filled conn app n) (sub : SubId) (filters : List Filter) :
    step conn ⟨app, frames⟩ (.recvReq sub filters) =
      ⟨app, frames ++ [.req ⟨sub, filters, .start⟩]⟩ := by
  show (if _ then _ else _) = _
  rw [h.live]
  rfl

theorem step_check (h : Filled conn app n) (hn : n < maxSubscriptions)
    (frames later : List ClientFrame) (sub : SubId) (filters : List Filter) :
    step conn ⟨app, frames ++ .req ⟨sub, filters, .start⟩ :: later⟩
        (.task frames.length (.check true)) =
      ⟨app, frames ++ .req ⟨sub, filters, .checked⟩ :: later⟩ := by
  have hcap : (app.connections.lookup conn).any (AppState.atCap · sub) = false := by
    rw [← Bool.not_eq_true]
    intro hcap
    have := (atCap_iff (s := ⟨app, frames⟩)).1 hcap
    rw [h.held] at this
    omega
  have happ : app.checkCap conn sub true = app := by
    unfold AppState.checkCap
    cases hc : app.connections.lookup conn with
    | none => rfl
    | some c =>
        rw [hc, Option.any_some] at hcap
        simp [hcap]
  simp [step, ReqTask.step, hcap, happ]

theorem step_claimLive (h : Filled conn app n) (frames later : List ClientFrame) :
    ∃ app' owner, Filled conn app' (n + 1) ∧
      step conn ⟨app, frames ++ .req ⟨raceId n, [{}], .checked⟩ :: later⟩
          (.task frames.length (.claimLive none)) =
        ⟨app', frames ++ .req ⟨raceId n, [{}], .live owner⟩ :: later⟩ := by
  obtain ⟨c, hc, hlive⟩ := ReqTask.not_isCancelled h.live
  have hlook := lookup_claimLive hc hlive (raceId n) [{}] none
  refine ⟨app.claimLiveSubscription conn (raceId n) [{}] none, app.nextOwner,
    ⟨?_, ?_, ?_⟩, ?_⟩
  · unfold ReqTask.isCancelled
    rw [hlook]
    exact hlive
  · have hnew : raceId n ∉ c.subscriptions.keys := by
      have := h.fresh n (Nat.le_refl n)
      unfold AppState.ids at this
      rwa [hc] at this
    have hheld := h.held
    unfold AppState.held AppState.ids at hheld ⊢
    rw [hc, Option.elim_some] at hheld
    rw [hlook, Option.elim_some, AList.keys_insert, List.erase_of_not_mem hnew,
      List.length_cons, hheld]
  · intro j hj hmem
    rcases mem_ids_claimLive hc hlive hmem with he | hold
    · have := raceId_injective he
      omega
    · exact h.fresh j (by omega) hold
  · have hone : isOneShot [{}] = false := by decide
    simp [step, ReqTask.step, hone, h.live]

/-- Two requests that are both checked before either claims. -/
def raceTwo (i : Nat) : List ConnMove :=
  [.recvReq (raceId i) [{}], .recvReq (raceId (i + 1)) [{}],
    .task i (.check true), .task (i + 1) (.check true),
    .task i (.claimLive none), .task (i + 1) (.claimLive none)]

/-- Requests one at a time up to one id below the cap, then two at once. -/
def capRace : List ConnMove :=
  (List.range (maxSubscriptions - 1)).flatMap serveOne ++ raceTwo (maxSubscriptions - 1)

theorem run_serveOne (h : Filled conn app n) (hlen : frames.length = n)
    (hn : n < maxSubscriptions) :
    ∃ app' frames', Filled conn app' (n + 1) ∧ frames'.length = n + 1 ∧
      run conn ⟨app, frames⟩ (serveOne n) = ⟨app', frames'⟩ := by
  subst hlen
  obtain ⟨app', owner, hfill, hstep⟩ := step_claimLive h frames []
  refine ⟨app', frames ++ [.req ⟨raceId frames.length, [{}], .live owner⟩], hfill,
    by simp, ?_⟩
  simp only [run, serveOne, List.foldl_cons, List.foldl_nil]
  rw [step_recvReq h, step_check h hn, hstep]

theorem filled_init (conn : ConnId) (c : CommunityId) :
    Filled conn (init conn c).app 0 := by
  refine ⟨?_, ?_, fun i _ => ?_⟩
  · unfold ReqTask.isCancelled
    rw [lookup_init]
    rfl
  · unfold AppState.held
    rw [ids_init]
    rfl
  · rw [ids_init]
    exact List.not_mem_nil

theorem run_range (conn : ConnId) (c : CommunityId) (n : Nat)
    (hn : n ≤ maxSubscriptions) :
    ∃ app frames, Filled conn app n ∧ frames.length = n ∧
      run conn (init conn c) ((List.range n).flatMap serveOne) = ⟨app, frames⟩ := by
  induction n with
  | zero => exact ⟨_, [], filled_init conn c, rfl, rfl⟩
  | succ n ih =>
      obtain ⟨app, frames, hfill, hlen, hrun⟩ := ih (by omega)
      obtain ⟨app', frames', hfill', hlen', hrun'⟩ := run_serveOne hfill hlen hn
      refine ⟨app', frames', hfill', hlen', ?_⟩
      rw [← hrun', ← hrun]
      simp [run, List.range_succ]

theorem held_raceTwo (h : Filled conn app n) (hlen : frames.length = n)
    (hn : n < maxSubscriptions) :
    (run conn ⟨app, frames⟩ (raceTwo n)).app.held conn = n + 2 := by
  subst hlen
  obtain ⟨app₁, owner, h₁, hfst⟩ := step_claimLive h frames
    [.req ⟨raceId (frames.length + 1), [{}], .checked⟩]
  obtain ⟨app₂, owner', h₂, hsnd⟩ := step_claimLive h₁
    (frames ++ [.req ⟨raceId frames.length, [{}], .live owner⟩]) []
  have hchk := step_check h hn (frames ++ [.req ⟨raceId frames.length, [{}], .checked⟩])
    [] (raceId (frames.length + 1)) [{}]
  rw [List.length_append, List.append_assoc] at hsnd hchk
  simp only [run, raceTwo, List.foldl_cons, List.foldl_nil]
  rw [step_recvReq h, step_recvReq h, List.append_assoc, List.singleton_append,
    step_check h hn]
  erw [hchk, List.append_assoc, hfst, hsnd]
  exact h₂.held

/-- Filled one at a time to one id below the cap, a connection that then
handles two new requests at once holds more ids than the cap. -/
theorem capRace_exceeds :
    maxSubscriptions <
      (run (.ofByte 1) (init (.ofByte 1) ⟨.ofByte 2⟩) capRace).app.held (.ofByte 1) := by
  obtain ⟨app, frames, hfill, hlen, hrun⟩ :=
    run_range (.ofByte 1) ⟨.ofByte 2⟩ (maxSubscriptions - 1) (by decide)
  have hsplit : run (.ofByte 1) (init (.ofByte 1) ⟨.ofByte 2⟩) capRace =
      run (.ofByte 1) ⟨app, frames⟩ (raceTwo (maxSubscriptions - 1)) := by
    rw [← hrun]
    simp [run, capRace]
  rw [hsplit, held_raceTwo hfill hlen (by decide)]
  decide

end ConnRun

end Buzz.Relay
