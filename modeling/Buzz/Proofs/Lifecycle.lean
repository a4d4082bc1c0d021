import Buzz.Proofs.Retainers

/-!
# Lifecycle coherence

Two things are true of every interleaving of critical sections. The first is
an invariant of states, `Coherent`: a registered id is in its connection's
map, the topic refcounts count the registered subscriptions, and no `CLOSED`
was queued while its id was registered. The second is a relation between an
earlier and a later state, `Evolves`: owner tokens only disappear or are
replaced by fresh ones, a cancelled connection gets none, and a frame is
queued only for a token that is held. A token that was lost is therefore
silent for good, and a cleaned-up connection stays empty.
-/

namespace Buzz.Relay

open Buzz.Core Buzz.Lib DesiredTopics SubscriptionRegistry Section AppState

namespace AppState

variable {s t : AppState} {conn conn' : ConnId} {sub sub' : SubId}
  {kind : FrameKind} {owner : Option Nat} {queued : Bool}

/-- The owner token that holds an id. -/
def token (s : AppState) (conn : ConnId) (sub : SubId) : Option Nat :=
  (s.connections.lookup conn).bind (·.subscriptions.lookup sub)

def Cancelled (s : AppState) (conn : ConnId) : Prop :=
  ∃ c, s.connections.lookup conn = some c ∧ c.cancelled = true

/-! ## How one state becomes another -/

/-- What any critical section can do to the state: tokens are new or old, a
cancelled connection stays so, and frames are only added. -/
structure Evolves (s t : AppState) : Prop where
  token : ∀ conn sub owner, t.token conn sub = some owner →
    s.token conn sub = some owner ∨ (s.nextOwner ≤ owner ∧ ¬s.Cancelled conn)
  cancelled : ∀ conn, s.Cancelled conn → t.Cancelled conn
  nextOwner : s.nextOwner ≤ t.nextOwner
  frames : ∃ new, t.frames = s.frames ++ new ∧
    ∀ f ∈ new, ∀ owner, f.owner = some owner →
      s.token f.conn f.sub = some owner ∨ s.nextOwner ≤ owner

theorem Evolves.refl (s : AppState) : Evolves s s :=
  ⟨fun _ _ _ h => .inl h, fun _ h => h, Nat.le_refl _, [], by simp⟩

theorem Evolves.trans {u : AppState} (h₁ : Evolves s t) (h₂ : Evolves t u) :
    Evolves s u where
  token conn sub owner h := by
    rcases h₂.token conn sub owner h with h | ⟨hle, hc⟩
    · exact h₁.token conn sub owner h
    · exact .inr ⟨Nat.le_trans h₁.nextOwner hle, fun h => hc (h₁.cancelled conn h)⟩
  cancelled conn h := h₂.cancelled conn (h₁.cancelled conn h)
  nextOwner := Nat.le_trans h₁.nextOwner h₂.nextOwner
  frames := by
    obtain ⟨n₁, e₁, o₁⟩ := h₁.frames
    obtain ⟨n₂, e₂, o₂⟩ := h₂.frames
    refine ⟨n₁ ++ n₂, by rw [e₂, e₁, List.append_assoc], fun f hf owner ho => ?_⟩
    rcases List.mem_append.1 hf with hf | hf
    · exact o₁ f hf owner ho
    · rcases o₂ f hf owner ho with h | h
      · exact (h₁.token _ _ _ h).imp id And.left
      · exact .inr (Nat.le_trans h₁.nextOwner h)

/-- Changes to the registry, the syncs or the refcounts are not seen here. -/
theorem Evolves.congr {u : AppState} (h : Evolves s t)
    (hc : u.connections = t.connections) (hn : u.nextOwner = t.nextOwner)
    (hf : u.frames = t.frames) : Evolves s u where
  token conn sub owner hu := by
    refine h.token conn sub owner ?_
    unfold AppState.token at hu ⊢
    rwa [hc] at hu
  cancelled conn hs := by
    obtain ⟨c, hl, hx⟩ := h.cancelled conn hs
    exact ⟨c, by rw [hc]; exact hl, hx⟩
  nextOwner := by rw [hn]; exact h.nextOwner
  frames := by rw [hf]; exact h.frames

theorem lookup_dropToken :
    (s.dropToken conn sub).connections.lookup conn' =
      if conn' = conn then (s.connections.lookup conn).map fun c =>
        { c with subscriptions := c.subscriptions.erase sub }
      else s.connections.lookup conn' :=
  HMap.lookup_alter _ _ _ _

theorem lookup_putToken :
    (s.putToken conn sub).connections.lookup conn' =
      if conn' = conn then (s.connections.lookup conn).map fun c =>
        { c with subscriptions := c.subscriptions.insert sub s.nextOwner }
      else s.connections.lookup conn' :=
  HMap.lookup_alter _ _ _ _

theorem lookup_cancelConn :
    (s.cancelConn conn).connections.lookup conn' =
      if conn' = conn then (s.connections.lookup conn).map fun c =>
        { c with cancelled := true }
      else s.connections.lookup conn' :=
  HMap.lookup_alter _ _ _ _

theorem token_dropToken :
    (s.dropToken conn sub).token conn' sub' =
      if conn' = conn ∧ sub' = sub then none else s.token conn' sub' := by
  unfold token
  rw [lookup_dropToken]
  by_cases hc : conn' = conn
  · subst hc
    cases s.connections.lookup conn' <;> by_cases hs : sub' = sub <;>
      simp [HMap.lookup_erase_ite, hs]
  · simp [hc]

theorem token_putToken :
    (s.putToken conn sub).token conn' sub' =
      if conn' = conn ∧ sub' = sub then
        (s.connections.lookup conn).map fun _ => s.nextOwner
      else s.token conn' sub' := by
  unfold token
  rw [lookup_putToken]
  by_cases hc : conn' = conn
  · subst hc
    cases s.connections.lookup conn' <;> by_cases hs : sub' = sub <;>
      simp [HMap.lookup_insert_ite, hs]
  · simp [hc]

theorem token_cancelConn :
    (s.cancelConn conn).token conn' sub' = s.token conn' sub' := by
  unfold token
  rw [lookup_cancelConn]
  split
  · next h => subst h; cases s.connections.lookup conn' <;> rfl
  · rfl

theorem cancelled_of_lookup_map {f : ConnectionState → ConnectionState}
    (hl : ∀ conn', t.connections.lookup conn' =
      if conn' = conn then (s.connections.lookup conn).map f
      else s.connections.lookup conn')
    (hf : ∀ c, c.cancelled = true → (f c).cancelled = true)
    (h : s.Cancelled conn') : t.Cancelled conn' := by
  obtain ⟨c, hc, hx⟩ := h
  by_cases he : conn' = conn
  · subst he
    exact ⟨f c, by rw [hl, if_pos rfl, hc]; rfl, hf c hx⟩
  · exact ⟨c, by rw [hl, if_neg he]; exact hc, hx⟩

theorem Evolves.dropToken (h : Evolves s t) :
    Evolves s (t.dropToken conn sub) where
  token conn' sub' owner ho := by
    rw [token_dropToken] at ho
    split at ho
    · cases ho
    · exact h.token conn' sub' owner ho
  cancelled conn' hs := cancelled_of_lookup_map
    (fun _ => lookup_dropToken) (fun _ hc => hc) (h.cancelled conn' hs)
  nextOwner := h.nextOwner
  frames := h.frames

theorem Evolves.putToken (h : Evolves s t) (hlive : ¬s.Cancelled conn) :
    Evolves s (t.putToken conn sub) where
  token conn' sub' owner ho := by
    rw [token_putToken] at ho
    split at ho
    · next hp =>
        obtain ⟨_, -, rfl⟩ := Option.map_eq_some_iff.1 ho
        rw [hp.1]
        exact .inr ⟨h.nextOwner, hlive⟩
    · exact h.token conn' sub' owner ho
  cancelled conn' hs := cancelled_of_lookup_map
    (fun _ => lookup_putToken) (fun _ hc => hc) (h.cancelled conn' hs)
  nextOwner := Nat.le_succ_of_le h.nextOwner
  frames := h.frames

theorem Evolves.cancelConn (h : Evolves s t) :
    Evolves s (t.cancelConn conn) where
  token conn' sub' owner ho := h.token conn' sub' owner (by
    rwa [token_cancelConn] at ho)
  cancelled conn' hs := cancelled_of_lookup_map
    (fun _ => lookup_cancelConn) (fun _ _ => rfl) (h.cancelled conn' hs)
  nextOwner := h.nextOwner
  frames := h.frames

theorem Evolves.send (h : Evolves s t)
    (ho : ∀ o, owner = some o → s.token conn sub = some o) :
    Evolves s (t.send conn sub kind owner queued) := by
  unfold AppState.send
  split
  · refine ⟨h.token, h.cancelled, h.nextOwner, ?_⟩
    obtain ⟨new, he, hnew⟩ := h.frames
    refine ⟨new ++ [⟨conn, sub, kind, owner, (t.subRegistry.entry conn sub).isSome⟩],
      by simp [he], fun f hf o hfo => ?_⟩
    rcases List.mem_append.1 hf with hf | hf
    · exact hnew f hf o hfo
    · rw [List.mem_singleton] at hf
      subst hf
      exact .inl (ho o hfo)
  · exact h

theorem Evolves.sendClosed (h : Evolves s t)
    (ho : ∀ o, owner = some o → s.token conn sub = some o) :
    Evolves s (t.sendClosed conn sub owner queued) := by
  unfold AppState.sendClosed
  split
  · exact h.send ho
  · exact (h.send ho).cancelConn

@[simp] theorem connections_releaseRemoved (c : CommunityId)
    (removed : Option RemovedSubscription) :
    (s.releaseRemoved c removed).connections = s.connections := by
  cases removed <;> rfl

@[simp] theorem nextOwner_releaseRemoved (c : CommunityId)
    (removed : Option RemovedSubscription) :
    (s.releaseRemoved c removed).nextOwner = s.nextOwner := by
  cases removed <;> rfl

@[simp] theorem frames_releaseRemoved (c : CommunityId)
    (removed : Option RemovedSubscription) :
    (s.releaseRemoved c removed).frames = s.frames := by
  cases removed <;> rfl

theorem Evolves.releaseRemoved (h : Evolves s t) (c : CommunityId)
    (removed : Option RemovedSubscription) :
    Evolves s (t.releaseRemoved c removed) :=
  h.congr (connections_releaseRemoved _ _) (nextOwner_releaseRemoved _ _)
    (frames_releaseRemoved _ _)

theorem Evolves.unregister (h : Evolves s t) (c : CommunityId) :
    Evolves s (t.unregister c conn sub) := by
  unfold AppState.unregister
  refine Evolves.releaseRemoved ?_ _ _
  exact h.congr rfl rfl rfl

theorem Evolves.retireLocked (h : Evolves s t) (c : ConnectionState) :
    Evolves s (t.retireLocked conn c sub) :=
  (h.dropToken.congr (u := (t.dropToken conn sub).removeSync conn sub)
    rfl rfl rfl).unregister _

theorem not_cancelled {c : ConnectionState}
    (hc : s.connections.lookup conn = some c) (h : ¬c.cancelled = true) :
    ¬s.Cancelled conn := by
  rintro ⟨c', hc', hx⟩
  rw [hc] at hc'
  cases hc'
  exact h hx

theorem evolves_evictUpdate (h : Evolves s t) (c : CommunityId) (ch : Uuid)
    (queued : SubId → Bool) (update : ChannelSubscriptionUpdate) :
    Evolves s (evictUpdate c ch conn queued t update) := by
  unfold evictUpdate
  have hrel : Evolves s ({ t with desiredTopics :=
      t.desiredTopics.releaseTopic ⟨c, .channel ch⟩ }.removeSync conn update.subId) :=
    h.congr rfl rfl rfl
  have hunreg : ∀ b : Bool, Evolves s (if b then
      ({ t with desiredTopics := t.desiredTopics.releaseTopic ⟨c, .channel ch⟩ }.removeSync
        conn update.subId).unregister c conn update.subId
      else { t with desiredTopics :=
        t.desiredTopics.releaseTopic ⟨c, .channel ch⟩ }.removeSync conn update.subId) := by
    intro b
    split
    · exact hrel.unregister _
    · exact hrel
  dsimp only
  split
  · exact (hunreg _).dropToken.sendClosed (by simp)
  · exact hunreg _

theorem evolves_apply (s : AppState) (sec : Section) : Evolves s (sec.apply s) := by
  have hrefl := Evolves.refl s
  cases sec with
  | connect conn c =>
      simp only [apply, connect]
      split
      · next hnone =>
          have hl : ∀ conn', (s.setConn conn { communityId := c }).connections.lookup
              conn' = if conn' = conn then some { communityId := c }
                else s.connections.lookup conn' :=
            fun _ => HMap.lookup_insert_ite _ _ _ _
          refine ⟨fun conn' sub owner ho => ?_, fun conn' hc => ?_, Nat.le_refl _,
            [], by simp [setConn]⟩
          · unfold token at ho
            rw [hl] at ho
            split at ho
            · simp at ho
            · exact .inl ho
          · obtain ⟨c', hc', hx⟩ := hc
            refine ⟨c', ?_, hx⟩
            rw [hl, if_neg]
            · exact hc'
            · rintro rfl
              rw [hnone] at hc'
              cases hc'
      · exact hrefl
  | cancel conn => exact hrefl.cancelConn
  | claimLive conn sub filters ids =>
      simp only [apply, claimLiveSubscription]
      split
      · exact hrefl
      · next c hc =>
          split
          · exact hrefl
          · next hlive =>
              have h : Evolves s (s.putToken conn sub) :=
                hrefl.putToken (not_cancelled hc hlive)
              refine Evolves.releaseRemoved ?_ _ _
              exact h.congr rfl rfl rfl
  | claimSearch conn sub =>
      simp only [apply, claimSearchSubscription]
      split
      · exact hrefl
      · next c hc =>
          split
          · exact hrefl
          · next hlive =>
              exact (hrefl.retireLocked c).putToken (not_cancelled hc hlive)
  | claimSync conn sub channels queued =>
      simp only [apply, claimSync]
      split
      · exact hrefl
      · next c hc =>
          split
          · exact hrefl
          · next hlive =>
              split
              · exact hrefl.sendClosed (by simp)
              · have h : Evolves s ((s.retireLocked conn c sub).putToken conn sub) :=
                  (hrefl.retireLocked c).putToken (not_cancelled hc hlive)
                exact h.congr rfl rfl rfl
  | checkCap conn sub queued =>
      simp only [apply, checkCap]
      split
      · exact hrefl
      · split
        · exact hrefl.sendClosed (by simp)
        · exact hrefl
  | refuse conn sub queued =>
      simp only [apply, refuse]
      split
      · exact hrefl
      · exact (hrefl.retireLocked _).sendClosed (by simp)
  | close conn sub queued =>
      simp only [apply, handleClose]
      split
      · exact hrefl
      · exact (hrefl.retireLocked _).send (by simp)
  | sendIfOwner conn sub owner frame queued =>
      simp only [apply, sendIfOwner]
      split
      · exact hrefl
      · next c hc =>
          split
          · next hown =>
              refine hrefl.send fun o ho => ?_
              cases ho
              rw [token, hc]
              exact hown
          · exact hrefl
  | closeIfOwner conn sub owner closed queued =>
      simp only [apply, closeIfOwner]
      split
      · exact hrefl
      · next c hc =>
          split
          · exact hrefl
          · next hown =>
              split
              · refine (hrefl.retireLocked _).sendClosed fun o ho => ?_
                cases ho
                rw [token, hc]
                exact not_not.1 hown
              · exact hrefl.retireLocked _
  | evict c ch conn queued =>
      simp only [apply, evictConnChannelSubscriptions]
      have hloop : ∀ (updates : List ChannelSubscriptionUpdate) (t : AppState),
          Evolves s t → Evolves s (updates.foldl (evictUpdate c ch conn queued) t) := by
        intro updates
        induction updates with
        | nil => intro t h; exact h
        | cons u us ih => intro t h; exact ih _ (evolves_evictUpdate h _ _ _ _)
      split
      · exact hrefl
      · exact hloop _ _ (hrefl.congr rfl rfl rfl)
  | release conn =>
      simp only [apply, releaseConnectionSubscriptions]
      have hloop : ∀ (removed : List RemovedSubscription) (c : CommunityId)
          (t : AppState), Evolves s t → Evolves s
            (removed.foldl (fun s removed => s.releaseRemoved c (some removed)) t) := by
        intro removed c
        induction removed with
        | nil => intro t h; exact h
        | cons x xs ih => intro t h; exact ih _ (h.releaseRemoved _ _)
      split
      · exact hrefl
      · next c hc =>
          split
          · exact hrefl
          · have hl : ∀ conn', (s.setConn conn { c with
                subscriptions := ∅ }).connections.lookup conn' =
                if conn' = conn then (s.connections.lookup conn).map fun c =>
                  { c with subscriptions := ∅ }
                else s.connections.lookup conn' := by
              intro conn'
              rw [hc]
              exact HMap.lookup_insert_ite _ _ _ _
            have hset : Evolves s (s.setConn conn { c with subscriptions := ∅ }) := by
              refine ⟨fun conn' sub owner ho => ?_, fun conn' h =>
                cancelled_of_lookup_map hl (fun _ hc => hc) h, Nat.le_refl _,
                [], by simp [setConn]⟩
              unfold token at ho
              rw [hl] at ho
              split at ho
              · rw [hc] at ho
                simp at ho
              · exact .inl ho
            exact hloop _ _ _ (hset.congr rfl rfl rfl)

theorem evolves_foldl (s : AppState) (secs : List Section) :
    Evolves s (secs.foldl apply s) := by
  induction secs generalizing s with
  | nil => exact Evolves.refl s
  | cons sec secs ih => exact (evolves_apply s sec).trans (ih _)

/-! ## Coherent states -/

/-- Coherence, except that `extra` retains of each topic are still to be
released. Only the eviction loop has any. -/
structure CoherentUpTo (extra : EventTopicKey → Nat) (s : AppState) : Prop where
  /-- A registered id is held in its connection's map. -/
  inMap : ∀ conn sub e, s.subRegistry.entry conn sub = some e →
    (s.token conn sub).isSome
  /-- Its scope is the connection's own, without repeats. -/
  owned : ∀ conn sub e, s.subRegistry.entry conn sub = some e →
    e.scope.channelIds.Nodup ∧
    ∃ c, s.connections.lookup conn = some c ∧ e.communityId = c.communityId
  refcount : ∀ key, s.desiredTopics.topicRefcount key =
    s.subRegistry.retainers key + extra key
  closed : ∀ f ∈ s.frames, f.kind = .closed → f.registered = false

abbrev Coherent (s : AppState) : Prop := CoherentUpTo (fun _ => 0) s

variable {extra : EventTopicKey → Nat} {c : CommunityId} {ch : Uuid}
  {update : ChannelSubscriptionUpdate}

theorem community_of_lookup_map {f : ConnectionState → ConnectionState}
    (hl : ∀ conn', t.connections.lookup conn' =
      if conn' = conn then (s.connections.lookup conn).map f
      else s.connections.lookup conn')
    (hf : ∀ c, (f c).communityId = c.communityId) {com : CommunityId}
    (h : ∃ c, s.connections.lookup conn' = some c ∧ com = c.communityId) :
    ∃ c, t.connections.lookup conn' = some c ∧ com = c.communityId := by
  obtain ⟨c, hc, rfl⟩ := h
  by_cases he : conn' = conn
  · subst he
    exact ⟨f c, by rw [hl, if_pos rfl, hc]; rfl, (hf c).symm⟩
  · exact ⟨c, by rw [hl, if_neg he]; exact hc, rfl⟩

theorem CoherentUpTo.community (h : CoherentUpTo extra s) {c : ConnectionState}
    (hc : s.connections.lookup conn = some c) {e : SubEntry}
    (he : s.subRegistry.entry conn sub = some e) :
    e.communityId = c.communityId ∧ e.scope.channelIds.Nodup := by
  obtain ⟨hnd, c', hc', hcom⟩ := h.owned conn sub e he
  rw [hc] at hc'
  cases hc'
  exact ⟨hcom, hnd⟩

/-- Dropping the token of an id that is not registered. -/
theorem CoherentUpTo.dropToken (h : CoherentUpTo extra s)
    (hnone : s.subRegistry.entry conn sub = none) :
    CoherentUpTo extra (s.dropToken conn sub) where
  inMap conn' sub' e he := by
    replace he : s.subRegistry.entry conn' sub' = some e := he
    rw [token_dropToken, if_neg]
    · exact h.inMap conn' sub' e he
    · rintro ⟨rfl, rfl⟩
      rw [hnone] at he
      cases he
  owned conn' sub' e he := ⟨(h.owned conn' sub' e he).1,
    community_of_lookup_map (fun _ => lookup_dropToken) (fun _ => rfl)
      (h.owned conn' sub' e he).2⟩
  refcount := h.refcount
  closed := h.closed

theorem CoherentUpTo.putToken (h : CoherentUpTo extra s) :
    CoherentUpTo extra (s.putToken conn sub) where
  inMap conn' sub' e he := by
    have hold := h.inMap conn' sub' e he
    rw [token_putToken]
    split
    · next hp =>
        obtain ⟨-, c, hc, -⟩ := h.owned conn' sub' e he
        rw [← hp.1, hc]
        rfl
    · exact hold
  owned conn' sub' e he := ⟨(h.owned conn' sub' e he).1,
    community_of_lookup_map (fun _ => lookup_putToken) (fun _ => rfl)
      (h.owned conn' sub' e he).2⟩
  refcount := h.refcount
  closed := h.closed

theorem CoherentUpTo.cancelConn (h : CoherentUpTo extra s) :
    CoherentUpTo extra (s.cancelConn conn) where
  inMap conn' sub' e he := by
    rw [token_cancelConn]
    exact h.inMap conn' sub' e he
  owned conn' sub' e he := ⟨(h.owned conn' sub' e he).1,
    community_of_lookup_map (fun _ => lookup_cancelConn) (fun _ => rfl)
      (h.owned conn' sub' e he).2⟩
  refcount := h.refcount
  closed := h.closed

theorem CoherentUpTo.removeSync (h : CoherentUpTo extra s) :
    CoherentUpTo extra (s.removeSync conn sub) :=
  ⟨h.inMap, h.owned, h.refcount, h.closed⟩

theorem CoherentUpTo.send (h : CoherentUpTo extra s)
    (hk : kind = .closed → s.subRegistry.entry conn sub = none) :
    CoherentUpTo extra (s.send conn sub kind owner queued) := by
  unfold AppState.send
  split
  · refine ⟨h.inMap, h.owned, h.refcount, fun f hf hkind => ?_⟩
    rcases List.mem_append.1 hf with hf | hf
    · exact h.closed f hf hkind
    · rw [List.mem_singleton] at hf
      subst hf
      simp [hk hkind]
  · exact h

theorem CoherentUpTo.sendClosed (h : CoherentUpTo extra s)
    (hnone : s.subRegistry.entry conn sub = none) :
    CoherentUpTo extra (s.sendClosed conn sub owner queued) := by
  unfold AppState.sendClosed
  split
  · exact h.send fun _ => hnone
  · exact (h.send fun _ => hnone).cancelConn

/-! ## Registering and unregistering -/

@[simp] theorem subRegistry_releaseRemoved (c : CommunityId)
    (removed : Option RemovedSubscription) :
    (s.releaseRemoved c removed).subRegistry = s.subRegistry := by
  cases removed <;> rfl

theorem refcount_releaseRemoved (c : CommunityId) (removed : Option SubEntry)
    (hown : ∀ e, removed = some e → e.communityId = c ∧ e.scope.channelIds.Nodup)
    (key : EventTopicKey) :
    (s.releaseRemoved c (removed.map SubEntry.removed)).desiredTopics.topicRefcount key =
      s.desiredTopics.topicRefcount key - removed.elim 0 (·.weight key) := by
  cases removed with
  | none => rfl
  | some e =>
      obtain ⟨rfl, hnd⟩ := hown e rfl
      rw [Option.elim_some, ← SubEntry.count_scopeTopics key hnd]
      exact refcount_foldl_releaseTopic _ _ _

theorem unregister_eq (c : CommunityId) :
    s.unregister c conn sub =
      { s with subRegistry := (s.subRegistry.removeSubscription conn sub).1 }.releaseRemoved
        c ((s.subRegistry.entry conn sub).map SubEntry.removed) := by
  rw [← removeSubscription_snd]
  rfl

@[simp] theorem connections_unregister (c : CommunityId) :
    (s.unregister c conn sub).connections = s.connections := by
  rw [unregister_eq]; simp

theorem entry_unregister (c : CommunityId) :
    (s.unregister c conn sub).subRegistry.entry conn' sub' =
      if conn' = conn ∧ sub' = sub then none
      else s.subRegistry.entry conn' sub' := by
  rw [unregister_eq, subRegistry_releaseRemoved]
  exact entry_removeSubscription

theorem CoherentUpTo.unregister (h : CoherentUpTo extra s) {c : ConnectionState}
    (hc : s.connections.lookup conn = some c) :
    CoherentUpTo extra (s.unregister c.communityId conn sub) where
  inMap conn' sub' e he := by
    rw [entry_unregister] at he
    split at he
    · cases he
    · unfold token
      rw [connections_unregister]
      exact h.inMap conn' sub' e he
  owned conn' sub' e he := by
    rw [entry_unregister] at he
    split at he
    · cases he
    · rw [connections_unregister]
      exact h.owned conn' sub' e he
  refcount key := by
    have hcount : (s.subRegistry.removeSubscription conn sub).1.retainers key +
      s.subRegistry.entryWeight conn sub key = _ := retainers_removeSubscription
    rw [unregister_eq, refcount_releaseRemoved _ _ fun e he => h.community hc he,
      subRegistry_releaseRemoved]
    show s.desiredTopics.topicRefcount key - _ =
      (s.subRegistry.removeSubscription conn sub).1.retainers key + _
    have := h.refcount key
    unfold entryWeight at hcount
    omega
  closed := by
    rw [unregister_eq, frames_releaseRemoved]
    exact h.closed

/-- Retiring in the source's order drops the token first; the parts of the
state are separate, so the order is not seen from outside. -/
theorem retireLocked_eq (c : ConnectionState) :
    s.retireLocked conn c sub =
      ((s.unregister c.communityId conn sub).dropToken conn sub).removeSync conn sub := by
  unfold retireLocked
  rw [unregister_eq, unregister_eq]
  show releaseRemoved _ _ ((s.subRegistry.entry conn sub).map _) = _
  cases s.subRegistry.entry conn sub <;> rfl

theorem entry_retireLocked (c : ConnectionState) :
    (s.retireLocked conn c sub).subRegistry.entry conn' sub' =
      if conn' = conn ∧ sub' = sub then none
      else s.subRegistry.entry conn' sub' := by
  rw [retireLocked_eq]
  exact entry_unregister _

theorem lookup_retireLocked (c : ConnectionState) :
    (s.retireLocked conn c sub).connections.lookup conn' =
      if conn' = conn then (s.connections.lookup conn).map fun c =>
        { c with subscriptions := c.subscriptions.erase sub }
      else s.connections.lookup conn' := by
  rw [retireLocked_eq]
  show ((s.unregister c.communityId conn sub).dropToken conn sub).connections.lookup
    conn' = _
  rw [lookup_dropToken, connections_unregister]

theorem CoherentUpTo.retireLocked (h : CoherentUpTo extra s)
    {c : ConnectionState} (hc : s.connections.lookup conn = some c) :
    CoherentUpTo extra (s.retireLocked conn c sub) := by
  rw [retireLocked_eq]
  refine ((h.unregister hc).dropToken ?_).removeSync
  rw [entry_unregister, if_pos ⟨rfl, rfl⟩]

/-- Registering a held id and retaining its topics, with the topics of the
scope it replaces released. -/
theorem CoherentUpTo.register (h : CoherentUpTo extra s) {c : ConnectionState}
    (hc : s.connections.lookup conn = some c)
    (htok : (s.token conn sub).isSome) (filters : List Filter)
    {scope : SubscriptionScope} (hnd : scope.channelIds.Nodup) :
    CoherentUpTo extra (({ s with subRegistry :=
        (s.subRegistry.registerWithScope c.communityId conn sub filters scope).1
      }.retainTopics (scopeTopics c.communityId scope)).releaseRemoved c.communityId
        ((s.subRegistry.entry conn sub).map SubEntry.removed)) where
  inMap conn' sub' e he := by
    rw [subRegistry_releaseRemoved] at he
    have he := (entry_registerWithScope c.communityId filters scope).symm.trans he
    unfold token
    rw [connections_releaseRemoved]
    split at he
    · next hp => rw [hp.1, hp.2]; exact htok
    · exact h.inMap conn' sub' e he
  owned conn' sub' e he := by
    rw [subRegistry_releaseRemoved] at he
    have he := (entry_registerWithScope c.communityId filters scope).symm.trans he
    rw [connections_releaseRemoved]
    split at he
    · next hp =>
        cases he
        exact ⟨hnd, c, by rw [hp.1]; exact hc, rfl⟩
    · exact h.owned conn' sub' e he
  refcount key := by
    have hcount : (s.subRegistry.registerWithScope c.communityId conn sub filters
        scope).1.retainers key + s.subRegistry.entryWeight conn sub key = _ :=
      retainers_registerWithScope c.communityId filters scope
    have hnew : (scopeTopics c.communityId scope).count key =
        SubEntry.weight key ⟨filters, c.communityId, scope⟩ :=
      @SubEntry.count_scopeTopics ⟨filters, c.communityId, scope⟩ key hnd
    have hret : (s.retainTopics
        (scopeTopics c.communityId scope)).desiredTopics.topicRefcount key = _ :=
      refcount_foldl_retainTopic _ _ _
    rw [refcount_releaseRemoved _ _ fun e he => h.community hc he,
      subRegistry_releaseRemoved]
    show (s.retainTopics _).desiredTopics.topicRefcount key - _ =
      (s.subRegistry.registerWithScope _ _ _ _ _).1.retainers key + _
    have := h.refcount key
    unfold entryWeight at hcount
    omega
  closed := by
    rw [frames_releaseRemoved]
    exact h.closed

/-! ## Eviction -/

@[simp] theorem subRegistry_send :
    (s.send conn sub kind owner queued).subRegistry = s.subRegistry := by
  unfold send; split <;> rfl

@[simp] theorem connections_send :
    (s.send conn sub kind owner queued).connections = s.connections := by
  unfold send; split <;> rfl

@[simp] theorem subRegistry_sendClosed :
    (s.sendClosed conn sub owner queued).subRegistry = s.subRegistry := by
  unfold sendClosed
  split
  · exact subRegistry_send
  · exact subRegistry_send

/-- The connection is known and belongs to the community. -/
def ConnOf (s : AppState) (conn : ConnId) (c : CommunityId) : Prop :=
  ∃ cs, s.connections.lookup conn = some cs ∧ c = cs.communityId

theorem ConnOf.dropToken (h : s.ConnOf conn c) :
    (s.dropToken conn' sub).ConnOf conn c :=
  community_of_lookup_map (fun _ => lookup_dropToken) (fun _ => rfl) h

theorem ConnOf.sendClosed (h : s.ConnOf conn c) :
    (s.sendClosed conn' sub owner queued).ConnOf conn c := by
  unfold AppState.sendClosed
  have hsend : (s.send conn' sub .closed owner queued).ConnOf conn c := by
    unfold ConnOf
    rw [connections_send]
    exact h
  split
  · exact hsend
  · exact community_of_lookup_map (fun _ => lookup_cancelConn) (fun _ => rfl) hsend

/-- The part of one eviction round before the token is dropped. -/
def evictRegistry (c : CommunityId) (ch : Uuid) (conn : ConnId)
    (s : AppState) (update : ChannelSubscriptionUpdate) : AppState :=
  let s' := { s with desiredTopics :=
    s.desiredTopics.releaseTopic ⟨c, .channel ch⟩ }.removeSync conn update.subId
  if s.artifactSyncs.contains (conn, update.subId) && !update.removed then
    s'.unregister c conn update.subId
  else s'

theorem evictUpdate_eq (c : CommunityId) (ch : Uuid) (queued : SubId → Bool)
    (update : ChannelSubscriptionUpdate) :
    evictUpdate c ch conn queued s update =
      if update.removed || s.artifactSyncs.contains (conn, update.subId) then
        ((evictRegistry c ch conn s update).dropToken conn update.subId).sendClosed
          conn update.subId none (queued update.subId)
      else evictRegistry c ch conn s update := rfl

/-- The retains of the revoked topic that the rounds to come release. -/
def pendingReleases (c : CommunityId) (ch : Uuid) (n : Nat)
    (key : EventTopicKey) : Nat :=
  if key = ⟨c, .channel ch⟩ then n else 0

theorem coherent_evictRegistry {n : Nat}
    (hs : CoherentUpTo (pendingReleases c ch (n + 1)) s) (hc : s.ConnOf conn c) :
    CoherentUpTo (pendingReleases c ch n) (evictRegistry c ch conn s update) := by
  have hrel : CoherentUpTo (pendingReleases c ch n)
      ({ s with
        desiredTopics := s.desiredTopics.releaseTopic ⟨c, .channel ch⟩
      }.removeSync conn update.subId) := by
    refine ⟨hs.inMap, hs.owned, fun key => ?_, hs.closed⟩
    show (s.desiredTopics.releaseTopic _).topicRefcount key = s.subRegistry.retainers key + _
    rw [refcount_releaseTopic, hs.refcount]
    unfold pendingReleases
    split
    · omega
    · omega
  obtain ⟨cs, hcs, rfl⟩ := hc
  unfold evictRegistry
  split
  · exact hrel.unregister hcs
  · exact hrel

theorem connOf_evictRegistry {c' : CommunityId} (hc : s.ConnOf conn' c') :
    (evictRegistry c ch conn s update).ConnOf conn' c' := by
  unfold evictRegistry ConnOf
  split
  · rw [connections_unregister]; exact hc
  · exact hc

theorem entry_evictRegistry (h : s.subRegistry.entry conn' sub' = none) :
    (evictRegistry c ch conn s update).subRegistry.entry conn' sub' = none := by
  unfold evictRegistry
  split
  · rw [entry_unregister]
    split
    · rfl
    · exact h
  · exact h

/-- Where a round ends the subscription, its entry is gone by then. -/
theorem entry_evictRegistry_self
    (hrem : update.removed = true → s.subRegistry.entry conn update.subId = none)
    (hend : (update.removed || s.artifactSyncs.contains (conn, update.subId)) = true) :
    (evictRegistry c ch conn s update).subRegistry.entry conn update.subId = none := by
  cases hr : update.removed with
  | true => exact entry_evictRegistry (hrem hr)
  | false =>
      rw [hr, Bool.false_or] at hend
      unfold evictRegistry
      rw [if_pos (by rw [hend, hr]; rfl), entry_unregister, if_pos ⟨rfl, rfl⟩]

theorem coherent_foldl_evictUpdate {queued : SubId → Bool}
    {updates : List ChannelSubscriptionUpdate}
    (hs : CoherentUpTo (pendingReleases c ch updates.length) s)
    (hc : s.ConnOf conn c)
    (hrem : ∀ u ∈ updates, u.removed = true →
      s.subRegistry.entry conn u.subId = none) :
    Coherent (updates.foldl (evictUpdate c ch conn queued) s) := by
  induction updates generalizing s with
  | nil =>
      refine ⟨hs.inMap, hs.owned, fun key => ?_, hs.closed⟩
      have := hs.refcount key
      simpa [pendingReleases] using this
  | cons u us ih =>
      have hreg : CoherentUpTo (pendingReleases c ch us.length)
        (evictRegistry c ch conn s u) := coherent_evictRegistry hs hc
      have hrest : ∀ u' ∈ us, u'.removed = true →
          (evictRegistry c ch conn s u).subRegistry.entry conn u'.subId = none :=
        fun u' hu' hr => entry_evictRegistry (hrem u' (List.mem_cons_of_mem _ hu') hr)
      rw [List.foldl_cons, evictUpdate_eq]
      split
      · next hend =>
          have hgone : (evictRegistry c ch conn s u).subRegistry.entry conn
              u.subId = none :=
            entry_evictRegistry_self (hrem u List.mem_cons_self) hend
          refine ih ((hreg.dropToken hgone).sendClosed hgone)
            (connOf_evictRegistry hc).dropToken.sendClosed fun u' hu' hr => ?_
          rw [subRegistry_sendClosed]
          exact hrest u' hu' hr
      · exact ih hreg (connOf_evictRegistry hc) hrest

section

variable (hs : Coherent s)
include hs

theorem coherent_evict (c : CommunityId) (ch : Uuid) (queued : SubId → Bool) :
    Coherent (s.evictConnChannelSubscriptions c ch conn queued) := by
  unfold evictConnChannelSubscriptions
  split
  · exact hs
  · next cs hcs =>
      have hnd : (s.subRegistry.channelSubIds c conn ch).Nodup := nodup_channelSubIds
      obtain ⟨hlen, hret, -, hupd⟩ := narrowSubs_spec hnd reached_channelSubIds
      clear hnd
      generalize hids : s.subRegistry.channelSubIds c conn ch = ids at *
      show Coherent ((s.subRegistry.removeChannelSubscriptionsScoped c conn ch).2.foldl
        (evictUpdate c ch conn queued) { s with subRegistry :=
          (s.subRegistry.removeChannelSubscriptionsScoped c conn ch).1 })
      unfold removeChannelSubscriptionsScoped
      rw [hids]
      -- Without a collected id there is nothing to do.
      cases hu : (narrowSubs c conn ch s.subRegistry ids).2 with
      | nil =>
          rw [hu, List.length_nil] at hlen
          have : ids = [] := List.length_eq_zero_iff.1 hlen.symm
          subst this
          exact hs
      | cons u us =>
          rw [← hu]
          have hmem : u.subId ∈ ids := (hupd u (by rw [hu]; exact List.mem_cons_self)).1
          have hcom : s.ConnOf conn c := by
            rw [← hids] at hmem
            obtain ⟨e, _, he, rfl, -⟩ := reached_channelSubIds _ hmem
            exact ⟨cs, hcs, (hs.community hcs he).1⟩
          refine coherent_foldl_evictUpdate ?_ hcom fun u hu => (hupd u hu).2
          refine ⟨fun conn' sub' e he => ?_, fun conn' sub' e he => ?_,
            fun key => ?_, hs.closed⟩
          · obtain ⟨e₀, he₀, -⟩ := entry_narrowSubs he
            exact hs.inMap conn' sub' e₀ he₀
          · obtain ⟨e₀, he₀, hcom₀, hsub⟩ := entry_narrowSubs he
            obtain ⟨hnd, c₀, hc₀, heq⟩ := hs.owned conn' sub' e₀ he₀
            exact ⟨hnd.sublist hsub, c₀, hc₀, hcom₀.trans heq⟩
          · have h₁ := hs.refcount key
            have h₂ := hret key
            rw [hlen]
            show s.desiredTopics.topicRefcount key =
              (narrowSubs c conn ch s.subRegistry ids).1.retainers key +
                pendingReleases c ch _ key
            unfold pendingReleases
            omega

/-! ## Final cleanup -/

theorem coherent_release :
    Coherent (s.releaseConnectionSubscriptions conn) := by
  unfold releaseConnectionSubscriptions
  split
  · exact hs
  · next c hc =>
      split
      · exact hs
      · -- The releases that are left, as the loop takes them one by one.
        have hloop : ∀ (removed : List RemovedSubscription) (t : AppState),
            (∀ x ∈ removed, x.communityId = c.communityId ∧
              x.scope.channelIds.Nodup) →
            CoherentUpTo (fun key => (removed.map (removedWeight key)).sum) t →
            Coherent (removed.foldl
              (fun s removed => s.releaseRemoved c.communityId (some removed)) t) := by
          intro removed
          induction removed with
          | nil => intro t _ ht; exact ht
          | cons x xs ih =>
              intro t hx ht
              refine ih _ (fun y hy => hx y (List.mem_cons_of_mem _ hy))
                ⟨ht.inMap, ht.owned, fun key => ?_, ht.closed⟩
              obtain ⟨hcom, hnd⟩ := hx x List.mem_cons_self
              have hcount : (scopeTopics c.communityId x.scope).count key =
                  removedWeight key x := by
                rw [← hcom]
                exact @SubEntry.count_scopeTopics ⟨[], x.communityId, x.scope⟩ key hnd
              have href : (t.releaseRemoved c.communityId (some x)).desiredTopics.topicRefcount
                  key = _ := refcount_foldl_releaseTopic _ _ _
              have := ht.refcount key
              rw [List.map_cons, List.sum_cons] at this
              rw [href, hcount]
              show _ = t.subRegistry.retainers key + _
              omega
        have hentry : ∀ conn' sub' e,
            (s.subRegistry.removeConnection conn).1.entry conn' sub' = some e →
            conn' ≠ conn ∧ s.subRegistry.entry conn' sub' = some e := by
          intro conn' sub' e he
          rw [entry_removeConnection] at he
          split at he
          · cases he
          · next hne => exact ⟨hne, he⟩
        have hlookup : ∀ conn', conn' ≠ conn →
            (s.setConn conn { c with subscriptions := ∅ }).connections.lookup conn' =
              s.connections.lookup conn' := fun conn' hne => by
          rw [setConn, HMap.lookup_insert_ite, if_neg hne]
        refine hloop _ _ (fun x hx => ?_) ⟨fun conn' sub' e he => ?_,
          fun conn' sub' e he => ?_, fun key => ?_, hs.closed⟩
        · obtain ⟨sub, e, he, rfl⟩ := removeConnection_snd hx
          exact hs.community hc he
        · obtain ⟨hne, he⟩ := hentry conn' sub' e he
          unfold token
          rw [hlookup conn' hne]
          exact hs.inMap conn' sub' e he
        · obtain ⟨hne, he⟩ := hentry conn' sub' e he
          rw [hlookup conn' hne]
          exact hs.owned conn' sub' e he
        · have hcount : (s.subRegistry.removeConnection conn).1.retainers key + _ = _ :=
            retainers_removeConnection
          have := hs.refcount key
          show s.desiredTopics.topicRefcount key =
            (s.subRegistry.removeConnection conn).1.retainers key +
              ((s.subRegistry.removeConnection conn).2.map (removedWeight key)).sum
          omega

/-! ## Every section keeps coherence -/

omit hs in
theorem coherent_empty : Coherent ({} : AppState) where
  inMap _ _ _ h := nomatch h
  owned _ _ _ h := nomatch h
  refcount _ := rfl
  closed _ h := nomatch h

theorem coherent_claimLive (filters : List Filter)
    (ids : Option (BTreeSet Uuid)) :
    Coherent (s.claimLiveSubscription conn sub filters ids) := by
  unfold claimLiveSubscription
  split
  · exact hs
  · next c hc =>
      split
      · exact hs
      · have hput : Coherent ((s.putToken conn sub).removeSync conn sub) :=
          hs.putToken.removeSync
        have hlook : (s.putToken conn sub).connections.lookup conn = some
            { c with subscriptions := c.subscriptions.insert sub s.nextOwner } := by
          rw [lookup_putToken, if_pos rfl, hc]; rfl
        have htok : ((s.putToken conn sub).token conn sub).isSome := by
          rw [token_putToken, if_pos ⟨rfl, rfl⟩, hc]; rfl
        have hreg : ∀ scope : SubscriptionScope, scope.channelIds.Nodup → _ :=
          fun _ hnd => hput.register hlook htok filters hnd
        cases ids with
        | some ids =>
            have := hreg (.channels ids.elems) ids.nodup
            rwa [← registerWithScope_snd c.communityId filters (.channels ids.elems)] at this
        | none =>
            have := hreg .global List.nodup_nil
            rwa [← registerWithScope_snd c.communityId filters .global] at this

/-- An id that is not in the map is not registered either. -/
theorem entry_none_of_atCap {c : ConnectionState}
    (hc : s.connections.lookup conn = some c) (hcap : atCap c sub = true) :
    s.subRegistry.entry conn sub = none := by
  refine Option.eq_none_iff_forall_ne_some.2 fun e he => ?_
  have htok := hs.inMap conn sub e he
  simp only [atCap, Bool.and_eq_true] at hcap
  unfold token at htok
  rw [hc, Option.bind_some, Option.isSome_iff_ne_none] at htok
  exact htok (Option.isNone_iff_eq_none.1 hcap.1)

theorem coherent_claimSync (channels : BTreeSet Uuid) (queued : Bool) :
    Coherent (s.claimSync conn sub channels queued) := by
  unfold claimSync
  split
  · exact hs
  · next c hc =>
      split
      · exact hs
      · split
        · next hcap => exact hs.sendClosed (entry_none_of_atCap hs hc hcap)
        · have hput : Coherent ((s.retireLocked conn c sub).putToken conn sub) :=
            (hs.retireLocked hc).putToken
          generalize hu : (s.retireLocked conn c sub).putToken conn sub = u at *
          have hlook : u.connections.lookup conn = some { c with
              subscriptions := (c.subscriptions.erase sub).insert sub
                (s.retireLocked conn c sub).nextOwner } := by
            rw [← hu, lookup_putToken, if_pos rfl, lookup_retireLocked, if_pos rfl, hc]
            rfl
          have htok : (u.token conn sub).isSome := by
            rw [← hu, token_putToken, if_pos ⟨rfl, rfl⟩, lookup_retireLocked,
              if_pos rfl, hc]
            rfl
          have hgone : u.subRegistry.entry conn sub = none := by
            rw [← hu]
            exact (entry_retireLocked c).trans (if_pos ⟨rfl, rfl⟩)
          have hsync : Coherent { u with artifactSyncs := (conn, sub) :: u.artifactSyncs } :=
            ⟨hput.inMap, hput.owned, hput.refcount, hput.closed⟩
          have hnd : (SubscriptionScope.channels channels.elems).channelIds.Nodup :=
            channels.nodup
          have := hsync.register hlook htok [liveFilter channels] hnd
          rw [hgone] at this
          exact this

theorem coherent_apply (sec : Section) :
    Coherent (sec.apply s) := by
  cases sec with
  | connect conn c =>
      simp only [apply, connect]
      split
      · next hnone =>
          have hne : ∀ conn' sub e, s.subRegistry.entry conn' sub = some e →
              conn' ≠ conn := by
            rintro conn' sub e he rfl
            obtain ⟨-, c', hc', -⟩ := hs.owned _ sub e he
            rw [hnone] at hc'
            cases hc'
          have hl : ∀ conn', conn' ≠ conn →
              (s.setConn conn { communityId := c }).connections.lookup conn' =
                s.connections.lookup conn' := fun conn' h => by
            rw [setConn, HMap.lookup_insert_ite, if_neg h]
          refine ⟨fun conn' sub e he => ?_, fun conn' sub e he => ?_, hs.refcount,
            hs.closed⟩
          · unfold token
            rw [hl conn' (hne conn' sub e he)]
            exact hs.inMap conn' sub e he
          · rw [hl conn' (hne conn' sub e he)]
            exact hs.owned conn' sub e he
      · exact hs
  | cancel conn => exact hs.cancelConn
  | claimLive => exact coherent_claimLive hs _ _
  | claimSearch conn sub =>
      simp only [apply, claimSearchSubscription]
      split
      · exact hs
      · next c hc =>
          split
          · exact hs
          · exact (hs.retireLocked hc).putToken
  | claimSync => exact coherent_claimSync hs _ _
  | checkCap conn sub queued =>
      simp only [apply, checkCap]
      split
      · exact hs
      · next c hc =>
          split
          · next hcap => exact hs.sendClosed (entry_none_of_atCap hs hc hcap)
          · exact hs
  | refuse conn sub queued =>
      simp only [apply, refuse]
      split
      · exact hs
      · next c hc =>
          exact (hs.retireLocked hc).sendClosed
            ((entry_retireLocked c).trans (if_pos ⟨rfl, rfl⟩))
  | close conn sub queued =>
      simp only [apply, handleClose]
      split
      · exact hs
      · next c hc =>
          exact (hs.retireLocked hc).send fun _ =>
            (entry_retireLocked c).trans (if_pos ⟨rfl, rfl⟩)
  | sendIfOwner conn sub owner frame queued =>
      simp only [apply, sendIfOwner]
      split
      · exact hs
      · split
        · exact hs.send fun h => by cases h
        · exact hs
  | closeIfOwner conn sub owner closed queued =>
      simp only [apply, closeIfOwner]
      split
      · exact hs
      · next c hc =>
          split
          · exact hs
          · split
            · exact (hs.retireLocked hc).sendClosed
                ((entry_retireLocked c).trans (if_pos ⟨rfl, rfl⟩))
            · exact hs.retireLocked hc
  | evict => exact coherent_evict hs _ _ _
  | release => exact coherent_release hs

theorem coherent_foldl (secs : List Section) :
    Coherent (secs.foldl apply s) := by
  induction secs generalizing s with
  | nil => exact hs
  | cons sec secs ih => exact ih (coherent_apply hs sec)

end

/-! ## After the final cleanup -/

/-- Cleanup leaves a cancelled connection without tokens. -/
theorem token_release (hc : s.Cancelled conn) (sub : SubId) :
    (s.releaseConnectionSubscriptions conn).token conn sub = none := by
  have hfold : ∀ (removed : List RemovedSubscription) (c : CommunityId)
      (t : AppState), (removed.foldl (fun s removed =>
        s.releaseRemoved c (some removed)) t).connections = t.connections := by
    intro removed c
    induction removed with
    | nil => intro t; rfl
    | cons x xs ih => intro t; rw [List.foldl_cons, ih, connections_releaseRemoved]
  obtain ⟨c, hl, hx⟩ := hc
  unfold token releaseConnectionSubscriptions
  simp only [hl, hx, Bool.not_true, Bool.false_eq_true, if_false]
  rw [hfold]
  show ((s.setConn conn { communityId := c.communityId, cancelled := true
    }).connections.lookup conn).bind _ = _
  rw [setConn, HMap.lookup_insert_ite, if_pos rfl]
  rfl

/-- A cancelled connection never gets a token it does not hold. -/
theorem Evolves.token_none (h : Evolves s t) (hc : s.Cancelled conn)
    (hnone : s.token conn sub = none) : t.token conn sub = none := by
  cases ht : t.token conn sub with
  | none => rfl
  | some owner =>
      rcases h.token conn sub owner ht with h | ⟨-, h⟩
      · rw [hnone] at h; cases h
      · exact absurd hc h

/-! ## Losing an id -/

/-- A token that is gone never comes back: later claims use fresh ones. -/
theorem Evolves.token_lost (h : Evolves s t) {owner : Nat} (hlt : owner < s.nextOwner)
    (hlost : s.token conn sub ≠ some owner) : t.token conn sub ≠ some owner := by
  intro ht
  rcases h.token conn sub owner ht with hs | ⟨hle, -⟩
  · exact hlost hs
  · omega

/-- The sections that take an id from the request that holds it: a later
claim, a refusal, a `CLOSE`, the relay's own close, and an eviction that ends
the subscription. -/
def Ends (s : AppState) (conn : ConnId) (sub : SubId) : Section → Prop
  | .claimLive conn' sub' _ _ | .claimSearch conn' sub' =>
      conn' = conn ∧ sub' = sub ∧ ¬s.Cancelled conn
  | .claimSync conn' sub' _ _ =>
      conn' = conn ∧ sub' = sub ∧ ¬s.Cancelled conn ∧
        ∀ c, s.connections.lookup conn = some c → atCap c sub = false
  | .refuse conn' sub' _ | .close conn' sub' _ => conn' = conn ∧ sub' = sub
  | .closeIfOwner conn' sub' owner _ _ =>
      conn' = conn ∧ sub' = sub ∧ s.token conn sub = some owner
  | .evict c ch conn' _ =>
      conn' = conn ∧ ∃ u ∈ (s.subRegistry.removeChannelSubscriptionsScoped c conn ch).2,
        u.subId = sub ∧ (u.removed = true ∨ (conn, sub) ∈ s.artifactSyncs)
  | _ => False

theorem token_sendClosed :
    (s.sendClosed conn sub owner queued).token conn' sub' = s.token conn' sub' := by
  have hsend : (s.send conn sub .closed owner queued).token conn' sub' =
      s.token conn' sub' := by
    unfold token
    rw [connections_send]
  unfold sendClosed
  split
  · exact hsend
  · rw [token_cancelConn, hsend]

theorem token_retireLocked (c : ConnectionState) :
    (s.retireLocked conn c sub).token conn sub = none := by
  rw [retireLocked_eq]
  show ((s.unregister c.communityId conn sub).dropToken conn sub).token conn sub = _
  rw [token_dropToken, if_pos ⟨rfl, rfl⟩]

/-- An eviction round ends its subscription when nothing of it is left or it
is a sync. -/
theorem token_evictUpdate {queued : SubId → Bool}
    {u : ChannelSubscriptionUpdate}
    (hend : u.removed = true ∨ (conn, u.subId) ∈ s.artifactSyncs) :
    (evictUpdate c ch conn queued s u).token conn u.subId = none := by
  have hb : (u.removed || s.artifactSyncs.contains (conn, u.subId)) = true := by
    simpa using hend
  rw [evictUpdate_eq, if_pos hb, token_sendClosed, token_dropToken, if_pos ⟨rfl, rfl⟩]

theorem artifactSyncs_evictUpdate {queued : SubId → Bool}
    {u : ChannelSubscriptionUpdate} (hne : u.subId ≠ sub)
    (hmem : (conn, sub) ∈ s.artifactSyncs) :
    (conn, sub) ∈ (evictUpdate c ch conn queued s u).artifactSyncs := by
  have hreg : (conn, sub) ∈ (evictRegistry c ch conn s u).artifactSyncs := by
    have hkeep : (conn, sub) ∈ s.artifactSyncs.filter (· != (conn, u.subId)) := by
      refine List.mem_filter.2 ⟨hmem, ?_⟩
      simpa using fun h => hne h.symm
    unfold evictRegistry
    split
    · rw [unregister_eq]
      unfold releaseRemoved
      split
      · exact hkeep
      · exact hkeep
    · exact hkeep
  rw [evictUpdate_eq]
  split
  · unfold sendClosed send
    split
    · exact hreg
    · exact hreg
  · exact hreg

theorem token_foldl_evictUpdate {queued : SubId → Bool} {owner : Nat}
    (updates : List ChannelSubscriptionUpdate) (hlt : owner < s.nextOwner)
    (hend : ∃ u ∈ updates, u.subId = sub ∧
      (u.removed = true ∨ (conn, sub) ∈ s.artifactSyncs)) :
    (updates.foldl (evictUpdate c ch conn queued) s).token conn sub ≠ some owner := by
  have hfold : ∀ (us : List ChannelSubscriptionUpdate) (s : AppState),
      Evolves s (us.foldl (evictUpdate c ch conn queued) s) := by
    intro us
    induction us with
    | nil => exact Evolves.refl
    | cons u us ih =>
        intro s
        exact (evolves_evictUpdate (Evolves.refl s) c ch queued u).trans (ih _)
  induction updates generalizing s with
  | nil => simp at hend
  | cons v us ih =>
      have hround : Evolves s (evictUpdate c ch conn queued s v) :=
        evolves_evictUpdate (Evolves.refl s) c ch queued v
      have hlt' := Nat.lt_of_lt_of_le hlt hround.nextOwner
      rw [List.foldl_cons]
      by_cases hv : v.subId = sub ∧ (v.removed = true ∨ (conn, sub) ∈ s.artifactSyncs)
      · obtain ⟨rfl, hv⟩ := hv
        refine (hfold us _).token_lost hlt' ?_
        rw [token_evictUpdate hv]
        simp
      · refine ih hlt' ?_
        obtain ⟨u, hu, hsub, hu'⟩ := hend
        rcases List.mem_cons.1 hu with rfl | hmem
        · exact absurd ⟨hsub, hu'⟩ hv
        · refine ⟨u, hmem, hsub, hu'.imp_right fun hsync => ?_⟩
          exact artifactSyncs_evictUpdate (fun h => hv ⟨h, .inr hsync⟩) hsync

theorem lookup_claimLive {c : ConnectionState}
    (hc : s.connections.lookup conn = some c) (hlive : c.cancelled = false)
    (sub : SubId) (filters : List Filter) (ids : Option (BTreeSet Uuid)) :
    (s.claimLiveSubscription conn sub filters ids).connections.lookup conn =
      some { c with subscriptions := c.subscriptions.insert sub s.nextOwner } := by
  unfold claimLiveSubscription
  rw [hc]
  dsimp only
  rw [if_neg (by rw [hlive]; exact Bool.false_ne_true), connections_releaseRemoved]
  show (s.putToken conn sub).connections.lookup conn = _
  rw [lookup_putToken, if_pos rfl, hc]
  rfl

theorem token_of_lookup_none (hc : s.connections.lookup conn = none) :
    s.token conn sub = none := by
  rw [token, hc]
  rfl

theorem token_of_ends {sec : Section} (h : Ends s conn sub sec) {owner : Nat}
    (hlt : owner < s.nextOwner) : (sec.apply s).token conn sub ≠ some owner := by
  have hlive : ∀ {c}, s.connections.lookup conn = some c → ¬s.Cancelled conn →
      c.cancelled = false := by
    intro c hc hx
    rw [← Bool.not_eq_true]
    exact fun hcan => hx ⟨c, hc, hcan⟩
  have hput : ∀ {t : AppState} {c}, t.connections.lookup conn = some c →
      s.nextOwner ≤ t.nextOwner → (t.putToken conn sub).token conn sub ≠ some owner := by
    intro t c hc hle
    rw [token_putToken, if_pos ⟨rfl, rfl⟩, hc]
    intro heq
    have : t.nextOwner = owner := Option.some.inj heq
    omega
  have hretired : ∀ {c}, s.connections.lookup conn = some c →
      (∃ c', (s.retireLocked conn c sub).connections.lookup conn = some c') ∧
        s.nextOwner ≤ (s.retireLocked conn c sub).nextOwner := by
    intro c hc
    refine ⟨⟨{ c with subscriptions := c.subscriptions.erase sub }, ?_⟩,
      ((Evolves.refl s).retireLocked c).nextOwner⟩
    rw [lookup_retireLocked, if_pos rfl, hc]
    rfl
  cases sec with
  | claimLive conn' sub' filters ids =>
      obtain ⟨rfl, rfl, hx⟩ := h
      cases hc : s.connections.lookup conn' with
      | none => simp [apply, claimLiveSubscription, hc, token_of_lookup_none hc]
      | some c =>
          simp only [apply]
          rw [token, lookup_claimLive hc (hlive hc hx), Option.bind_some]
          simp only [HMap.lookup_insert_ite, if_true]
          intro heq
          cases heq
          omega
  | claimSearch conn' sub' =>
      obtain ⟨rfl, rfl, hx⟩ := h
      cases hc : s.connections.lookup conn' with
      | none => simp [apply, claimSearchSubscription, hc, token_of_lookup_none hc]
      | some c =>
          obtain ⟨⟨c', hc'⟩, hle⟩ := hretired hc
          simp only [apply, claimSearchSubscription, hc, hlive hc hx,
            Bool.false_eq_true, if_false]
          exact hput hc' hle
  | claimSync conn' sub' channels queued =>
      obtain ⟨rfl, rfl, hx, hcap⟩ := h
      cases hc : s.connections.lookup conn' with
      | none => simp [apply, claimSync, hc, token_of_lookup_none hc]
      | some c =>
          obtain ⟨⟨c', hc'⟩, hle⟩ := hretired hc
          simp only [apply, claimSync, hc, hlive hc hx, hcap c hc,
            Bool.false_eq_true, if_false]
          exact hput hc' hle
  | refuse conn' sub' queued =>
      obtain ⟨rfl, rfl⟩ := h
      cases hc : s.connections.lookup conn' with
      | none => simp [apply, refuse, hc, token_of_lookup_none hc]
      | some c =>
          simp [apply, refuse, hc, token_sendClosed, token_retireLocked]
  | close conn' sub' queued =>
      obtain ⟨rfl, rfl⟩ := h
      cases hc : s.connections.lookup conn' with
      | none => simp [apply, handleClose, hc, token_of_lookup_none hc]
      | some c =>
          simp only [apply, handleClose, hc]
          rw [token, connections_send, ← token, token_retireLocked]
          simp
  | closeIfOwner conn' sub' owner' closed queued =>
      obtain ⟨rfl, rfl, htok⟩ := h
      cases hc : s.connections.lookup conn' with
      | none => simp [apply, closeIfOwner, hc, token_of_lookup_none hc]
      | some c =>
          rw [token, hc, Option.bind_some] at htok
          simp only [apply, closeIfOwner, hc, htok, ne_eq,
            not_true_eq_false, if_false]
          split
          · rw [token_sendClosed, token_retireLocked]; simp
          · rw [token_retireLocked]; simp
  | evict c ch conn' queued =>
      obtain ⟨rfl, hend⟩ := h
      cases hc : s.connections.lookup conn' with
      | none =>
          simp [apply, evictConnChannelSubscriptions, hc, token_of_lookup_none hc]
      | some cs =>
          simp only [apply, evictConnChannelSubscriptions, hc]
          exact token_foldl_evictUpdate _ hlt hend
  | connect | cancel | checkCap | sendIfOwner | release => exact h.elim

/-- The lifecycle is coherent in every interleaving of critical sections.
`s` is any reachable state and `t` any later one: registered ids are in
their connection's map and refcounts count the registered subscriptions; a
request that no longer holds its id queues nothing more, and a later claim, a
close or an eviction takes the id from it; every `CLOSED` was queued with its
id unregistered; and once a closing connection has been cleaned up, it never
again has a registry entry, a map token or a retained topic. -/
theorem lifecycle_coherent (earlier later : List Section) :
    let s := earlier.foldl apply ({} : AppState)
    let t := later.foldl apply s
    (∀ conn sub e, s.subRegistry.entry conn sub = some e →
      ∃ c, s.connections.lookup conn = some c ∧ sub ∈ c.subscriptions) ∧
    (∀ key, s.desiredTopics.topicRefcount key = s.subRegistry.retainers key) ∧
    (∀ conn sub owner, owner < s.nextOwner → s.token conn sub ≠ some owner →
      ∀ f ∈ t.frames.drop s.frames.length,
        ¬(f.conn = conn ∧ f.sub = sub ∧ f.owner = some owner)) ∧
    (∀ conn sub owner sec, owner < s.nextOwner → Ends s conn sub sec →
      let e := apply s sec
      ∀ f ∈ (later.foldl apply e).frames.drop e.frames.length,
        ¬(f.conn = conn ∧ f.sub = sub ∧ f.owner = some owner)) ∧
    (∀ f ∈ s.frames, f.kind = .closed → f.registered = false) ∧
    (∀ conn, s.Cancelled conn →
      let u := later.foldl apply (apply s (.release conn))
      (∀ sub, u.token conn sub = none) ∧
      (∀ sub, u.subRegistry.entry conn sub = none) ∧
      ∀ key, (u.subRegistry.subs.lookup conn).elim 0
        (connRetainers · key) = 0) := by
  intro s t
  have hs : Coherent s := coherent_foldl coherent_empty earlier
  have hst : Evolves s t := evolves_foldl s later
  have hquiet : ∀ (u v : AppState), Evolves u v → ∀ conn sub owner, owner < u.nextOwner →
      u.token conn sub ≠ some owner → ∀ f ∈ v.frames.drop u.frames.length,
        ¬(f.conn = conn ∧ f.sub = sub ∧ f.owner = some owner) := by
    rintro u v huv conn sub owner hlt hlost f hf ⟨rfl, rfl, ho⟩
    obtain ⟨new, hnew, hown⟩ := huv.frames
    rw [hnew, List.drop_left] at hf
    rcases hown f hf owner ho with h | h
    · exact hlost h
    · omega
  refine ⟨fun conn sub e he => ?_, hs.refcount, hquiet s t hst,
    fun conn sub owner sec hlt hends => ?_, hs.closed, fun conn hc => ?_⟩
  · obtain ⟨-, c, hc, -⟩ := hs.owned conn sub e he
    have htok := hs.inMap conn sub e he
    rw [token, hc] at htok
    exact ⟨c, hc, AList.lookup_isSome.1 htok⟩
  · have hle := (evolves_apply s sec).nextOwner
    exact hquiet _ _ (evolves_foldl _ later) conn sub owner (by omega)
      (token_of_ends hends hlt)
  · intro u
    have hrel : Coherent (apply s (.release conn)) := coherent_apply hs _
    have hu : Coherent u := coherent_foldl hrel later
    have hcan : (apply s (.release conn)).Cancelled conn :=
      (evolves_apply s _).cancelled conn hc
    have htok : ∀ sub, u.token conn sub = none := fun sub =>
      (evolves_foldl _ later).token_none hcan (token_release hc sub)
    have hent : ∀ sub, u.subRegistry.entry conn sub = none := by
      intro sub
      refine Option.eq_none_iff_forall_ne_some.2 fun e he => ?_
      have := hu.inMap conn sub e he
      rw [htok sub] at this
      cases this
    refine ⟨htok, hent, fun key => ?_⟩
    cases hm : u.subRegistry.subs.lookup conn with
    | none => rfl
    | some m =>
        have hempty : m.entries = [] := by
          refine List.eq_nil_iff_forall_not_mem.2 fun x hx => ?_
          have hx := HMap.mem_entries_iff.1 (show ⟨x.1, x.2⟩ ∈ m.entries from hx)
          have := hent x.1
          rw [entry, hm, Option.bind_some, hx] at this
          cases this
        show (m.entries.map _).sum = 0
        rw [hempty]
        rfl

end AppState

end Buzz.Relay
