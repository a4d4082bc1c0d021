import Buzz.Waker.Cursor

/-!
# The cursor never steps over an unfinished mention

The checkpoint is a minimum, so everything here is about what bounds it from
above. A claimed event bounds it by itself. A mention that nothing has claimed
bounds it in one of two ways: under a replay by the pin, which is the
checkpoint the replay was asked from, and outside one by time, because the
feed was current when the checkpoint rose, so the newest event it can have
risen to was accepted at most a recovery delay after the mention. The drift
enters twice, once for either event, and the sum of the three is the overlap.

A restarted process has nothing in memory. It changes no checkpoint before it
resumes, and from then on the pin stands in for what it lost.
-/

namespace Buzz.Waker

open Buzz.Lib CursorStore

variable {s s' : CursorStore} {w : WakerState}

/-! ## The low-water mark -/

theorem mem_unfinished {v : Nat} :
    v ∈ s.unfinished ↔ (∃ id, s.inFlight.lookup id = some v) ∨
      (∃ id, s.abandoned.lookup id = some v) ∨ s.replayPin = some v := by
  have hvalues : ∀ m : HMap String Nat, v ∈ m.entries.map (·.2) ↔ ∃ id, m.lookup id = some v := by
    intro m
    rw [List.mem_map]
    constructor
    · rintro ⟨⟨id, v'⟩, hmem, rfl⟩
      exact ⟨id, HMap.mem_entries_iff.1 hmem⟩
    · rintro ⟨id, hid⟩
      exact ⟨⟨id, v⟩, HMap.mem_entries_iff.2 hid, rfl⟩
  unfold unfinished
  rw [List.mem_append, List.mem_append, hvalues, hvalues, Option.mem_toList, or_assoc]

theorem computeCheckpointWith_le (highWater : Nat) :
    s.computeCheckpointWith highWater ≤ highWater := by
  unfold computeCheckpointWith
  split
  · exact Nat.min_le_right _ _
  · exact Nat.le_refl _

theorem computeCheckpointWith_le_of_mem {highWater v : Nat} (h : v ∈ s.unfinished) :
    s.computeCheckpointWith highWater ≤ v := by
  unfold computeCheckpointWith
  split
  · next oldest hmin =>
      have hle : oldest ≤ v := (List.min?_eq_some_iff.1 hmin).2 v h
      omega
  · next hnone =>
      rw [List.min?_eq_none_iff] at hnone
      rw [hnone] at h
      cases h

theorem sinceSecs_resume (s : CursorStore) (now : Nat) :
    (s.resume now).2.sinceSecs = s.state.checkpointSecs - reconnectOverlapSecs := by
  unfold resume
  dsimp only
  split
  · rfl
  · rfl

/-! ## The invariant -/

/-- The process claims this event under this date. -/
def Claims (s : CursorStore) (id : String) (createdAt : Nat) : Prop :=
  s.inFlight.lookup id = some createdAt ∨ s.abandoned.lookup id = some createdAt

/-- A mention still to be seen: nothing completed it and the process does not
hold it. -/
structure Unseen (accepted : List Accepted) (finished : List String) (s : CursorStore)
    (e : Accepted) : Prop where
  mem : e ∈ accepted
  mention : e.isMention = true
  unfinished : e.id ∉ finished
  unclaimed : ∀ createdAt, ¬ Claims s e.id createdAt

/-- What keeps the checkpoint below the mentions still to be seen: the pin of a
replay, or the time the feed was current through. -/
def Held (accepted : List Accepted) (finished : List String) (heard : Nat) (s : CursorStore) :
    Prop :=
  match s.replayPin with
  | some pin => pin ≤ heard + maxTimestampDriftSecs ∧
      ∀ e, Unseen accepted finished s e → pin ≤ e.createdAt + reconnectOverlapSecs
  | none => ∀ e, Unseen accepted finished s e →
      heard ≤ e.acceptedAt + wakeRecoveryDelayBudgetSecs

/-- The cursor as a process has it. -/
structure StoreSound (accepted : List Accepted) (heard : Nat) (s : CursorStore) : Prop where
  low : ∀ v ∈ s.unfinished, s.state.checkpointSecs ≤ v
  known : ∀ id createdAt, Claims s id createdAt → ∃ e ∈ accepted, e.id = id ∧
    e.createdAt = createdAt ∧ e.acceptedAt ≤ heard

/-- The cursor as the file has it. -/
structure FileSound (accepted : List Accepted) (finished : List String) (heard : Nat)
    (c : Cursor) : Prop where
  low : c.checkpointSecs ≤ c.highWaterSecs
  high : c.highWaterSecs ≤ heard + maxTimestampDriftSecs
  covered : ∀ e ∈ accepted, e.isMention = true → e.id ∉ finished →
    c.checkpointSecs ≤ e.createdAt + reconnectOverlapSecs

/-- What the relay accepted, each id once and dated within the drift. -/
structure RelaySound (accepted : List Accepted) (now : Nat) : Prop where
  ids : (accepted.map (·.id)).Nodup
  past : ∀ e ∈ accepted, e.acceptedAt ≤ now
  ahead : ∀ e ∈ accepted, e.createdAt ≤ e.acceptedAt + maxTimestampDriftSecs
  behind : ∀ e ∈ accepted, e.acceptedAt ≤ e.createdAt + maxTimestampDriftSecs

/-- The cursor on disk and the one in memory leave out nothing the relay has
accepted and the waker has not finished. -/
structure CursorInv (w : WakerState) : Prop where
  relay : RelaySound w.accepted w.now
  heard : w.heard ≤ w.now
  file : ∀ c, w.file = some c → FileSound w.accepted w.finished w.heard c
  synced : ∀ s, w.process = some s → w.file = some s.state
  store : ∀ s, w.process = some s → StoreSound w.accepted w.heard s
  held : ∀ s, w.process = some s → w.resumed = true → Held w.accepted w.finished w.heard s
  idle : ∀ s, w.process = some s → w.resumed = false →
    s.replayPin = none ∧ ∀ id createdAt, ¬ Claims s id createdAt
  online : w.connected = true → w.process ≠ none ∧ w.resumed = true ∧ w.heard = w.now
  replay : ∀ since, w.replaying = some since →
    (∃ c, w.file = some c ∧ c.checkpointSecs - reconnectOverlapSecs ≤ since) ∧
    ∀ s, w.process = some s → w.resumed = true →
      ∃ pin, s.replayPin = some pin ∧ pin - reconnectOverlapSecs ≤ since

/-! ## What holds a checkpoint down -/

theorem mem_unfinished_of_claims {id : String} {createdAt : Nat} (h : Claims s id createdAt) :
    createdAt ∈ s.unfinished := by
  rcases h with h | h
  · exact mem_unfinished.2 (.inl ⟨id, h⟩)
  · exact mem_unfinished.2 (.inr (.inl ⟨id, h⟩))

section Covered

variable {accepted : List Accepted} {finished : List String} {heard now : Nat}

theorem RelaySound.eq_of_id (h : RelaySound accepted now) {e e' : Accepted} (he : e ∈ accepted)
    (he' : e' ∈ accepted) (hid : e.id = e'.id) : e = e' :=
  List.inj_on_of_nodup_map h.ids he he' hid

/-- A checkpoint at the low-water mark of a held store covers every mention. -/
theorem covered_of_held (hrelay : RelaySound accepted now)
    (hstore : StoreSound accepted heard s) (hheld : Held accepted finished heard s)
    (hlow : s.state.checkpointSecs ≤ s.state.highWaterSecs)
    (hhigh : s.state.highWaterSecs ≤ heard + maxTimestampDriftSecs) {e : Accepted}
    (he : e ∈ accepted) (hmention : e.isMention = true) (hunfinished : e.id ∉ finished) :
    s.state.checkpointSecs ≤ e.createdAt + reconnectOverlapSecs := by
  by_cases hclaimed : ∃ createdAt, Claims s e.id createdAt
  · obtain ⟨createdAt, hclaimed⟩ := hclaimed
    obtain ⟨e', he', hid, hdate, -⟩ := hstore.known e.id createdAt hclaimed
    have hsame := hrelay.eq_of_id he' he hid
    subst hsame
    have hbelow := hstore.low createdAt (mem_unfinished_of_claims hclaimed)
    omega
  · have hunseen : Unseen accepted finished s e :=
      ⟨he, hmention, hunfinished, fun createdAt h => hclaimed ⟨createdAt, h⟩⟩
    have hbehind := hrelay.behind e he
    unfold Held at hheld
    cases hpin : s.replayPin with
    | some pin =>
        rw [hpin] at hheld
        have hbelow := hstore.low pin (mem_unfinished.2 (.inr (.inr hpin)))
        have hpinned := hheld.2 e hunseen
        omega
    | none =>
        rw [hpin] at hheld
        have hrecent := hheld e hunseen
        unfold reconnectOverlapSecs
        omega

end Covered

/-- A store that holds no less than before holds the same mentions down. -/
theorem Held.mono {accepted : List Accepted} {finished finished' : List String} {heard : Nat}
    (h : Held accepted finished heard s) (hpin : s'.replayPin = s.replayPin)
    (hunseen : ∀ e, Unseen accepted finished' s' e → Unseen accepted finished s e) :
    Held accepted finished' heard s' := by
  unfold Held at h ⊢
  rw [hpin]
  split
  · next pin hsome =>
      rw [hsome] at h
      exact ⟨h.1, fun e he => h.2 e (hunseen e he)⟩
  · next hnone =>
      rw [hnone] at h
      exact fun e he => h e (hunseen e he)

/-! ## A method of the store -/

namespace CursorInv

/-- The process wrote a new low-water mark. -/
theorem update (h : CursorInv w) {finished : List String} {replaying : Option Nat}
    (hknown : ∀ id createdAt, Claims s' id createdAt → ∃ e ∈ w.accepted, e.id = id ∧
      e.createdAt = createdAt ∧ e.acceptedAt ≤ w.heard)
    (hcheck : s'.state.checkpointSecs = s'.computeCheckpointWith s'.state.highWaterSecs)
    (hhigh : s'.state.highWaterSecs ≤ w.heard + maxTimestampDriftSecs)
    (hresumed : w.resumed = true) (hheld : Held w.accepted finished w.heard s')
    (hreplay : ∀ since, replaying = some since →
      ∃ pin, s'.replayPin = some pin ∧ pin - reconnectOverlapSecs ≤ since) :
    CursorInv { w with
      process := some s', file := some s'.state, finished := finished,
      replaying := replaying } := by
  have hlow : s'.state.checkpointSecs ≤ s'.state.highWaterSecs :=
    hcheck ▸ computeCheckpointWith_le _
  have hstore : StoreSound w.accepted w.heard s' :=
    ⟨fun v hv => hcheck ▸ computeCheckpointWith_le_of_mem hv, hknown⟩
  refine ⟨h.relay, h.heard, ?_, ?_, ?_, ?_, ?_, ?_, ?_⟩
  · rintro c ⟨⟩
    exact ⟨hlow, hhigh, fun e he hmention hunfinished =>
      covered_of_held h.relay hstore hheld hlow hhigh he hmention hunfinished⟩
  · rintro _ ⟨⟩
    rfl
  · rintro _ ⟨⟩
    exact hstore
  · rintro _ ⟨⟩ -
    exact hheld
  · intro _ _ hidle
    rw [show w.resumed = false from hidle] at hresumed
    cases hresumed
  · intro hconnected
    exact ⟨nofun, (h.online hconnected).2⟩
  · intro since hsince
    obtain ⟨pin, hpin, hle⟩ := hreplay since hsince
    refine ⟨⟨_, rfl, ?_⟩, ?_⟩
    · have hbelow := hstore.low pin (mem_unfinished.2 (.inr (.inr hpin)))
      omega
    · rintro _ ⟨⟩ -
      exact ⟨pin, hpin, hle⟩

/-- The process is as it was, but for what no resume looks at. -/
theorem same (h : CursorInv w) (hs : w.process = some s)
    (hcheck : s'.state.checkpointSecs = s.state.checkpointSecs)
    (hhigh : s'.state.highWaterSecs = s.state.highWaterSecs)
    (hpin : s'.replayPin = s.replayPin)
    (hclaims : ∀ id createdAt, Claims s' id createdAt ↔ Claims s id createdAt) :
    CursorInv { w with process := some s', file := some s'.state } := by
  have hunseen : ∀ e, Unseen w.accepted w.finished s' e → Unseen w.accepted w.finished s e :=
    fun e he => ⟨he.mem, he.mention, he.unfinished,
      fun createdAt hclaimed => he.unclaimed createdAt ((hclaims _ _).2 hclaimed)⟩
  have hfile := h.file _ (h.synced s hs)
  have hstore := h.store s hs
  refine ⟨h.relay, h.heard, ?_, ?_, ?_, ?_, ?_, ?_, ?_⟩
  · rintro c ⟨⟩
    refine ⟨?_, hhigh ▸ hfile.high, ?_⟩
    · rw [hcheck, hhigh]
      exact hfile.low
    · intro e he hmention hunfinished
      rw [hcheck]
      exact hfile.covered e he hmention hunfinished
  · rintro _ ⟨⟩
    rfl
  · rintro _ ⟨⟩
    refine ⟨?_, ?_⟩
    · intro v hv
      rw [hcheck]
      refine hstore.low v ?_
      rcases mem_unfinished.1 hv with ⟨id, hid⟩ | ⟨id, hid⟩ | hsome
      · exact mem_unfinished_of_claims ((hclaims id v).1 (.inl hid))
      · exact mem_unfinished_of_claims ((hclaims id v).1 (.inr hid))
      · exact mem_unfinished.2 (.inr (.inr (hpin.symm.trans hsome)))
    · intro id createdAt hclaimed
      exact hstore.known id createdAt ((hclaims id createdAt).1 hclaimed)
  · rintro _ ⟨⟩ hresumed
    exact (h.held s hs hresumed).mono hpin hunseen
  · rintro _ ⟨⟩ hidle
    obtain ⟨hnone, hunclaimed⟩ := h.idle s hs hidle
    exact ⟨hpin.trans hnone, fun id createdAt hclaimed =>
      hunclaimed id createdAt ((hclaims id createdAt).1 hclaimed)⟩
  · intro hconnected
    exact ⟨nofun, (h.online hconnected).2⟩
  · intro since hsince
    obtain ⟨⟨c, hc, hle⟩, hproc⟩ := h.replay since hsince
    refine ⟨⟨_, rfl, ?_⟩, ?_⟩
    · rw [hcheck, ← Option.some.inj (hc.symm.trans (h.synced s hs))]
      exact hle
    · rintro _ ⟨⟩ hresumed
      rw [hpin]
      exact hproc s hs hresumed

/-- What a method wrote is what the store then has. -/
theorem afterReply_eq (h : CursorInv w) (hs : w.process = some s) {α : Type}
    {reply : Reply α}
    (hsync : reply.written = some reply.store.state ∨
      (reply.written = none ∧ reply.store.state = s.state)) :
    w.afterReply reply =
      { w with process := some reply.store, file := some reply.store.state } := by
  unfold WakerState.afterReply
  rcases hsync with hwritten | ⟨hnone, hstate⟩
  · rw [hwritten, Option.some_or]
  · rw [hnone, Option.none_or, h.synced s hs, hstate]

/-- A method that failed put the store back. -/
theorem put_back (h : CursorInv w) (hs : w.process = some s) (hstate : s'.state = s.state)
    (hpin : s'.replayPin = s.replayPin)
    (hclaims : ∀ id createdAt, Claims s' id createdAt ↔ Claims s id createdAt) {α : Type}
    (result : Except CursorError α) : CursorInv (w.afterReply ⟨s', none, result⟩) := by
  rw [h.afterReply_eq hs (.inr ⟨rfl, hstate⟩)]
  exact h.same hs (by rw [hstate]) (by rw [hstate]) hpin hclaims

variable {createdAt : Nat}

theorem resumed_of_claims (h : CursorInv w) (hs : w.process = some s)
    {id : String} (hclaimed : Claims s id createdAt) : w.resumed = true := by
  cases hresumed : w.resumed with
  | true => rfl
  | false => exact absurd hclaimed ((h.idle s hs hresumed).2 id createdAt)

/-! ### `admit` -/

variable {id' : String} {createdAt' : Nat}

theorem claims_admitEvent {id : String} {state : Cursor} :
    Claims { s with
      state := state
      abandoned := s.abandoned.erase id
      inFlight := s.inFlight.insert id createdAt } id' createdAt' ↔
      (id' = id ∧ createdAt' = createdAt) ∨ (id' ≠ id ∧ Claims s id' createdAt') := by
  unfold Claims
  dsimp only
  rw [HMap.lookup_insert_ite, HMap.lookup_erase_ite]
  by_cases hid : id' = id
  · simp [hid, eq_comm]
  · simp [hid]

theorem claims_admitEvent_failed {id : String}
    (hfresh : s.inFlight.lookup id = none) :
    Claims { s with
      abandoned := (s.abandoned.lookup id).elim (s.abandoned.erase id)
        fun was => (s.abandoned.erase id).insert id was
      inFlight := (s.inFlight.insert id createdAt).erase id } id' createdAt' ↔
      Claims s id' createdAt' := by
  unfold Claims
  dsimp only
  rw [HMap.lookup_erase_ite, HMap.lookup_insert_ite]
  cases hprev : s.abandoned.lookup id with
  | none =>
      dsimp only [Option.elim]
      rw [HMap.lookup_erase_ite]
      by_cases hid : id' = id
      · subst hid
        simp [hfresh, hprev]
      · simp [hid]
  | some was =>
      dsimp only [Option.elim]
      rw [HMap.lookup_insert_ite, HMap.lookup_erase_ite]
      by_cases hid : id' = id
      · subst hid
        simp [hfresh, hprev]
      · simp [hid]

section

variable (h : CursorInv w)
include h

theorem admitEvent (id : String) (durable : Bool) :
    CursorInv (w.admitEvent id durable) := by
  unfold WakerState.admitEvent
  split
  · next s e hs hconnected hfind =>
      obtain ⟨-, hresumed, hheard⟩ := h.online hconnected
      have hmem : e ∈ w.accepted := List.mem_of_find?_eq_some hfind
      unfold CursorStore.admitEvent
      split
      · exact h.put_back hs rfl rfl (fun _ _ => Iff.rfl) _
      next hdup =>
      have hfresh : s.inFlight.lookup e.id = none := by
        simp only [isDuplicate, Bool.or_eq_true, not_or] at hdup
        simpa using hdup.1
      -- An id has one date, so the claim keeps it over a retry.
      have hdate : (s.abandoned.lookup e.id).elim e.createdAt (fun was => min was e.createdAt) =
          e.createdAt := by
        cases hprev : s.abandoned.lookup e.id with
        | none => rfl
        | some was =>
            obtain ⟨e', he', hid, hwas, -⟩ := (h.store s hs).known e.id was (.inr hprev)
            rw [h.relay.eq_of_id he' hmem hid] at hwas
            rw [← hwas]
            exact Nat.min_self _
      dsimp only
      rw [hdate]
      cases durable with
      | false =>
          unfold persistOr
          rw [if_neg Bool.false_ne_true]
          refine h.put_back hs ?_ ?_ (fun _ _ => claims_admitEvent_failed hfresh) _
          · rfl
          · rfl
      | true =>
          unfold persistOr
          rw [if_pos rfl, h.afterReply_eq hs (.inl rfl)]
          refine h.update ?_ rfl (h.file _ (h.synced s hs)).high hresumed
            ((h.held s hs hresumed).mono rfl ?_) ?_
          · intro id' createdAt' hclaimed
            rcases claims_admitEvent.1 hclaimed with ⟨rfl, rfl⟩ | ⟨-, hold⟩
            · exact ⟨e, hmem, rfl, rfl, hheard ▸ h.relay.past e hmem⟩
            · exact (h.store s hs).known id' createdAt' hold
          · intro e' he'
            refine ⟨he'.mem, he'.mention, he'.unfinished, ?_⟩
            intro createdAt' hold
            by_cases hid : e'.id = e.id
            · exact he'.unclaimed e.createdAt (claims_admitEvent.2 (.inl ⟨hid, rfl⟩))
            · exact he'.unclaimed createdAt' (claims_admitEvent.2 (.inr ⟨hid, hold⟩))
          · intro since hsince
            exact (h.replay since hsince).2 s hs hresumed
  · exact h

/-! ### `complete` and `abandon` -/

/-- `complete` of a claim that was taken out of its set. -/
theorem finish (hs : w.process = some s) {id : String}
    (hclaimed : Claims s id createdAt) {released failed : CursorStore}
    (hreleased : released.replayPin = s.replayPin)
    (hless : ∀ id' createdAt', Claims released id' createdAt' → Claims s id' createdAt')
    (hkeep : ∀ id' createdAt', id' ≠ id → Claims s id' createdAt' → Claims released id' createdAt')
    (hstate : failed.state = s.state) (hpin : failed.replayPin = s.replayPin)
    (hclaims : ∀ id' createdAt', Claims failed id' createdAt' ↔ Claims s id' createdAt')
    (durable : Bool) :
    CursorInv { w.afterReply (s.finish durable id createdAt released failed) with
      finished := if (s.finish durable id createdAt released failed).result.toBool
        then w.finished ++ [id] else w.finished } := by
  unfold CursorStore.finish CursorStore.persistOr
  cases durable with
  | false =>
      have hback := h.put_back hs hstate hpin hclaims
        (.error .persist : Except CursorError Unit)
      exact hback
  | true =>
      have hresumed := h.resumed_of_claims hs hclaimed
      obtain ⟨e, hmem, -, hdate, hheard⟩ := (h.store s hs).known id createdAt hclaimed
      have hahead := h.relay.ahead e hmem
      have hhigh := (h.file _ (h.synced s hs)).high
      dsimp only
      rw [if_pos rfl, h.afterReply_eq hs (.inl rfl)]
      refine h.update ?_ rfl ?_ hresumed ((h.held s hs hresumed).mono hreleased ?_) ?_
      · intro id' createdAt' hafter
        exact (h.store s hs).known id' createdAt' (hless id' createdAt' hafter)
      · show max s.state.highWaterSecs createdAt ≤ _
        omega
      · intro e' he'
        have hne : e'.id ∉ w.finished ++ [id] := he'.unfinished
        rw [List.mem_append, List.mem_singleton, not_or] at hne
        refine ⟨he'.mem, he'.mention, hne.1, ?_⟩
        intro createdAt' hold
        exact he'.unclaimed createdAt' (hkeep e'.id createdAt' hne.2 hold)
      · intro since hsince
        obtain ⟨pin, hsome, hle⟩ := (h.replay since hsince).2 s hs hresumed
        exact ⟨pin, hreleased.trans hsome, hle⟩

omit h in
/-- Taking a claim out and putting it back changes no claim. -/
theorem lookup_put_back {m : HMap String Nat} {id : String}
    (h : m.lookup id = some createdAt) (id' : String) :
    ((m.erase id).insert id createdAt).lookup id' = m.lookup id' := by
  rw [HMap.lookup_insert_ite, HMap.lookup_erase_ite]
  by_cases hid : id' = id
  · subst hid
    simp [h]
  · simp [hid]

omit h in
theorem lookup_of_erase {m : HMap String Nat} {id : String}
    (h : (m.erase id).lookup id' = some createdAt) :
    m.lookup id' = some createdAt := by
  rw [HMap.lookup_erase_ite] at h
  split at h
  · cases h
  · exact h

theorem complete (id : String) (durable : Bool) :
    CursorInv (w.complete id durable) := by
  unfold WakerState.complete
  split
  · exact h
  next s hs =>
  dsimp only
  unfold CursorStore.complete
  split
  · exact h.put_back hs rfl rfl (fun _ _ => Iff.rfl) _
  · next createdAt hfound =>
      refine h.finish hs (.inl hfound) ?_ ?_ ?_ ?_ ?_ ?_ durable
      · rfl
      · intro id' createdAt' hclaimed
        exact hclaimed.imp_left lookup_of_erase
      · intro id' createdAt' hid hclaimed
        refine hclaimed.imp_left fun hlookup => ?_
        rw [HMap.lookup_erase_ite, if_neg hid]
        exact hlookup
      · rfl
      · rfl
      · intro id' createdAt'
        unfold Claims
        dsimp only
        rw [lookup_put_back hfound]
  · next createdAt hnone hfound =>
      refine h.finish hs (.inr hfound) ?_ ?_ ?_ ?_ ?_ ?_ durable
      · rfl
      · intro id' createdAt' hclaimed
        exact hclaimed.imp_right lookup_of_erase
      · intro id' createdAt' hid hclaimed
        refine hclaimed.imp_right fun hlookup => ?_
        rw [HMap.lookup_erase_ite, if_neg hid]
        exact hlookup
      · rfl
      · rfl
      · intro id' createdAt'
        unfold Claims
        dsimp only
        rw [lookup_put_back hfound]

/-- One id is claimed under one date. -/
theorem claims_unique (hs : w.process = some s) {id : String}
    (hone : Claims s id createdAt) (hother : Claims s id createdAt') :
    createdAt = createdAt' := by
  obtain ⟨e, he, hid, rfl, -⟩ := (h.store s hs).known id createdAt hone
  obtain ⟨e', he', hid', rfl, -⟩ := (h.store s hs).known id createdAt' hother
  rw [h.relay.eq_of_id he he' (hid.trans hid'.symm)]

theorem claims_abandon (hs : w.process = some s) (id id' : String)
    (createdAt' : Nat) :
    Claims (s.abandon id) id' createdAt' ↔ Claims s id' createdAt' := by
  unfold abandon
  split
  · next createdAt hfound =>
      have hat : Claims { s with
          inFlight := s.inFlight.erase id
          abandoned := s.abandoned.insert id createdAt } id' createdAt' ↔
          (if id' = id then createdAt = createdAt' else Claims s id' createdAt') := by
        unfold Claims
        dsimp only
        rw [HMap.lookup_insert_ite, HMap.lookup_erase_ite]
        by_cases hid : id' = id
        · simp [hid]
        · simp [hid]
      rw [hat]
      split
      · next hid =>
          subst hid
          constructor
          · rintro rfl
            exact .inl hfound
          · exact h.claims_unique hs (.inl hfound)
      · exact Iff.rfl
  · exact Iff.rfl

theorem abandon (id : String) : CursorInv (w.step (.abandon id)) := by
  cases hs : w.process with
  | none =>
      have hsame : w.step (.abandon id) = w := by
        show { w with process := w.process.map _ } = w
        rw [hs, Option.map_none, ← hs]
      rw [hsame]
      exact h
  | some s =>
      have hkept : (s.abandon id).state = s.state ∧ (s.abandon id).replayPin = s.replayPin := by
        unfold CursorStore.abandon
        split
        · exact ⟨rfl, rfl⟩
        · exact ⟨rfl, rfl⟩
      have hback := h.put_back hs hkept.1 hkept.2 (h.claims_abandon hs id) (.ok () : Except _ Unit)
      have hsame : w.step (.abandon id) = w.afterReply ⟨s.abandon id, none, .ok ()⟩ := by
        show { w with process := w.process.map _ } = { w with process := _, file := _ }
        rw [hs, Option.none_or]
        rfl
      rw [hsame]
      exact hback

/-! ### The rest of the store -/

theorem markCovered (durable : Bool) :
    CursorInv (w.step (.markCovered durable)) := by
  unfold WakerState.step
  dsimp only
  split
  · next s hs =>
      unfold CursorStore.markCovered
      split
      · exact h.put_back hs rfl rfl (fun _ _ => Iff.rfl) _
      · cases durable with
        | false => exact h.put_back hs rfl rfl (fun _ _ => Iff.rfl) _
        | true =>
            unfold persistOr
            rw [if_pos rfl, h.afterReply_eq hs (.inl rfl)]
            exact h.same hs rfl rfl rfl fun _ _ => Iff.rfl
  · exact h

/-- No replay is open any more. -/
theorem ended : CursorInv { w with replaying := none } :=
  ⟨h.relay, h.heard, h.file, h.synced, h.store, h.held, h.idle, h.online, nofun⟩

omit h in
/-- What the deliveries are assumed to have left unseen is recent. -/
theorem recent_of_allRecent {now : Nat} (hall : w.allRecent now = true)
    (hs : w.process = some s) {e : Accepted} (he : Unseen w.accepted w.finished s e) :
    now ≤ e.acceptedAt + wakeRecoveryDelayBudgetSecs := by
  unfold WakerState.allRecent at hall
  have hone := List.all_eq_true.1 hall e he.mem
  have hunclaimed : w.isClaimed e.id = false := by
    unfold WakerState.isClaimed
    rw [hs, Option.any_some, Bool.or_eq_false_iff]
    constructor
    · cases hlookup : s.inFlight.lookup e.id with
      | none => rfl
      | some createdAt => exact absurd (.inl hlookup) (he.unclaimed createdAt)
    · cases hlookup : s.abandoned.lookup e.id with
      | none => rfl
      | some createdAt => exact absurd (.inr hlookup) (he.unclaimed createdAt)
  simpa [he.mention, he.unfinished, hunclaimed] using hone

theorem endReplay (durable : Bool) (hm : w.assumed (.endReplay durable) = true) :
    CursorInv (w.endReplay durable) := by
  unfold WakerState.endReplay
  split
  · next s hs hconnected =>
      obtain ⟨-, hresumed, hheard⟩ := h.online hconnected
      dsimp only
      unfold CursorStore.endReplay
      split
      · exact (h.put_back hs rfl rfl (fun _ _ => Iff.rfl) _).ended
      next hpin =>
      cases durable with
      | false =>
          exact h.put_back hs rfl rfl (fun _ _ => Iff.rfl) (.error .persist : Except _ Unit)
      | true =>
          unfold persistOr
          rw [if_pos rfl, h.afterReply_eq hs (.inl rfl)]
          refine h.update (h.store s hs).known rfl (h.file _ (h.synced s hs)).high hresumed ?_ nofun
          show ∀ e, _ → _
          intro e he
          rw [hheard]
          exact recent_of_allRecent hm hs
            ⟨he.mem, he.mention, he.unfinished, he.unclaimed⟩
  · exact h

/-! ### The process and the feed -/

theorem resume : CursorInv w.resume := by
  unfold WakerState.resume
  split
  · next s hs hconnected =>
      have hfile := h.file _ (h.synced s hs)
      have hheard := h.heard
      refine ⟨h.relay, Nat.le_refl _, ?_, ?_, ?_, ?_, nofun, ?_, ?_⟩
      · intro c hc
        have hold := h.file c hc
        exact ⟨hold.low, hold.high.trans (Nat.add_le_add_right hheard _), hold.covered⟩
      · rintro _ ⟨⟩
        exact h.synced s hs
      · rintro _ ⟨⟩
        refine ⟨?_, ?_⟩
        · intro v hv
          rcases mem_unfinished.1 hv with hclaimed | hclaimed | hpin
          · exact (h.store s hs).low v (mem_unfinished.2 (.inl hclaimed))
          · exact (h.store s hs).low v (mem_unfinished.2 (.inr (.inl hclaimed)))
          · exact (Option.some.inj hpin).le
        · intro id createdAt hclaimed
          obtain ⟨e, he, hid, hdate, hpast⟩ := (h.store s hs).known id createdAt hclaimed
          exact ⟨e, he, hid, hdate, hpast.trans hheard⟩
      · rintro _ ⟨⟩ -
        refine ⟨?_, fun e he => hfile.covered e he.mem he.mention he.unfinished⟩
        exact hfile.low.trans (hfile.high.trans (Nat.add_le_add_right hheard _))
      · intro _
        exact ⟨nofun, rfl, rfl⟩
      · rintro since ⟨⟩
        have hsince := sinceSecs_resume s w.now
        refine ⟨⟨s.state, h.synced s hs, hsince.ge⟩, ?_⟩
        rintro _ ⟨⟩ -
        exact ⟨s.state.checkpointSecs, rfl, hsince.ge⟩
  · exact h

/-- A process that opens the file there is. -/
theorem reopened (hnone : w.process = none) {c : Cursor} (hc : w.file = some c)
    (capacity : Nat) :
    CursorInv { w with process := some ⟨c, ∅, ∅, none, capacity⟩, resumed := false } := by
  have hconnected : w.connected ≠ true := fun hconnected => (h.online hconnected).1 hnone
  refine ⟨h.relay, h.heard, h.file, ?_, ?_, nofun, ?_, ?_, ?_⟩
  · rintro _ ⟨⟩
    exact hc
  · rintro _ ⟨⟩
    refine ⟨?_, ?_⟩
    · intro v hv
      rcases mem_unfinished.1 hv with ⟨id, hid⟩ | ⟨id, hid⟩ | hpin
      · cases hid
      · cases hid
      · cases hpin
    · intro id createdAt hclaimed
      rcases hclaimed with hid | hid
      · cases hid
      · cases hid
  · rintro _ ⟨⟩ -
    refine ⟨rfl, ?_⟩
    intro id createdAt hclaimed
    rcases hclaimed with hid | hid
    · cases hid
    · cases hid
  · intro hconnected'
    exact absurd hconnected' hconnected
  · intro since hsince
    exact ⟨(h.replay since hsince).1, nofun⟩

/-- The first file, at the time of the first open. -/
theorem created (hnone : w.process = none) (hfile : w.file = none)
    (hrecent : w.withinOverlap = true) :
    CursorInv { w with file := some ⟨w.now, w.now, w.now, []⟩, heard := w.now } := by
  have hconnected : w.connected ≠ true := fun hconnected => (h.online hconnected).1 hnone
  have hprocess : ∀ {s : CursorStore}, w.process ≠ some s := by
    intro s hs
    rw [hnone] at hs
    cases hs
  refine ⟨h.relay, Nat.le_refl _, ?_, ?_, ?_, ?_, ?_, ?_, ?_⟩
  · rintro c ⟨⟩
    refine ⟨Nat.le_refl _, Nat.le_add_right _ _, ?_⟩
    intro e he hmention hunfinished
    have hone := List.all_eq_true.1 hrecent e he
    simpa [hmention, hunfinished] using hone
  · exact fun _ hs => absurd hs hprocess
  · exact fun _ hs => absurd hs hprocess
  · exact fun _ hs => absurd hs hprocess
  · exact fun _ hs => absurd hs hprocess
  · intro hconnected'
    exact absurd hconnected' hconnected
  · intro since hsince
    obtain ⟨⟨c, hc, -⟩, -⟩ := h.replay since hsince
    rw [hfile] at hc
    cases hc

theorem openOrStart (capacity : Nat) (durable : Bool)
    (hm : w.assumed (.openOrStart capacity durable) = true) :
    CursorInv (w.openOrStart capacity durable) := by
  unfold WakerState.openOrStart
  split
  · exact h
  next hprocess =>
  have hnone : w.process = none := by simpa using hprocess
  cases hfile : w.file with
  | some c =>
      have hopened := h.reopened hnone hfile (max capacity 1)
      rw [hfile] at hopened
      exact hopened
  | none =>
      cases durable with
      | false => exact h
      | true =>
          have hrecent : w.withinOverlap = true := by
            unfold WakerState.assumed at hm
            rw [hfile] at hm
            simpa using hm
          have hcreated := h.created hnone hfile hrecent
          exact hcreated.reopened hnone rfl (max capacity 1)

theorem wait (secs : Nat) (hm : w.assumed (.wait secs) = true) :
    CursorInv (w.step (.wait secs)) := by
  have hheard : w.heard ≤ (if w.connected then w.now + secs else w.heard) := by
    have := h.heard
    split
    · omega
    · omega
  refine ⟨⟨h.relay.ids, ?_, h.relay.ahead, h.relay.behind⟩, ?_, ?_, h.synced, ?_, ?_, h.idle, ?_,
    h.replay⟩
  · intro e he
    exact (h.relay.past e he).trans (Nat.le_add_right _ _)
  · have := h.heard
    show (if w.connected then w.now + secs else w.heard) ≤ w.now + secs
    split
    · exact Nat.le_refl _
    · omega
  · intro c hc
    have hold := h.file c hc
    exact ⟨hold.low, hold.high.trans (Nat.add_le_add_right hheard _), hold.covered⟩
  · intro s hs
    refine ⟨(h.store s hs).low, ?_⟩
    intro id createdAt hclaimed
    obtain ⟨e, he, hid, hdate, hpast⟩ := (h.store s hs).known id createdAt hclaimed
    exact ⟨e, he, hid, hdate, hpast.trans hheard⟩
  · intro s hs hresumed
    have hheld := h.held s hs hresumed
    unfold Held at hheld ⊢
    split
    · next pin hpin =>
        rw [hpin] at hheld
        exact ⟨hheld.1.trans (Nat.add_le_add_right hheard _), hheld.2⟩
    · next hpin =>
        rw [hpin] at hheld
        intro e he
        show (if w.connected then w.now + secs else w.heard) ≤ _
        split
        · next hconnected =>
            -- The feed is live: the deliveries are in time.
            have hlive : w.isLive = true := by
              unfold WakerState.isLive
              rw [hconnected, show w.process = some s from hs, Option.any_some, hpin]
              rfl
            have hall : w.allRecent (w.now + secs) = true := by
              simpa [WakerState.assumed, hlive] using hm
            exact recent_of_allRecent hall hs he
        · exact hheld e he
  · intro hconnected
    obtain ⟨hprocess, hresumed, -⟩ := h.online hconnected
    exact ⟨hprocess, hresumed, if_pos hconnected⟩

theorem accept (id : String) (ahead behind : Nat) (isMention : Bool)
    (hm : w.assumed (.accept id ahead behind isMention) = true) :
    CursorInv (w.accept id ahead behind isMention) := by
  have hdrift : ahead ≤ maxTimestampDriftSecs ∧ behind ≤ maxTimestampDriftSecs := by
    simpa [WakerState.assumed] using hm
  unfold WakerState.accept
  split
  · exact h
  next hfresh =>
  have hfresh : ∀ e ∈ w.accepted, e.id ≠ id := by
    simpa using hfresh
  have hheard := h.heard
  have hone : ∀ {e : Accepted}, e ∈ w.accepted ++ [⟨id, w.now + ahead - behind, w.now, isMention⟩] →
      e ∈ w.accepted ∨ e = ⟨id, w.now + ahead - behind, w.now, isMention⟩ := fun he => by
    simpa using he
  refine ⟨⟨?_, ?_, ?_, ?_⟩, h.heard, ?_, h.synced, ?_, ?_, h.idle, h.online, h.replay⟩
  · rw [List.map_append, List.nodup_append]
    refine ⟨h.relay.ids, List.nodup_singleton _, ?_⟩
    intro id' hid' id'' hid'' heq
    obtain ⟨e, he, rfl⟩ := List.mem_map.1 hid'
    rw [List.map_singleton, List.mem_singleton] at hid''
    exact hfresh e he (heq.trans hid'')
  · intro e he
    rcases hone he with he | rfl
    · exact h.relay.past e he
    · exact Nat.le_refl _
  · intro e he
    rcases hone he with he | rfl
    · exact h.relay.ahead e he
    · dsimp only
      omega
  · intro e he
    rcases hone he with he | rfl
    · exact h.relay.behind e he
    · dsimp only
      omega
  · intro c hc
    have hold := h.file c hc
    refine ⟨hold.low, hold.high, ?_⟩
    intro e he hmention hunfinished
    rcases hone he with he | rfl
    · exact hold.covered e he hmention hunfinished
    · have hlow := hold.low
      have hhigh := hold.high
      dsimp only
      unfold reconnectOverlapSecs
      omega
  · intro s hs
    refine ⟨(h.store s hs).low, ?_⟩
    intro id' createdAt hclaimed
    obtain ⟨e, he, hrest⟩ := (h.store s hs).known id' createdAt hclaimed
    exact ⟨e, List.mem_append_left _ he, hrest⟩
  · intro s hs hresumed
    have hheld := h.held s hs hresumed
    have hunseen : ∀ {e}, Unseen (w.accepted ++ [⟨id, w.now + ahead - behind, w.now, isMention⟩])
        w.finished s e → e ∈ w.accepted → Unseen w.accepted w.finished s e :=
      fun he hmem => ⟨hmem, he.mention, he.unfinished, he.unclaimed⟩
    unfold Held at hheld ⊢
    split
    · next pin hpin =>
        rw [hpin] at hheld
        refine ⟨hheld.1, ?_⟩
        intro e he
        rcases hone he.mem with hmem | rfl
        · exact hheld.2 e (hunseen he hmem)
        · have hbelow := hheld.1
          dsimp only
          unfold reconnectOverlapSecs
          omega
    · next hpin =>
        rw [hpin] at hheld
        intro e he
        rcases hone he.mem with hmem | rfl
        · exact hheld e (hunseen he hmem)
        · dsimp only
          omega

theorem crash : CursorInv (w.step .crash) :=
  ⟨h.relay, h.heard, h.file, nofun, nofun, nofun, nofun, nofun,
    fun since hsince => ⟨(h.replay since hsince).1, nofun⟩⟩

theorem disconnect : CursorInv (w.step .disconnect) :=
  ⟨h.relay, h.heard, h.file, h.synced, h.store, h.held, h.idle, nofun, h.replay⟩

theorem step (m : WakerMove) (hm : w.assumed m = true) :
    CursorInv (w.step m) := by
  cases m with
  | wait secs => exact h.wait secs hm
  | accept id ahead behind isMention => exact h.accept id ahead behind isMention hm
  | openOrStart capacity durable => exact h.openOrStart capacity durable hm
  | crash => exact h.crash
  | resume => exact h.resume
  | disconnect => exact h.disconnect
  | admitEvent id durable => exact h.admitEvent id durable
  | complete id durable => exact h.complete id durable
  | abandon id => exact h.abandon id
  | markCovered durable => exact h.markCovered durable
  | endReplay durable => exact h.endReplay durable hm

end

end CursorInv

theorem cursorInv_waker (now : Nat) : CursorInv (waker now).init :=
  ⟨⟨List.nodup_nil, nofun, nofun, nofun⟩, Nat.zero_le _, nofun, nofun, nofun, nofun, nofun, nofun,
    nofun⟩

/-! ## Every run -/

/-- What a resume asks for, from any state a run reaches: nothing later than a
mention that is not completed, nor than the replay that has not ended. And a
completed id is not claimed again while the ring has it. -/
structure CursorHolds (w : WakerState) : Prop where
  covered : ∀ s, w.process = some s → ∀ e ∈ w.accepted, e.isMention = true → e.id ∉ w.finished →
    (s.resume w.now).2.sinceSecs ≤ e.createdAt
  replayed : ∀ s, w.process = some s → ∀ since, w.replaying = some since →
    (s.resume w.now).2.sinceSecs ≤ since
  once : ∀ s, w.process = some s → ∀ id ∈ s.state.completed, ∀ createdAt now durable,
    s.admitEvent durable id createdAt now = ⟨s, none, .ok .duplicate⟩

theorem CursorInv.holds (h : CursorInv w) : CursorHolds w := by
  refine ⟨?_, ?_, ?_⟩
  · intro s hs e he hmention hunfinished
    have hcovered := (h.file _ (h.synced s hs)).covered e he hmention hunfinished
    rw [sinceSecs_resume]
    omega
  · intro s hs since hsince
    obtain ⟨⟨c, hc, hle⟩, -⟩ := h.replay since hsince
    rw [sinceSecs_resume, ← Option.some.inj (hc.symm.trans (h.synced s hs))]
    exact hle
  · intro s hs id hid createdAt now durable
    have hdup : s.isDuplicate id = true := by
      unfold isDuplicate
      rw [List.contains_iff_mem.2 hid, Bool.or_true]
    unfold CursorStore.admitEvent
    rw [if_pos hdup]

theorem cursor_never_steps_over (now : Nat) (ms : List WakerMove)
    (hms : (waker now).Meets (fun w m => w.assumed m = true) (waker now).init ms) :
    CursorHolds ((waker now).run ms) := by
  have hinv := (waker now).inv_run (I := CursorInv) (cursorInv_waker now)
    (fun w m h hm => h.step m hm) hms
  exact hinv.holds

/-- A mention dated back by the drift is in flight while a later one, dated
ahead by the drift, completes; then the process dies and starts again. -/
def crashMoves : List WakerMove :=
  [.openOrStart 4096 true, .resume, .endReplay true, .accept "a" 0 900 true,
    .admitEvent "a" true, .wait 700, .accept "b" 900 0 true, .admitEvent "b" true,
    .complete "b" true, .crash, .openOrStart 4096 true]

theorem cursor_never_steps_over_crash :
    ((waker 10000).run crashMoves).finished = ["b"] ∧
      CursorHolds ((waker 10000).run crashMoves) :=
  ⟨by decide +kernel, cursor_never_steps_over 10000 crashMoves (by decide +kernel)⟩

end Buzz.Waker
