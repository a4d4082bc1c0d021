import Buzz.Proofs.QueueLedger

/-!
# Bounded retries

`requeue` counts the failures of a scope and hands the batch to its caller when
there were too many. `mark_complete` takes a scope without an active throttle
for a healthy one and forgets its failures. It cannot see that a batch was only
held back: by the time a batch is flushed again its throttle is over, so the end
of a hold looks like a success.

The bound holds along every stretch in which that does not happen.
-/

namespace Buzz.Acp

open Buzz.Lib (HMap)
open EventQueue

/-- The failures counted against a scope. -/
def EventQueue.failures (q : EventQueue) (scope : SessionScope) : Nat :=
  (q.retryCounts.lookup scope).getD 0

def EventQueue.throttled (q : EventQueue) (now : Nat) (scope : SessionScope) : Bool :=
  (q.retryAfter.lookup scope).any fun deadline => now < deadline

/-- Of the attempts that failed, those of a scope: which were dead-lettered. -/
def outcomesOf (scope : SessionScope) (attempts : List (SessionScope × Bool)) : List Bool :=
  (attempts.filter fun a => a.1 = scope).map Prod.snd

/-- The failures of a scope between two states. -/
def failuresBetween (scope : SessionScope) (s s' : Harness) : List Bool :=
  outcomesOf scope (s'.attempts.drop s.attempts.length)

/-- The failure after `MAX_RETRIES` others is dead-lettered, if none before it
was. -/
def BoundedRetries (failures : List Bool) : Prop :=
  maxRetries < failures.length → true ∈ failures.take (maxRetries + 1)

instance (failures : List Bool) : Decidable (BoundedRetries failures) :=
  inferInstanceAs (Decidable (_ → _))

/-- A scope that makes no headway: its batches fail or are held before they
complete, and it is not drained. -/
def noHeadway (scope : SessionScope) (s : Harness) (m : TimedMove) : Bool :=
  match m.move with
  | .settle i (.asCancelled _) =>
      (s.flushed[i]?).all fun f => f.batch.scope ≠ scope || f.phase ≠ .running
  | .markComplete i => (s.flushed[i]?).all fun f => f.batch.scope ≠ scope || f.phase ≠ .running
  | .drainChannel channel => scope.channelId ≠ channel
  | _ => true

/-- While failures are counted against a scope, `mark_complete` finds its throttle
active, and compaction finds it throttled, queued or in flight. -/
def keepsCount (scope : SessionScope) (s : Harness) (m : TimedMove) : Bool :=
  match m.move with
  | .markComplete i =>
      (s.flushed[i]?).all fun f =>
        f.batch.scope ≠ scope || f.phase = .finished || s.queue.failures scope = 0 ||
          s.queue.throttled (s.now + m.elapsed) scope
  | .compactExpiredState =>
      s.queue.failures scope = 0 || s.queue.throttled (s.now + m.elapsed) scope ||
        ((s.queue.queues.lookup scope).any fun queue => !queue.isEmpty) ||
        scope ∈ s.queue.inFlightScopes
  | _ => true

/-! ## Who touches the count -/

theorem outcomesOf_append (scope : SessionScope) (l l' : List (SessionScope × Bool)) :
    outcomesOf scope (l ++ l') = outcomesOf scope l ++ outcomesOf scope l' := by
  unfold outcomesOf
  rw [List.filter_append, List.map_append]

theorem outcomesOf_singleton (scope other : SessionScope) (dead : Bool) :
    outcomesOf scope [(other, dead)] = if other = scope then [dead] else [] := by
  unfold outcomesOf
  split
  · next h => rw [List.filter_cons_of_pos (by exact decide_eq_true h)]; rfl
  · next h => rw [List.filter_cons_of_neg (by simpa using h)]; rfl

variable {q : EventQueue} {now : Nat}

theorem failures_markComplete_ne {scope other : SessionScope}
    (h : scope ≠ other) :
    (q.markComplete now other).failures scope = q.failures scope := by
  have herase : (q.retryCounts.erase other).lookup scope = q.retryCounts.lookup scope :=
    AList.lookup_erase_ne h
  unfold markComplete failures
  dsimp only
  split
  · split
    · rfl
    · exact congrArg (Option.getD · 0) herase
  · exact congrArg (Option.getD · 0) herase

/-- An active throttle protects the count. -/
theorem failures_markComplete {scope : SessionScope}
    (h : q.failures scope = 0 ∨ q.throttled now scope = true) :
    q.failures scope ≤ (q.markComplete now scope).failures scope := by
  rcases h with hzero | hthrottled
  · rw [hzero]
    exact Nat.zero_le _
  · obtain ⟨deadline, hdeadline, hlt⟩ := (Option.any_eq_true _ _).1 hthrottled
    have hlookup : (q.release scope).retryAfter.lookup scope = some deadline := hdeadline
    unfold markComplete
    dsimp only
    rw [hlookup]
    dsimp only
    rw [if_pos (of_decide_eq_true hlt)]
    exact Nat.le_refl _

theorem failures_requeue_ne {order : Order} {jitter : Nat} {batch : FlushBatch}
    {scope : SessionScope} (h : scope ≠ batch.scope) :
    (q.requeue now order jitter batch).1.failures scope = q.failures scope := by
  have herase : (q.retryCounts.erase batch.scope).lookup scope = q.retryCounts.lookup scope :=
    AList.lookup_erase_ne h
  unfold requeue
  dsimp only
  split
  · exact congrArg (Option.getD · 0) herase
  · exact congrArg (Option.getD · 0) (AList.lookup_insert_ne h)

/-- One more, or too many. -/
theorem failures_requeue (q : EventQueue) (now : Nat) (order : Order) (jitter : Nat)
    (batch : FlushBatch) :
    ((q.requeue now order jitter batch).2.1.isSome = true ∧
        maxRetries ≤ q.failures batch.scope) ∨
      ((q.requeue now order jitter batch).2.1.isSome = false ∧
        q.failures batch.scope < maxRetries ∧
        (q.requeue now order jitter batch).1.failures batch.scope =
          q.failures batch.scope + 1) := by
  unfold requeue
  dsimp only
  split
  · next h => exact .inl ⟨rfl, Nat.lt_succ_iff.1 h⟩
  · next h =>
      refine .inr ⟨rfl, Nat.lt_of_succ_le (Nat.le_of_not_lt h), ?_⟩
      exact congrArg (Option.getD · 0) (AList.lookup_insert _)

theorem failures_drainChannel (order : Order) {channel : Uuid}
    {scope : SessionScope} (h : scope.channelId ≠ channel) :
    (q.drainChannel order channel).1.failures scope = q.failures scope := by
  have hkept : (q.retryCounts.retain fun s _ => !decide (s.channelId = channel)).lookup scope =
      q.retryCounts.lookup scope := by
    refine HMap.lookup_retain_of_true _ fun _ => ?_
    rw [decide_eq_false h]
    rfl
  exact congrArg (Option.getD · 0) hkept

theorem failures_compactExpiredState {scope : SessionScope}
    (h : q.failures scope = 0 ∨ q.throttled now scope = true ∨
      ((q.queues.lookup scope).any fun queue => !queue.isEmpty) = true ∨
      scope ∈ q.inFlightScopes) :
    q.failures scope ≤ (q.compactExpiredState now).failures scope := by
  rcases h with hzero | hkeep
  · rw [hzero]
    exact Nat.zero_le _
  · have hafter : ((q.retryAfter.retain fun _ deadline => decide (now < deadline)).lookup
        scope).isSome = q.throttled now scope := by
      rw [HMap.lookup_retain]
      exact Option.isSome_filter
    have hkept : (q.compactExpiredState now).retryCounts.lookup scope =
        q.retryCounts.lookup scope := by
      refine HMap.lookup_retain_of_true _ fun _ => ?_
      rw [hafter, Bool.or_eq_true, Bool.or_eq_true, decide_eq_true_iff, or_assoc]
      exact hkeep
    exact Nat.le_of_eq (congrArg (Option.getD · 0) hkept.symm)

/-! ## A stretch -/

/-- What a move adds to the failures of a scope: nothing, and the count does not
fall; a dead letter, with the count at its limit; or one that is counted. -/
def FailureStep (scope : SessionScope) (s s' : Harness) : Prop :=
  ∃ more, s'.attempts = s.attempts ++ more ∧
    ((outcomesOf scope more = [] ∧ s.queue.failures scope ≤ s'.queue.failures scope) ∨
      (outcomesOf scope more = [true] ∧ maxRetries ≤ s.queue.failures scope) ∨
      (outcomesOf scope more = [false] ∧ s.queue.failures scope < maxRetries ∧
        s'.queue.failures scope = s.queue.failures scope + 1))

variable {scope : SessionScope} {s : Harness}

theorem FailureStep.of_le {s' : Harness} (hattempts : s'.attempts = s.attempts)
    (h : s.queue.failures scope ≤ s'.queue.failures scope) : FailureStep scope s s' :=
  ⟨[], hattempts.trans (List.append_nil _).symm, .inl ⟨rfl, h⟩⟩

theorem failureStep_settle (scope : SessionScope) (s : Harness) (order : Order) (i : Nat)
    (how : Settlement) : FailureStep scope s (s.settle order i how) := by
  unfold Harness.settle
  split
  · next batch expired hi =>
      cases how with
      | requeue jitter =>
          dsimp only
          refine ⟨_, rfl, ?_⟩
          by_cases hscope : batch.scope = scope
          · subst hscope
            rw [outcomesOf_singleton, if_pos rfl]
            rcases failures_requeue s.queue s.now order jitter batch with
              ⟨hdead, hmax⟩ | ⟨halive, hlt, hcount⟩
            · rw [hdead]
              exact .inr (.inl ⟨rfl, hmax⟩)
            · rw [halive]
              exact .inr (.inr ⟨rfl, hlt, hcount⟩)
          · refine .inl ⟨?_, Nat.le_of_eq (failures_requeue_ne (Ne.symm hscope)).symm⟩
            rw [outcomesOf_singleton, if_neg hscope]
      | preserveTimestamps =>
          refine .of_le rfl (Nat.le_of_eq ?_)
          unfold requeuePreserveTimestamps
          dsimp only
          split <;> rfl
      | asCancelled reason => exact .of_le rfl (Nat.le_refl _)
  · exact .of_le rfl (Nat.le_refl _)

theorem failureStep_markComplete {i : Nat}
    (h : ∀ f, s.flushed[i]? = some f → f.batch.scope = scope → f.phase ≠ .finished →
      s.queue.failures scope = 0 ∨ s.queue.throttled s.now scope = true) :
    FailureStep scope s (s.markComplete i) := by
  unfold Harness.markComplete
  split
  · next batch phase expired hi =>
      split
      · exact .of_le rfl (Nat.le_refl _)
      · next hphase =>
          refine .of_le rfl ?_
          by_cases hscope : batch.scope = scope
          · dsimp only
            rw [hscope]
            exact failures_markComplete (h _ hi hscope hphase)
          · exact Nat.le_of_eq (failures_markComplete_ne (Ne.symm hscope)).symm
  · exact .of_le rfl (Nat.le_refl _)

theorem expire_retryCounts (q : EventQueue) (order : Order) (scopes : List SessionScope) :
    (q.expire order scopes).1.retryCounts = q.retryCounts := by
  induction scopes generalizing q with
  | nil => rfl
  | cons s rest ih =>
      rw [expire, ih]
      unfold recoverWithheldForExpiredScope
      split <;> rfl

theorem flushNext_retryCounts (q : EventQueue) (now : Nat) (order : Order) :
    (q.flushNext now order).1.retryCounts = q.retryCounts := by
  rw [← expire_retryCounts q order (q.expiredScopes now order)]
  unfold flushNext
  dsimp only
  split
  · rfl
  · split <;> rfl

theorem failures_congr {q' : EventQueue} (h : q'.retryCounts = q.retryCounts)
    (scope : SessionScope) : q.failures scope ≤ q'.failures scope := by
  unfold failures
  rw [h]

theorem failureStep {m : TimedMove} (hheadway : noHeadway scope s m = true)
    (hkeeps : keepsCount scope s m = true) : FailureStep scope s (s.step m) := by
  obtain ⟨elapsed, order, move⟩ := m
  unfold Harness.step
  cases move with
  | push event =>
      refine .of_le rfl (failures_congr ?_ scope)
      show (s.queue.push order event).1.retryCounts = _
      unfold push
      split <;> rfl
  | flushNext => exact .of_le rfl (failures_congr (flushNext_retryCounts _ _ _) scope)
  | hasFlushableWork => exact .of_le rfl (failures_congr (expire_retryCounts _ _ _) scope)
  | extendInFlightDeadline other maxTurnSecs =>
      refine .of_le rfl (failures_congr ?_ scope)
      show (s.queue.extendInFlightDeadline _ other maxTurnSecs).retryCounts = _
      unfold extendInFlightDeadline
      cases s.queue.inFlightDeadlines.lookup other with
      | none => rfl
      | some current =>
          dsimp only
          rw [apply_ite retryCounts]
          exact ite_self _
  | settle i how => exact failureStep_settle scope { s with now := s.now + elapsed } order i how
  | markComplete i =>
      refine failureStep_markComplete (s := { s with now := s.now + elapsed }) ?_
      intro f hi hscope hphase
      unfold keepsCount at hkeeps
      simpa [show s.flushed[i]? = some f from hi, hscope, hphase] using hkeeps
  | markNativeSteerPending other eventId =>
      refine .of_le rfl (failures_congr ?_ scope)
      show (s.queue.markNativeSteerPending other eventId).1.retryCounts = _
      unfold markNativeSteerPending
      split
      · rfl
      · split <;> rfl
  | releaseNativeSteer other eventId =>
      refine .of_le rfl (failures_congr ?_ scope)
      show (s.queue.releaseNativeSteer order other eventId).1.retryCounts = _
      unfold releaseNativeSteer
      split
      · rfl
      · split <;> rfl
  | removeEvent other eventId => exact .of_le rfl (Nat.le_refl _)
  | drainChannel channel =>
      unfold noHeadway at hheadway
      have hkept := failures_drainChannel (q := s.queue) order (of_decide_eq_true hheadway)
      exact .of_le rfl (Nat.le_of_eq hkept.symm)
  | compactExpiredState =>
      refine .of_le rfl (failures_compactExpiredState ?_)
      unfold keepsCount at hkeeps
      simpa [or_assoc] using hkeeps

/-- Since the stretch began at `s₀`: a dead letter came in time, or every failure
was counted. -/
def Counted (scope : SessionScope) (s₀ s : Harness) : Prop :=
  ∃ new, s.attempts = s₀.attempts ++ new ∧
    (true ∈ (outcomesOf scope new).take (maxRetries + 1) ∨
      ((outcomesOf scope new).length ≤ s.queue.failures scope ∧
        (outcomesOf scope new).length ≤ maxRetries))

theorem Counted.step {s₀ s' : Harness} (h : Counted scope s₀ s) (hstep : FailureStep scope s s') :
    Counted scope s₀ s' := by
  obtain ⟨new, hnew, hcounted⟩ := h
  obtain ⟨more, hmore, hstep⟩ := hstep
  refine ⟨new ++ more, by rw [hmore, hnew, List.append_assoc], ?_⟩
  rw [outcomesOf_append]
  rcases hcounted with hdead | ⟨hle, hmax⟩
  · exact .inl ((List.prefix_append _ _).take _ |>.subset hdead)
  · rcases hstep with ⟨hnone, hcount⟩ | ⟨htrue, -⟩ | ⟨hfalse, hlt, hcount⟩
    · rw [hnone, List.append_nil]
      exact .inr ⟨hle.trans hcount, hmax⟩
    · -- at most MAX_RETRIES came before this one
      rw [htrue, List.take_of_length_le]
      · exact .inl (List.mem_append_right _ (List.mem_singleton_self true))
      · rw [List.length_append, List.length_singleton]
        omega
    · rw [hfalse, List.length_append, List.length_singleton]
      exact .inr (by omega)

/-- Along every stretch in which a scope makes no headway and nothing wipes its
count, `MAX_RETRIES + 1` failures do not pass without a dead letter. -/
theorem retries_bounded (mode : DedupMode) (maxTurnSecs : Nat) (before stretch : List TimedMove)
    (scope : SessionScope)
    (hheadway : (harness mode maxTurnSecs).Meets (fun s m => noHeadway scope s m = true)
      ((harness mode maxTurnSecs).run before) stretch)
    (hkeeps : (harness mode maxTurnSecs).Meets (fun s m => keepsCount scope s m = true)
      ((harness mode maxTurnSecs).run before) stretch) :
    BoundedRetries (failuresBetween scope ((harness mode maxTurnSecs).run before)
      ((harness mode maxTurnSecs).run (before ++ stretch))) := by
  rw [Lib.Machine.run_append]
  set M := harness mode maxTurnSecs
  have hboth := M.meets_and hheadway hkeeps
  have hcounted : Counted scope (M.run before) (M.runFrom (M.run before) stretch) :=
    M.inv_runFrom (I := Counted scope (M.run before))
      (fun s m hs hm => hs.step (failureStep hm.1 hm.2))
      ⟨[], (List.append_nil _).symm, .inr ⟨Nat.zero_le _, Nat.zero_le _⟩⟩ hboth
  obtain ⟨new, hnew, hcounted⟩ := hcounted
  unfold failuresBetween BoundedRetries
  rw [hnew, List.drop_left]
  intro hmany
  exact hcounted.resolve_right fun hfew => Nat.not_lt_of_le hfew.2 hmany

/-! ## Held after every failure -/

/-- The turn fails, and after the back-off the batch is flushed once more but only
held, since the agent that has its session is busy. -/
def failThenHold (i : Nat) : List TimedMove :=
  [{ elapsed := 400 * second, move := .flushNext }, { move := .settle i (.requeue 0) },
    { move := .markComplete i }, { elapsed := 400 * second, move := .flushNext },
    { move := .settle (i + 1) .preserveTimestamps }, { move := .markComplete (i + 1) }]

def failsForever : List TimedMove := (List.range 11).flatMap fun n => failThenHold (2 * n)

/-- Eleven failures in a row and no dead letter. -/
theorem hold_refunds_failures :
    (harness .queue 3600).Meets (fun s m => noHeadway lobby s m = true)
        ((harness .queue 3600).run (atOnce [.push (message 1 10 1)])) failsForever ∧
      ¬ BoundedRetries (failuresBetween lobby
        ((harness .queue 3600).run (atOnce [.push (message 1 10 1)]))
        ((harness .queue 3600).run (atOnce [.push (message 1 10 1)] ++ failsForever))) := by
  decide +kernel

def failOnce (i : Nat) : List TimedMove :=
  [{ elapsed := 400 * second, move := .flushNext }, { move := .settle i (.requeue 0) },
    { move := .markComplete i }]

/-- Without the holds the eleventh is the last. -/
theorem retries_bounded_eleven :
    BoundedRetries (failuresBetween lobby
      ((harness .queue 3600).run (atOnce [.push (message 1 10 1)]))
      ((harness .queue 3600).run
        (atOnce [.push (message 1 10 1)] ++ (List.range 11).flatMap failOnce))) :=
  retries_bounded .queue 3600 _ _ lobby (by decide +kernel) (by decide +kernel)

end Buzz.Acp
