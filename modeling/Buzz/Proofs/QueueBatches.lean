import Buzz.Proofs.QueueShape

/-!
# Batches in flight

A batch that is not over and whose deadline has not passed keeps its scope in
flight, and a flush takes no scope that is. So there is at most one such batch
for each scope, until `mark_complete` is called for a turn that had expired: it
frees the scope whoever holds it by then.
-/

namespace Buzz.Acp

open Buzz.Lib (HMap Ledger getElem?_set_cases getElem?_snoc_cases getElem?_map_cases)
open Buzz.Lib.Ledger

/-! ## Which operations leave the scopes in flight alone -/

section InFlight

variable (q : EventQueue)

theorem push_inFlightScopes (order : Order) (event : QueuedEvent) :
    (q.push order event).1.inFlightScopes = q.inFlightScopes := by
  unfold EventQueue.push
  split <;> rfl

theorem extendInFlightDeadline_inFlightScopes (now : Nat) (scope : SessionScope)
    (maxTurnSecs : Nat) :
    (q.extendInFlightDeadline now scope maxTurnSecs).inFlightScopes = q.inFlightScopes := by
  unfold EventQueue.extendInFlightDeadline
  cases q.inFlightDeadlines.lookup scope with
  | none => rfl
  | some current =>
      rw [apply_ite EventQueue.inFlightScopes]
      exact ite_self _

theorem requeue_inFlightScopes (now : Nat) (order : Order) (jitter : Nat) (batch : FlushBatch) :
    (q.requeue now order jitter batch).1.inFlightScopes = q.inFlightScopes := by
  unfold EventQueue.requeue
  dsimp only
  split <;> rfl

theorem requeuePreserveTimestamps_inFlightScopes (order : Order) (batch : FlushBatch) :
    (q.requeuePreserveTimestamps order batch).1.inFlightScopes = q.inFlightScopes := by
  unfold EventQueue.requeuePreserveTimestamps
  split <;> rfl

theorem markNativeSteerPending_inFlightScopes (scope : SessionScope) (eventId : String) :
    (q.markNativeSteerPending scope eventId).1.inFlightScopes = q.inFlightScopes := by
  unfold EventQueue.markNativeSteerPending
  split
  · rfl
  · split <;> rfl

theorem releaseNativeSteer_inFlightScopes (order : Order) (scope : SessionScope)
    (eventId : String) :
    (q.releaseNativeSteer order scope eventId).1.inFlightScopes = q.inFlightScopes := by
  unfold EventQueue.releaseNativeSteer
  split
  · rfl
  · split <;> rfl

theorem markComplete_inFlightScopes (now : Nat) (scope : SessionScope) :
    (q.markComplete now scope).inFlightScopes = q.inFlightScopes.erase scope := by
  obtain ⟨after, counts, h⟩ := markComplete_eq q now scope
  rw [h]
  rfl

end InFlight

/-! ## The batches of a run -/

/-- Neither over nor out of its time. -/
def Flushed.live (f : Flushed) : Prop := f.phase ≠ .finished ∧ f.expired = false

/-- The queue is well formed, and every batch that is out and in time is the
only one of its scope. -/
structure Sound (s : Harness) : Prop where
  queue : QueueOk s.queue
  batches : ∀ f ∈ s.flushed, BatchOk f.batch
  inFlight : ∀ f ∈ s.flushed, f.live → f.batch.scope ∈ s.queue.inFlightScopes
  alone : ∀ (i j : Nat) (f g : Flushed), s.flushed[i]? = some f → s.flushed[j]? = some g →
    f.live → g.live → f.batch.scope = g.batch.scope → i = j

namespace Sound

variable {s s' : Harness}

/-- The moves that do not touch the batches or which scopes are in flight. -/
theorem of_same (h : Sound s) (hq : QueueOk s'.queue)
    (hscopes : s'.queue.inFlightScopes = s.queue.inFlightScopes)
    (hflushed : s'.flushed = s.flushed) : Sound s' := by
  refine ⟨hq, ?_, ?_, ?_⟩
  · rw [hflushed]
    exact h.batches
  · rw [hflushed, hscopes]
    exact h.inFlight
  · rw [hflushed]
    exact h.alone

/-- A batch goes on to a later phase. -/
theorem of_set (h : Sound s) {i : Nat} {f : Flushed} (f' : Flushed) (hi : s.flushed[i]? = some f)
    (hbatch : f'.batch = f.batch) (hlive : f'.live → f.live) (hq : QueueOk s'.queue)
    (hscopes : ∀ (j : Nat) (g : Flushed), (s.flushed.set i f')[j]? = some g → g.live →
      g.batch.scope ∈ s.queue.inFlightScopes → g.batch.scope ∈ s'.queue.inFlightScopes)
    (hflushed : s'.flushed = s.flushed.set i f') : Sound s' := by
  have hold : ∀ (j : Nat) (g : Flushed), (s.flushed.set i f')[j]? = some g →
      ∃ g', s.flushed[j]? = some g' ∧ g'.batch = g.batch ∧ (g.live → g'.live) := by
    intro j g hg
    rcases getElem?_set_cases hg with ⟨rfl, rfl, -⟩ | ⟨-, hsame⟩
    · exact ⟨f, hi, hbatch.symm, hlive⟩
    · exact ⟨g, hsame, rfl, id⟩
  refine ⟨hq, ?_, ?_, ?_⟩
  · rw [hflushed]
    intro g hg
    obtain ⟨j, hj⟩ := List.getElem?_of_mem hg
    obtain ⟨g', hg', heq, -⟩ := hold j g hj
    rw [← heq]
    exact h.batches g' (List.mem_of_getElem? hg')
  · rw [hflushed]
    intro g hg hglive
    obtain ⟨j, hj⟩ := List.getElem?_of_mem hg
    obtain ⟨g', hg', heq, hlive'⟩ := hold j g hj
    refine hscopes j g hj hglive ?_
    rw [← heq]
    exact h.inFlight g' (List.mem_of_getElem? hg') (hlive' hglive)
  · rw [hflushed]
    intro j k g g' hj hk hg hg' hscope
    obtain ⟨a, ha, haeq, halive⟩ := hold j g hj
    obtain ⟨b, hb, hbeq, hblive⟩ := hold k g' hk
    exact h.alone j k a b ha hb (halive hg) (hblive hg') (by rw [haeq, hbeq, hscope])

/-- What has expired is marked and out of flight. -/
theorem of_expired (h : Sound s) {order : Order} (hq : QueueOk s'.queue)
    (hscopes : s'.queue.inFlightScopes =
      (s.queue.expire order (s.queue.expiredScopes s.now order)).1.inFlightScopes)
    (hflushed : s'.flushed = markExpired (s.queue.expiredScopes s.now order) s.flushed) :
    Sound s' := by
  have hold : ∀ (j : Nat) (g : Flushed), s'.flushed[j]? = some g →
      ∃ g', s.flushed[j]? = some g' ∧ g'.batch = g.batch ∧
        (g.live → g'.live ∧ g.batch.scope ∉ s.queue.expiredScopes s.now order) := by
    intro j g hg
    rw [hflushed] at hg
    obtain ⟨g', hg', rfl⟩ := getElem?_map_cases hg
    refine ⟨g', hg', ?_⟩
    split
    · next hmem => exact ⟨rfl, fun hlive => nomatch hlive.2⟩
    · next hmem => exact ⟨rfl, fun hlive => ⟨hlive, hmem⟩⟩
  refine ⟨hq, ?_, ?_, ?_⟩
  · intro g hg
    obtain ⟨j, hj⟩ := List.getElem?_of_mem hg
    obtain ⟨g', hg', heq, -⟩ := hold j g hj
    rw [← heq]
    exact h.batches g' (List.mem_of_getElem? hg')
  · intro g hg hglive
    obtain ⟨j, hj⟩ := List.getElem?_of_mem hg
    obtain ⟨g', hg', heq, hlive⟩ := hold j g hj
    obtain ⟨hlive', hnot⟩ := hlive hglive
    rw [hscopes, mem_expire_inFlightScopes]
    refine ⟨?_, hnot⟩
    rw [← heq]
    exact h.inFlight g' (List.mem_of_getElem? hg') hlive'
  · intro j k g g' hj hk hg hg' hscope
    obtain ⟨a, ha, haeq, halive⟩ := hold j g hj
    obtain ⟨b, hb, hbeq, hblive⟩ := hold k g' hk
    exact h.alone j k a b ha hb (halive hg).1 (hblive hg').1 (by rw [haeq, hbeq, hscope])

/-- A new batch of a scope that was not in flight. -/
theorem of_flush (h : Sound s) {batch : FlushBatch} (hq : QueueOk s'.queue) (hok : BatchOk batch)
    (hfree : batch.scope ∉ s.queue.inFlightScopes)
    (hscopes : s'.queue.inFlightScopes = insert batch.scope s.queue.inFlightScopes)
    (hflushed : s'.flushed = s.flushed ++ [{ batch := batch }]) : Sound s' := by
  refine ⟨hq, ?_, ?_, ?_⟩
  · rw [hflushed]
    intro f hf
    rcases List.mem_append.1 hf with hf | hf
    · exact h.batches f hf
    · rw [List.mem_singleton.1 hf]
      exact hok
  · rw [hflushed, hscopes]
    intro f hf hlive
    rcases List.mem_append.1 hf with hf | hf
    · exact Finset.mem_insert_of_mem (h.inFlight f hf hlive)
    · rw [List.mem_singleton.1 hf]
      exact Finset.mem_insert_self _ _
  · rw [hflushed]
    intro i j f g hi hj hf hg hscope
    rcases getElem?_snoc_cases hi with ⟨rfl, rfl⟩ | ⟨-, hi⟩ <;>
      rcases getElem?_snoc_cases hj with ⟨rfl, rfl⟩ | ⟨-, hj⟩
    · rfl
    · refine (hfree ?_).elim
      have hmem := h.inFlight g (List.mem_of_getElem? hj) hg
      rwa [← hscope] at hmem
    · refine (hfree ?_).elim
      have hmem := h.inFlight f (List.mem_of_getElem? hi) hf
      rwa [hscope] at hmem
    · exact h.alone i j f g hi hj hf hg hscope

end Sound

/-! ## Turns in order -/

/-- No cancelled events that `flush_next` could send out alone are more than a
batch holds or out of order. They only go out when no queue is ready. -/
def EventQueue.carryOversFit (q : EventQueue) (now : Nat) : Bool :=
  (q.queues.entries.any fun e => !e.2.isEmpty && q.ready now e.1) ||
    q.cancelledBatches.entries.all fun e => e.1 ∈ q.inFlightScopes || fitsBatch e.2

/-- The conditions of the two paths on which the shape is lost: a flush of
cancelled events that are no batch, and the return of a turn that had expired
while another turn of its scope runs. -/
def turnsInOrder (s : Harness) (m : TimedMove) : Bool :=
  match m.move with
  | .flushNext =>
      let now := s.now + m.elapsed
      (s.queue.expire m.order (s.queue.expiredScopes now m.order)).1.carryOversFit now
  | .markComplete i =>
      (s.flushed[i]?).all fun f =>
        f.phase = .finished || !f.expired ||
          s.flushed.all fun g =>
            g.batch.scope ≠ f.batch.scope || g.phase = .finished || g.expired
  | _ => true

variable {order : Order}

theorem flushNext_batchOk {q : EventQueue} {now : Nat} {batch : FlushBatch}
    (hok : QueueOk q)
    (hfit : (q.expire order (q.expiredScopes now order)).1.carryOversFit now = true)
    (h : (q.flushNext now order).2.1 = some batch) : BatchOk batch := by
  have hexpired := hok.expire order (q.expiredScopes now order)
  obtain ⟨hfree, -, hhow⟩ := flushNext_cases h
  generalize (q.expire order (q.expiredScopes now order)).1 = q' at *
  rcases hhow with ⟨l, hl, hne, hbatch⟩ | ⟨l, hl, hevents, hidle⟩
  · rw [hbatch]
    exact flushQueue_batchOk now hl hne
  · -- no queue is ready, so the carry-overs fit
    unfold EventQueue.carryOversFit at hfit
    rw [Bool.or_eq_true] at hfit
    have hfits : fitsBatch l = true := by
      rcases hfit with hany | hall
      · obtain ⟨⟨s, queue⟩, hmem, hready⟩ := List.any_eq_true.1 hany
        rw [Bool.and_eq_true] at hready
        have hnil := hidle s queue (HMap.mem_entries_iff.1 hmem) hready.2
        rw [hnil] at hready
        cases hready.1
      · have hone := List.all_eq_true.1 hall ⟨batch.scope, l⟩ (HMap.mem_entries_iff.2 hl)
        rw [Bool.or_eq_true] at hone
        exact hone.resolve_left fun hin => hfree (of_decide_eq_true hin)
    unfold fitsBatch at hfits
    rw [Bool.and_eq_true] at hfits
    refine ⟨?_, ?_, ?_⟩
    · rw [hevents]
      exact hexpired.cancelled batch.scope l hl
    · rw [hevents]
      exact of_decide_eq_true hfits.1
    · rw [hevents]
      exact of_decide_eq_true hfits.2

namespace Sound

variable {s : Harness}

theorem settle (h : Sound s) (order : Order) (i : Nat) (how : Settlement) :
    Sound (s.settle order i how) := by
  unfold Harness.settle
  split
  · next batch expired hi =>
      have hne := (h.batches _ (List.mem_of_getElem? hi)).nonempty
      have hlive : (⟨batch, .settled, expired⟩ : Flushed).live →
          (⟨batch, .running, expired⟩ : Flushed).live := fun hl => ⟨nofun, hl.2⟩
      cases how with
      | requeue jitter =>
          refine h.of_set ⟨batch, .settled, expired⟩ hi rfl hlive
            (h.queue.requeue s.now order jitter hne) ?_ rfl
          intro j g _ _ hmem
          rw [requeue_inFlightScopes]
          exact hmem
      | preserveTimestamps =>
          refine h.of_set ⟨batch, .settled, expired⟩ hi rfl hlive
            (h.queue.requeuePreserveTimestamps order hne) ?_ rfl
          intro j g _ _ hmem
          rw [requeuePreserveTimestamps_inFlightScopes]
          exact hmem
      | asCancelled reason =>
          exact h.of_set ⟨batch, .settled, expired⟩ hi rfl hlive
            (h.queue.requeueAsCancelled hne reason) (fun _ _ _ _ hmem => hmem) rfl
  · exact h

/-- The scope of a batch that ends has no other live batch. -/
theorem markComplete (h : Sound s) {i : Nat}
    (hturn : ∀ f, s.flushed[i]? = some f → f.phase ≠ .finished → f.expired = true →
      ∀ g ∈ s.flushed, g.live → g.batch.scope ≠ f.batch.scope) :
    Sound (s.markComplete i) := by
  unfold Harness.markComplete
  split
  · next batch phase expired hi =>
      split
      · exact h
      · next hphase =>
          have hlive : (⟨batch, .finished, expired⟩ : Flushed).live →
              (⟨batch, phase, expired⟩ : Flushed).live := fun hl => (hl.1 rfl).elim
          refine h.of_set ⟨batch, .finished, expired⟩ hi rfl hlive
            (h.queue.markComplete s.now batch.scope) ?_ rfl
          intro j g hj hg hmem
          rw [markComplete_inFlightScopes, Finset.mem_erase]
          refine ⟨?_, hmem⟩
          rcases getElem?_set_cases hj with ⟨-, rfl, -⟩ | ⟨hne, hold⟩
          · exact (hg.1 rfl).elim
          · cases expired with
            | true => exact hturn _ hi hphase rfl g (List.mem_of_getElem? hold) hg
            | false =>
                intro hscope
                exact hne (h.alone j i g _ hold hi hg ⟨hphase, rfl⟩ hscope)
  · exact h

theorem flushNext (h : Sound s) (order : Order)
    (hfit : (s.queue.expire order (s.queue.expiredScopes s.now order)).1.carryOversFit s.now =
      true) :
    Sound (s.act order .flushNext) := by
  have hq := h.queue.flushNext s.now order
  let waiting : Harness :=
    { s with
      queue := (s.queue.expire order (s.queue.expiredScopes s.now order)).1
      flushed := markExpired (s.queue.expiredScopes s.now order) s.flushed }
  have hwaiting : Sound waiting := h.of_expired (h.queue.expire order _) rfl rfl
  cases hbatch : (s.queue.flushNext s.now order).2.1 with
  | none =>
      refine hwaiting.of_same hq (flushNext_none hbatch) ?_
      show _ ++ List.map _ (s.queue.flushNext s.now order).2.1.toList = _
      rw [hbatch]
      exact List.append_nil _
  | some batch =>
      obtain ⟨hfree, hscopes, -⟩ := flushNext_cases hbatch
      refine hwaiting.of_flush hq (flushNext_batchOk h.queue hfit hbatch) hfree hscopes ?_
      show _ ++ List.map _ (s.queue.flushNext s.now order).2.1.toList = _
      rw [hbatch]
      rfl

theorem step (h : Sound s) {m : TimedMove} (hm : turnsInOrder s m = true) : Sound (s.step m) := by
  obtain ⟨elapsed, order, move⟩ := m
  have hlater : Sound { s with now := s.now + elapsed } := h.of_same h.queue rfl rfl
  unfold Harness.step
  cases move with
  | push event =>
      exact hlater.of_same (h.queue.push order event) (push_inFlightScopes s.queue order event) rfl
  | flushNext => exact hlater.flushNext order hm
  | hasFlushableWork => exact hlater.of_expired (h.queue.expire order _) rfl rfl
  | extendInFlightDeadline scope maxTurnSecs =>
      exact hlater.of_same (h.queue.extendInFlightDeadline _ scope maxTurnSecs)
        (extendInFlightDeadline_inFlightScopes s.queue _ scope maxTurnSecs) rfl
  | settle i how => exact hlater.settle order i how
  | markComplete i =>
      refine hlater.markComplete fun f hi hphase hexpired g hg hlive hscope => ?_
      unfold turnsInOrder at hm
      simp only [show s.flushed[i]? = some f from hi, Option.all_some, hexpired, Bool.not_true,
        Bool.or_false, Bool.or_eq_true, decide_eq_true_iff, hphase, false_or,
        List.all_eq_true] at hm
      rcases hm g hg with (hne | hfinished) | hgone
      · exact hne hscope
      · exact hlive.1 hfinished
      · exact absurd hgone (by rw [hlive.2]; decide)
  | markNativeSteerPending scope eventId =>
      exact hlater.of_same (h.queue.markNativeSteerPending scope eventId)
        (markNativeSteerPending_inFlightScopes s.queue scope eventId) rfl
  | releaseNativeSteer scope eventId =>
      exact hlater.of_same (h.queue.releaseNativeSteer order scope eventId)
        (releaseNativeSteer_inFlightScopes s.queue order scope eventId) rfl
  | removeEvent scope eventId => exact hlater.of_same (h.queue.removeEvent scope eventId) rfl rfl
  | drainChannel channel => exact hlater.of_same (h.queue.drainChannel order channel) rfl rfl
  | compactExpiredState =>
      refine hlater.of_same ?_ rfl rfl
      exact ⟨h.queue.queues, h.queue.deadlines, h.queue.sizes, h.queue.routes, h.queue.withheld,
        h.queue.cancelled⟩

end Sound

/-! ## Whose events are in a batch -/

/-- What a batch is made of was accepted for its scope. -/
def Known (s : Harness) : Prop :=
  ∀ f ∈ s.flushed, ∀ e ∈ f.batch.events, (f.batch.scope, e) ∈ s.accepted

/-- What is out with a batch was accepted. -/
theorem Accounted.mem_accepted {s : Harness} (h : Accounted s) {f : Flushed} (hf : f ∈ s.flushed)
    (hphase : f.phase = .running) {e : BatchEvent} (he : e ∈ f.batch.events) :
    (f.batch.scope, e) ∈ s.accepted := by
  have hout : e ∈ outstandingLedger s.flushed f.batch.scope := by
    refine mem_ofList.2 (List.mem_flatMap.2 ⟨f, hf, ?_⟩)
    rw [Flushed.outstanding, if_pos hphase]
    exact List.mem_map_of_mem (List.mem_append_left _ he)
  rw [← mem_ofList, h]
  show e ∈ s.queue.held f.batch.scope + outstandingLedger s.flushed f.batch.scope +
    ofList s.delivered f.batch.scope + ofList s.removed f.batch.scope +
    ofList s.evicted f.batch.scope + ofList s.forgotten f.batch.scope
  simp only [Multiset.mem_add]
  exact .inl (.inl (.inl (.inl (.inr hout))))

/-- The batches after a move are those before it, and one that was just flushed. -/
theorem flushed_act {s : Harness} {move : Move} {f : Flushed}
    (hf : f ∈ (s.act order move).flushed) :
    (∃ g ∈ s.flushed, g.batch = f.batch) ∨ f.phase = .running := by
  have hset : ∀ {i : Nat} {g : Flushed} (g' : Flushed), s.flushed[i]? = some g →
      g'.batch = g.batch → f ∈ s.flushed.set i g' → ∃ g ∈ s.flushed, g.batch = f.batch := by
    intro i g g' hi hbatch hmem
    rcases List.mem_or_eq_of_mem_set hmem with hmem | rfl
    · exact ⟨f, hmem, rfl⟩
    · exact ⟨g, List.mem_of_getElem? hi, hbatch.symm⟩
  have hexpired : f ∈ markExpired (s.queue.expiredScopes s.now order) s.flushed →
      ∃ g ∈ s.flushed, g.batch = f.batch := by
    intro hmem
    obtain ⟨g, hg, rfl⟩ := List.mem_map.1 hmem
    refine ⟨g, hg, ?_⟩
    split <;> rfl
  cases move with
  | flushNext =>
      rcases List.mem_append.1 hf with hf | hf
      · exact .inl (hexpired hf)
      · obtain ⟨batch, -, rfl⟩ := List.mem_map.1 hf
        exact .inr rfl
  | hasFlushableWork => exact .inl (hexpired hf)
  | settle i how =>
      refine .inl ?_
      change f ∈ (s.settle order i how).flushed at hf
      unfold Harness.settle at hf
      split at hf
      · next batch expired hi => cases how <;> exact hset ⟨batch, .settled, expired⟩ hi rfl hf
      · exact ⟨f, hf, rfl⟩
  | markComplete i =>
      refine .inl ?_
      change f ∈ (s.markComplete i).flushed at hf
      unfold Harness.markComplete at hf
      split at hf
      · next batch phase expired hi =>
          split at hf
          · exact ⟨f, hf, rfl⟩
          · exact hset ⟨batch, .finished, expired⟩ hi rfl hf
      · exact ⟨f, hf, rfl⟩
  | _ => exact .inl ⟨f, hf, rfl⟩

theorem accepted_act (s : Harness) (order : Order) (move : Move) :
    s.accepted ⊆ (s.act order move).accepted := by
  cases move with
  | push event =>
      show s.accepted ⊆ if (s.queue.push order event).2.1 then _ else _
      split
      · exact List.subset_append_left _ _
      · exact List.Subset.refl _
  | settle i how =>
      show s.accepted ⊆ (s.settle order i how).accepted
      unfold Harness.settle
      split
      · cases how <;> exact List.Subset.refl _
      · exact List.Subset.refl _
  | markComplete i =>
      show s.accepted ⊆ (s.markComplete i).accepted
      unfold Harness.markComplete
      split
      · split <;> exact List.Subset.refl _
      · exact List.Subset.refl _
  | _ => exact List.Subset.refl _

theorem Known.step {s : Harness} (h : Known s) {m : TimedMove} (haccounted : Accounted (s.step m)) :
    Known (s.step m) := by
  intro f hf e he
  rcases flushed_act hf with ⟨g, hg, hbatch⟩ | hphase
  · refine accepted_act _ m.order m.move ?_
    rw [← hbatch] at he ⊢
    exact h g hg e he
  · exact haccounted.mem_accepted hf hphase he

theorem known_run (mode : DedupMode) (maxTurnSecs : Nat) (ms : List TimedMove) :
    Known ((harness mode maxTurnSecs).run ms) := by
  have hinit : Accounted (harness mode maxTurnSecs).init ∧ Known (harness mode maxTurnSecs).init :=
    ⟨rfl, nofun⟩
  refine ((harness mode maxTurnSecs).stable_runFrom (I := fun s => Accounted s ∧ Known s)
    (fun s m hs => ?_) hinit ms).2
  have hlater : Accounted { s with now := s.now + m.elapsed } := hs.1
  have haccounted := hlater.act m.order m.move
  exact ⟨haccounted, hs.2.step haccounted⟩

/-! ## The shape in every state -/

/-- What holds of the queue and of the batches that came out of it. -/
structure WellShaped (s : Harness) : Prop where
  nonempty : ∀ scope l, s.queue.queues.lookup scope = some l → l ≠ []
  owned : ∀ scope l, s.queue.queues.lookup scope = some l →
    ∀ e ∈ l, e.scope = scope ∧ e.channelId = scope.channelId
  scopeCap : ∀ scope l, s.queue.queues.lookup scope = some l → l.length ≤ maxPendingPerScope
  channelCap : ∀ channel, channelEventTotal s.queue.queues channel ≤ maxPendingPerChannel
  deadlines : s.queue.inFlightDeadlines.keySet = s.queue.inFlightScopes
  sizes : s.queue.inFlightBatchSizes.keySet = s.queue.inFlightScopes
  routes : s.queue.inFlightReplyRoutes.keySet ⊆ s.queue.inFlightScopes
  /-- A scope in flight is taken only after its deadline. -/
  notTwice : ∀ (elapsed : Nat) (order : Order) (batch : FlushBatch),
    (s.queue.flushNext (s.now + elapsed) order).2.1 = some batch →
      batch.scope ∈ s.queue.inFlightScopes →
        ∃ deadline, s.queue.inFlightDeadlines.lookup batch.scope = some deadline ∧
          deadline ≤ s.now + elapsed
  alone : ∀ (i j : Nat) (f g : Flushed), s.flushed[i]? = some f → s.flushed[j]? = some g →
    f.live → g.live → f.batch.scope = g.batch.scope → i = j
  batches : ∀ f ∈ s.flushed, BatchOk f.batch
  ownEvents : ∀ f ∈ s.flushed, ∀ e ∈ f.batch.events, (f.batch.scope, e) ∈ s.accepted

theorem deadline_of_flushNext {q : EventQueue} {now : Nat} {batch : FlushBatch}
    (h : (q.flushNext now order).2.1 = some batch)
    (hin : batch.scope ∈ q.inFlightScopes) :
    ∃ deadline, q.inFlightDeadlines.lookup batch.scope = some deadline ∧ deadline ≤ now := by
  obtain ⟨hfree, -, -⟩ := flushNext_cases h
  rw [mem_expire_inFlightScopes, not_and, not_not] at hfree
  obtain ⟨⟨scope, deadline⟩, hmem, hscope⟩ := List.mem_map.1 (hfree hin)
  obtain ⟨hentry, hle⟩ := List.mem_filter.1 hmem
  rw [← hscope]
  exact ⟨deadline, mem_iter.1 hentry, of_decide_eq_true hle⟩

/-- The shape holds in every state of every run whose turns end in order and in
which no carry-over goes out alone that is no batch. -/
theorem queue_well_shaped (mode : DedupMode) (maxTurnSecs : Nat) (ms : List TimedMove)
    (h : (harness mode maxTurnSecs).Meets (fun s m => turnsInOrder s m = true)
      (harness mode maxTurnSecs).init ms) :
    WellShaped ((harness mode maxTurnSecs).run ms) := by
  have hinit : Sound (harness mode maxTurnSecs).init :=
    ⟨⟨QueuesOk.empty, rfl, rfl, fun _ h => h, nofun, nofun⟩,
      fun _ hf => absurd hf List.not_mem_nil, fun _ hf => absurd hf List.not_mem_nil,
      fun _ _ _ _ hf => absurd (List.getElem?_nil.symm.trans hf) (Option.some_ne_none _).symm⟩
  have hsound : Sound ((harness mode maxTurnSecs).run ms) :=
    (harness mode maxTurnSecs).inv_run (I := Sound) hinit (fun s m hs hm => hs.step hm) h
  have hqueues := hsound.queue.queues
  refine ⟨hqueues.shelved.nonempty, ?_, hqueues.shelved.capped, hqueues.channelCap,
    hsound.queue.deadlines, hsound.queue.sizes, hsound.queue.routes, ?_, hsound.alone,
    hsound.batches, known_run mode maxTurnSecs ms⟩
  · intro scope l hl e he
    have hscope := hqueues.shelved.owned scope l hl e he
    refine ⟨hscope, ?_⟩
    rw [← hscope]
    exact e.belongs.symm
  · intro elapsed order batch hbatch hin
    exact deadline_of_flushNext hbatch hin

/-- Two requests, each cancelled with no queue behind it; the second was written
before the first. -/
def cancelledTwice : List TimedMove :=
  atOnce [.push (message 1 10 1), .flushNext, .settle 0 (.asCancelled .interrupt), .markComplete 0,
    .push (message 2 5 2), .flushNext, .settle 1 (.asCancelled .interrupt), .markComplete 1,
    .flushNext]

/-- They go out as one batch, newest first. -/
theorem carry_over_out_of_order :
    ¬ WellShaped ((harness .queue 3600).run cancelledTwice) := by
  intro h
  have hsorted : ∀ f ∈ ((harness .queue 3600).run cancelledTwice).flushed,
      f.batch.events.Pairwise fun a b => a.event.createdAt ≤ b.event.createdAt :=
    fun f hf => (h.batches f hf).sorted
  revert hsorted
  decide +kernel

theorem queue_well_shaped_carry_over :
    WellShaped ((harness .queue 3600).run (atOnce [.push (message 1 10 1), .flushNext,
      .settle 0 (.asCancelled .interrupt), .markComplete 0, .flushNext, .markComplete 1])) :=
  queue_well_shaped .queue 3600 _ (by decide +kernel)

end Buzz.Acp
