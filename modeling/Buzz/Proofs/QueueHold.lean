import Buzz.Proofs.QueueBatches
import Buzz.Proofs.QueueCaps

/-!
# Holding a batch

`has_flushable_work` and `flush_next` test the same scopes, each in its own
words, and they agree.

A batch that could not run goes back with `requeue_preserve_timestamps`, and its
scope out of flight. The next flush should bring the same batch again. The batch
is sorted by `created_at` by then, so the head of its queue may be an event that
was received late, and another scope comes first. And a batch of cancelled
events alone comes back as an ordinary one, without its reason.
-/

namespace Buzz.Acp

open Buzz.Lib (HMap)
open EventQueue

variable {q : EventQueue} {now : Nat} {order order' : Order} {queues : Queues}
  {p : SessionScope → Bool} {scope other : SessionScope} {l : List QueuedEvent}
  {batch : FlushBatch}

/-! ## Readiness -/

theorem isSome_oldestScope :
    (oldestScope order queues p).isSome = queues.entries.any fun e => !e.2.isEmpty && p e.1 := by
  rw [Bool.eq_iff_iff, List.any_eq_true]
  constructor
  · intro h
    obtain ⟨scope, hscope⟩ := Option.isSome_iff_exists.1 h
    obtain ⟨l, hl, hne, hp⟩ := oldestScope_some hscope
    refine ⟨⟨scope, l⟩, HMap.mem_entries_iff.2 hl, ?_⟩
    rw [Bool.and_eq_true, Bool.not_eq_true', List.isEmpty_eq_false_iff]
    exact ⟨hne, hp⟩
  · rintro ⟨⟨scope, l⟩, hmem, hp⟩
    rw [Bool.and_eq_true, Bool.not_eq_true', List.isEmpty_eq_false_iff] at hp
    cases hnone : oldestScope order queues p with
    | none => exact absurd (oldestScope_none hnone (HMap.mem_entries_iff.1 hmem) hp.2) hp.1
    | some scope => rfl

theorem isSome_cancelledScope :
    (q.cancelledScope order).isSome =
      q.cancelledBatches.keys.any fun scope => scope ∉ q.inFlightScopes := by
  unfold cancelledScope
  rw [Option.isSome_map, Bool.eq_iff_iff, List.find?_isSome, List.any_eq_true]
  constructor
  · rintro ⟨⟨scope, l⟩, hmem, hfree⟩
    exact ⟨scope, List.mem_map.2 ⟨_, HMap.mem_entries_iff.2 (mem_iter.1 hmem), rfl⟩, hfree⟩
  · rintro ⟨scope, hmem, hfree⟩
    obtain ⟨⟨scope, l⟩, hentry, rfl⟩ := List.mem_map.1 hmem
    exact ⟨⟨scope, l⟩, mem_iter.2 (HMap.mem_entries_iff.1 hentry), hfree⟩

theorem mem_expiredScopes :
    scope ∈ q.expiredScopes now order ↔
      ∃ deadline, q.inFlightDeadlines.lookup scope = some deadline ∧ deadline ≤ now := by
  unfold expiredScopes
  rw [List.mem_map]
  constructor
  · rintro ⟨⟨s, deadline⟩, hmem, rfl⟩
    obtain ⟨hmem, hle⟩ := List.mem_filter.1 hmem
    exact ⟨deadline, mem_iter.1 hmem, of_decide_eq_true hle⟩
  · rintro ⟨deadline, hlookup, hle⟩
    exact ⟨⟨scope, deadline⟩, List.mem_filter.2 ⟨mem_iter.2 hlookup, decide_eq_true hle⟩, rfl⟩

theorem lookup_expire_inFlightDeadlines {scopes : List SessionScope} {deadline : Nat}
    (h : (q.expire order scopes).1.inFlightDeadlines.lookup scope = some deadline) :
    scope ∉ scopes ∧ q.inFlightDeadlines.lookup scope = some deadline := by
  induction scopes generalizing q with
  | nil => exact ⟨List.not_mem_nil, h⟩
  | cons s rest ih =>
      have hrecover : ((q.release s).recoverWithheldForExpiredScope order s).1.inFlightDeadlines =
          q.inFlightDeadlines.erase s := by
        unfold recoverWithheldForExpiredScope
        split <;> rfl
      obtain ⟨hrest, hlookup⟩ := ih h
      rw [hrecover, HMap.lookup_erase_ite] at hlookup
      split at hlookup
      · cases hlookup
      · next hne =>
          rw [List.mem_cons, not_or]
          exact ⟨⟨hne, hrest⟩, hlookup⟩

/-- The queue once what has expired is out. -/
def EventQueue.expired (q : EventQueue) (now : Nat) (order : Order) : EventQueue :=
  (q.expire order (q.expiredScopes now order)).1

/-- Then no more expires at this time. -/
theorem lt_of_expired {deadline : Nat}
    (h : (q.expired now order).inFlightDeadlines.lookup scope = some deadline) :
    now < deadline := by
  obtain ⟨hnot, hlookup⟩ := lookup_expire_inFlightDeadlines h
  by_contra hle
  exact hnot (mem_expiredScopes.2 ⟨deadline, hlookup, Nat.not_lt.1 hle⟩)

theorem expiredScopes_eq_nil
    (h : ∀ scope deadline, q.inFlightDeadlines.lookup scope = some deadline → now < deadline) :
    q.expiredScopes now order = [] := by
  rw [List.eq_nil_iff_forall_not_mem]
  intro scope hmem
  obtain ⟨deadline, hlookup, hle⟩ := mem_expiredScopes.1 hmem
  exact absurd (h scope deadline hlookup) (Nat.not_lt.2 hle)

theorem expired_eq_self
    (h : ∀ scope deadline, q.inFlightDeadlines.lookup scope = some deadline → now < deadline) :
    q.expired now order = q := by
  unfold expired
  rw [expiredScopes_eq_nil h]
  rfl

theorem expired_expired : (q.expired now order).expired now order' = q.expired now order :=
  expired_eq_self fun _ _ => lt_of_expired

/-- The batch of a flush: of the oldest ready queue, or else of cancelled events. -/
theorem flushNext_batch :
    (q.flushNext now order).2.1 =
      ((oldestScope order (q.expired now order).queues ((q.expired now order).ready now)).map
        fun scope => ((q.expired now order).flushQueue now scope).2).or
      (((q.expired now order).cancelledScope order).map
        fun scope => ((q.expired now order).flushCancelled now scope).2) := by
  unfold flushNext
  dsimp only
  rw [← expired]
  cases oldestScope order (q.expired now order).queues ((q.expired now order).ready now) with
  | some scope => rfl
  | none =>
      cases (q.expired now order).cancelledScope order with
      | some scope => rfl
      | none => rfl

theorem hasFlushableWork_eq_isSome :
    (q.hasFlushableWork now order).2.1 = (q.flushNext now order).2.1.isSome := by
  rw [flushNext_batch, Option.isSome_or, Option.isSome_map, Option.isSome_map,
    isSome_oldestScope, isSome_cancelledScope]
  rfl

/-- Whatever the order the maps are walked in, after the expiry. -/
theorem isSome_flushNext_expired :
    ((q.expired now order).flushNext now order').2.1.isSome =
      (q.flushNext now order).2.1.isSome := by
  rw [← hasFlushableWork_eq_isSome, ← hasFlushableWork_eq_isSome]
  unfold hasFlushableWork
  dsimp only
  rw [← expired, ← expired, expired_expired]

/-- The readiness tests and the dispatcher. There is flushable work exactly when
a flush at this time brings a batch, and also when the flush comes after the
test; and when no scope is in flight and no work is undispatched, the queue
holds no event. -/
theorem readiness_agrees (q : EventQueue) :
    (∀ now order, (q.hasFlushableWork now order).2.1 = (q.flushNext now order).2.1.isSome ∧
      ∀ order', ((q.hasFlushableWork now order).1.flushNext now order').2.1.isSome =
        (q.hasFlushableWork now order).2.1) ∧
    (q.hasUndispatchedWork = false → q.inFlightScopes = ∅ →
      ∀ scope, (q.queues.lookup scope).getD [] = [] ∧
        (q.withheldNativeSteer.lookup scope).getD [] = [] ∧
        q.cancelledBatches.lookup scope = none) := by
  refine ⟨fun now order => ⟨hasFlushableWork_eq_isSome, fun order' => ?_⟩, ?_⟩
  · rw [hasFlushableWork_eq_isSome]
    exact isSome_flushNext_expired
  · intro hnone hidle scope
    unfold hasUndispatchedWork at hnone
    rw [Bool.or_eq_false_iff, Bool.or_eq_false_iff, hidle] at hnone
    obtain ⟨⟨hqueues, hcancelled⟩, hwithheld⟩ := hnone
    have hempty : ∀ m : Queues,
        (m.entries.any fun e => !e.2.isEmpty && decide (e.1 ∉ (∅ : Finset SessionScope))) = false →
          (m.lookup scope).getD [] = [] := by
      intro m hm
      cases hl : m.lookup scope with
      | none => rfl
      | some l =>
          have hone := List.any_eq_false.1 hm ⟨scope, l⟩ (HMap.mem_entries_iff.2 hl)
          simpa using hone
    refine ⟨hempty _ hqueues, hempty _ hwithheld, ?_⟩
    cases hl : q.cancelledBatches.lookup scope with
    | none => rfl
    | some l =>
        have hkey : scope ∈ q.cancelledBatches.keys :=
          List.mem_map.2 ⟨⟨scope, l⟩, HMap.mem_entries_iff.2 hl, rfl⟩
        have hone := List.any_eq_false.1 hcancelled scope hkey
        simp at hone

/-- A message comes, its turn ends, and nothing is left. -/
theorem readiness_agrees_after_turn :
    let q := ((harness .queue 60).run
      (atOnce [.push (message 1 10 1), .flushNext, .markComplete 0])).queue
    (q.flushNext 1 fun _ => 0).2.1.isSome = false ∧ (q.queues.lookup lobby).getD [] = [] :=
  ⟨by
    rw [← ((readiness_agrees _).1 1 fun _ => 0).1]
    decide +kernel,
   ((readiness_agrees _).2 (by decide +kernel) (by decide +kernel) lobby).1⟩

/-! ## What the harness keeps -/

/-- A scope with cancelled events has the reason. -/
def EventQueue.Reasoned (q : EventQueue) : Prop :=
  ∀ scope, (q.cancelledBatches.lookup scope).isSome → (q.cancelReasons.lookup scope).isSome

/-- A batch to put back: it has events, and a reason for the cancelled ones. -/
structure FlushBatch.Whole (batch : FlushBatch) : Prop where
  nonempty : batch.events ≠ []
  reasoned : batch.cancelledEvents ≠ [] → batch.cancelReason.isSome

/-- The part of the queue about cancelled batches. -/
def EventQueue.carryOver (q : EventQueue) :
    HMap SessionScope (List BatchEvent) × HMap SessionScope CancelReason :=
  (q.cancelledBatches, q.cancelReasons)

section CarryOver

variable (q)

theorem carryOver_push (order : Order) (event : QueuedEvent) :
    (q.push order event).1.carryOver = q.carryOver := by
  unfold push
  split <;> rfl

theorem carryOver_extendInFlightDeadline (now : Nat) (scope : SessionScope) (maxTurnSecs : Nat) :
    (q.extendInFlightDeadline now scope maxTurnSecs).carryOver = q.carryOver := by
  unfold extendInFlightDeadline
  split
  · rfl
  · dsimp only
    split <;> rfl

theorem carryOver_expire (order : Order) (scopes : List SessionScope) :
    (q.expire order scopes).1.carryOver = q.carryOver := by
  induction scopes generalizing q with
  | nil => rfl
  | cons s rest ih =>
      refine (ih _).trans ?_
      unfold recoverWithheldForExpiredScope
      split <;> rfl

theorem carryOver_requeue (now : Nat) (order : Order) (jitter : Nat) (batch : FlushBatch) :
    (q.requeue now order jitter batch).1.carryOver = q.carryOver := by
  unfold requeue
  dsimp only
  split <;> rfl

theorem carryOver_markComplete (now : Nat) (scope : SessionScope) :
    (q.markComplete now scope).carryOver = q.carryOver := by
  obtain ⟨after, counts, h⟩ := markComplete_eq q now scope
  rw [h]
  rfl

theorem carryOver_markNativeSteerPending (scope : SessionScope) (eventId : String) :
    (q.markNativeSteerPending scope eventId).1.carryOver = q.carryOver := by
  unfold markNativeSteerPending
  split
  · rfl
  · split <;> rfl

theorem carryOver_releaseNativeSteer (order : Order) (scope : SessionScope) (eventId : String) :
    (q.releaseNativeSteer order scope eventId).1.carryOver = q.carryOver := by
  unfold releaseNativeSteer
  split
  · rfl
  · split <;> rfl

end CarryOver

namespace EventQueue.Reasoned

variable {q' : EventQueue}

section

variable (h : q.Reasoned)
include h

theorem of_carryOver (hsame : q'.carryOver = q.carryOver) : q'.Reasoned := by
  intro scope hsome
  have hbatches : q'.cancelledBatches = q.cancelledBatches := congrArg Prod.fst hsame
  have hreasons : q'.cancelReasons = q.cancelReasons := congrArg Prod.snd hsame
  rw [hbatches] at hsome
  rw [hreasons]
  exact h scope hsome

/-- Both tables lose the scope. -/
theorem erase (hbatches : q'.cancelledBatches = q.cancelledBatches.erase scope)
    (hreasons : q'.cancelReasons = q.cancelReasons.erase scope) :
    q'.Reasoned := by
  intro s hsome
  rw [hbatches, HMap.lookup_erase_ite] at hsome
  rw [hreasons, HMap.lookup_erase_ite]
  split at hsome
  · cases hsome
  · next hne =>
      rw [if_neg hne]
      exact h s hsome

theorem expired : (q.expired now order).Reasoned :=
  h.of_carryOver (carryOver_expire q order _)

theorem flushNext : (q.flushNext now order).1.Reasoned := by
  unfold EventQueue.flushNext
  dsimp only
  split
  · exact h.expired.erase rfl rfl
  · split
    · exact h.expired.erase rfl rfl
    · exact h.expired

theorem requeuePreserveTimestamps {batch : FlushBatch} (hwhole : batch.Whole) :
    (q.requeuePreserveTimestamps order batch).1.Reasoned := by
  unfold EventQueue.requeuePreserveTimestamps
  split
  · exact h
  · next hne =>
      obtain ⟨reason, hreason⟩ := Option.isSome_iff_exists.1
        (hwhole.reasoned fun hnil => hne (List.isEmpty_iff.2 hnil))
      intro s hsome
      rw [hreason]
      cases hold : q.cancelReasons.lookup batch.scope with
      | none =>
          rw [HMap.lookup_insert_ite]
          split
          · rfl
          · next hs =>
              rw [HMap.lookup_insert_ite, if_neg hs] at hsome
              exact h s hsome
      | some old =>
          by_cases hs : s = batch.scope
          · rw [hs, hold]
            rfl
          · rw [HMap.lookup_insert_ite, if_neg hs] at hsome
            exact h s hsome

theorem requeueAsCancelled (batch : FlushBatch) (reason : CancelReason) :
    (q.requeueAsCancelled batch reason).Reasoned := by
  intro s hsome
  unfold EventQueue.requeueAsCancelled at hsome ⊢
  rw [HMap.lookup_insert_ite] at hsome ⊢
  split
  · rfl
  · next hs =>
      rw [if_neg hs] at hsome
      exact h s hsome

theorem drainChannel (order : Order) (channel : Uuid) :
    (q.drainChannel order channel).1.Reasoned := by
  intro s hsome
  unfold EventQueue.drainChannel at hsome ⊢
  rw [HMap.lookup_retain] at hsome ⊢
  obtain ⟨l, hl⟩ := Option.isSome_iff_exists.1 hsome
  obtain ⟨hl, hkept⟩ := Option.filter_eq_some_iff.1 hl
  obtain ⟨reason, hreason⟩ := Option.isSome_iff_exists.1 (h s (by rw [hl]; rfl))
  rw [hreason, Option.filter_some, if_pos hkept]
  rfl

end

end EventQueue.Reasoned

/-- The batch of a flush is whole. -/
theorem flushNext_whole (hok : QueueOk q) (h : q.Reasoned)
    (hbatch : (q.flushNext now order).2.1 = some batch) : batch.Whole := by
  have hexpired : QueueOk (q.expired now order) := hok.expire order _
  have hreasoned : (q.expired now order).Reasoned := h.expired
  rw [flushNext_batch] at hbatch
  cases hready : oldestScope order (q.expired now order).queues
      ((q.expired now order).ready now) with
  | some scope =>
      rw [hready] at hbatch
      cases hbatch
      obtain ⟨l, hl, hne, -⟩ := oldestScope_some hready
      refine ⟨(flushQueue_batchOk now hl hne).nonempty, ?_⟩
      unfold flushQueue
      dsimp only
      intro hsome
      rw [if_neg fun hnil => hsome (List.isEmpty_iff.1 hnil)]
      refine hreasoned scope ?_
      cases hl : (q.expired now order).cancelledBatches.lookup scope with
      | none => exact absurd (by rw [hl]; rfl) hsome
      | some l => rfl
  | none =>
      rw [hready, Option.map_none, Option.none_or] at hbatch
      obtain ⟨scope, hscope, rfl⟩ := Option.map_eq_some_iff.1 hbatch
      unfold cancelledScope at hscope
      obtain ⟨⟨s, l⟩, hfind, rfl⟩ := Option.map_eq_some_iff.1 hscope
      have hl := mem_iter.1 (List.mem_of_find?_eq_some hfind)
      refine ⟨?_, fun hsome => absurd rfl hsome⟩
      show ((q.expired now order).cancelledBatches.lookup s).getD [] ≠ []
      rw [hl]
      exact hexpired.cancelled s l hl

/-- What the harness keeps in every run. -/
structure Stocked (s : Harness) : Prop where
  queue : QueueOk s.queue
  reasoned : s.queue.Reasoned
  whole : ∀ f ∈ s.flushed, f.batch.Whole

namespace Stocked

variable {s s' : Harness}

section

variable (h : Stocked s)
include h

theorem of_same (hq : QueueOk s'.queue)
    (hcarry : s'.queue.carryOver = s.queue.carryOver)
    (hflushed : s'.flushed = s.flushed) :
    Stocked s' :=
  ⟨hq, h.reasoned.of_carryOver hcarry, hflushed ▸ h.whole⟩

theorem whole_set {i : Nat} {f f' : Flushed} (hi : s.flushed[i]? = some f)
    (hbatch : f'.batch = f.batch) :
    ∀ g ∈ s.flushed.set i f', g.batch.Whole := by
  intro g hg
  rcases List.mem_or_eq_of_mem_set hg with hold | rfl
  · exact h.whole g hold
  · rw [hbatch]
    exact h.whole f (List.mem_of_getElem? hi)

theorem whole_markExpired (scopes : List SessionScope) :
    ∀ f ∈ markExpired scopes s.flushed, f.batch.Whole := by
  intro f hf
  obtain ⟨g, hg, rfl⟩ := List.mem_map.1 hf
  split
  · exact h.whole g hg
  · exact h.whole g hg

theorem settle (order : Order) (i : Nat) (how : Settlement) :
    Stocked (s.settle order i how) := by
  unfold Harness.settle
  split
  · next batch expired hi =>
      have hwhole : batch.Whole := h.whole _ (List.mem_of_getElem? hi)
      have hset : ∀ g ∈ s.flushed.set i ⟨batch, .settled, expired⟩, g.batch.Whole :=
        h.whole_set hi rfl
      cases how with
      | requeue jitter =>
          exact ⟨h.queue.requeue s.now order jitter hwhole.nonempty,
            h.reasoned.of_carryOver (carryOver_requeue ..), hset⟩
      | preserveTimestamps =>
          exact ⟨h.queue.requeuePreserveTimestamps order hwhole.nonempty,
            h.reasoned.requeuePreserveTimestamps hwhole, hset⟩
      | asCancelled reason =>
          exact ⟨h.queue.requeueAsCancelled hwhole.nonempty reason,
            h.reasoned.requeueAsCancelled batch reason, hset⟩
  · exact h

theorem markComplete (i : Nat) : Stocked (s.markComplete i) := by
  unfold Harness.markComplete
  split
  · next batch phase expired hi =>
      split
      · exact h
      · exact ⟨h.queue.markComplete s.now batch.scope,
          h.reasoned.of_carryOver (carryOver_markComplete ..), h.whole_set hi rfl⟩
  · exact h

theorem flushNext (order : Order) : Stocked (s.act order .flushNext) := by
  refine ⟨h.queue.flushNext s.now order, h.reasoned.flushNext, fun f hf => ?_⟩
  rcases List.mem_append.1 hf with hold | hnew
  · exact h.whole_markExpired _ f hold
  · obtain ⟨batch, hbatch, rfl⟩ := List.mem_map.1 hnew
    exact flushNext_whole h.queue h.reasoned (Option.mem_toList.1 hbatch)

theorem step (m : TimedMove) : Stocked (s.step m) := by
  obtain ⟨elapsed, order, move⟩ := m
  have hlater : Stocked { s with now := s.now + elapsed } := ⟨h.queue, h.reasoned, h.whole⟩
  unfold Harness.step
  cases move with
  | push event => exact hlater.of_same (h.queue.push order event) (carryOver_push ..) rfl
  | flushNext => exact hlater.flushNext order
  | hasFlushableWork =>
      exact ⟨h.queue.expire order _, hlater.reasoned.expired, hlater.whole_markExpired _⟩
  | extendInFlightDeadline scope maxTurnSecs =>
      exact hlater.of_same (h.queue.extendInFlightDeadline _ scope maxTurnSecs)
        (carryOver_extendInFlightDeadline ..) rfl
  | settle i how => exact hlater.settle order i how
  | markComplete i => exact hlater.markComplete i
  | markNativeSteerPending scope eventId =>
      exact hlater.of_same (h.queue.markNativeSteerPending scope eventId)
        (carryOver_markNativeSteerPending ..) rfl
  | releaseNativeSteer scope eventId =>
      exact hlater.of_same (h.queue.releaseNativeSteer order scope eventId)
        (carryOver_releaseNativeSteer ..) rfl
  | removeEvent scope eventId => exact hlater.of_same (h.queue.removeEvent scope eventId) rfl rfl
  | drainChannel channel =>
      exact ⟨h.queue.drainChannel order channel, h.reasoned.drainChannel order channel, h.whole⟩
  | compactExpiredState =>
      refine hlater.of_same ?_ rfl rfl
      exact ⟨h.queue.queues, h.queue.deadlines, h.queue.sizes, h.queue.routes, h.queue.withheld,
        h.queue.cancelled⟩

end

end Stocked

theorem stocked_run (mode : DedupMode) (maxTurnSecs : Nat) (ms : List TimedMove) :
    Stocked ((harness mode maxTurnSecs).run ms) := by
  refine (harness mode maxTurnSecs).stable_runFrom (fun _ m h => h.step m) ?_ ms
  exact ⟨⟨.empty, rfl, rfl, Finset.empty_subset _, nofun, nofun⟩, nofun, nofun⟩

/-! ## The oldest scope, whatever the order -/

/-- The one scope whose head was received before all others. -/
theorem oldestScope_eq_of_lt (hl : queues.lookup scope = some l) (hne : l ≠ [])
    (hp : p scope = true)
    (hlt : ∀ other l', other ≠ scope → queues.lookup other = some l' → l' ≠ [] →
      p other = true → headReceivedAt l < headReceivedAt l') :
    oldestScope order queues p = some scope := by
  unfold oldestScope
  cases hmin : ((iter order queues).filter fun e => p e.1 && !e.2.isEmpty).argmin
      fun e => headReceivedAt e.2 with
  | none =>
      rw [List.argmin_eq_none] at hmin
      have hmem : (⟨scope, l⟩ : (_ : SessionScope) × List QueuedEvent) ∈
          (iter order queues).filter fun e => p e.1 && !e.2.isEmpty := mem_eligible.2 ⟨hl, hp, hne⟩
      rw [hmin] at hmem
      cases hmem
  | some e =>
      obtain ⟨helookup, hep, hene⟩ := mem_eligible.1 (List.argmin_mem hmin)
      have hmem : (⟨scope, l⟩ : (_ : SessionScope) × List QueuedEvent) ∈
          (iter order queues).filter fun e => p e.1 && !e.2.isEmpty := mem_eligible.2 ⟨hl, hp, hne⟩
      have hle := List.not_lt_of_mem_argmin hmem hmin
      by_contra hother
      have hscope : e.1 ≠ scope := fun heq => hother (congrArg some heq)
      exact hle (hlt e.1 e.2 hscope helookup hene hep)

theorem rel_of_idxOf_le {α : Type} [DecidableEq α] {R : α → α → Prop} {xs : List α} {a b : α}
    (h : xs.Pairwise R) (ha : a ∈ xs) (hb : b ∈ xs) (hne : a ≠ b)
    (hle : xs.idxOf a ≤ xs.idxOf b) : R a b := by
  have hlt : xs.idxOf a < xs.idxOf b :=
    Nat.lt_of_le_of_ne hle fun heq => hne ((List.idxOf_inj ha).1 heq)
  have hrel := List.pairwise_iff_getElem.1 h _ _ (List.idxOf_lt_length_iff.2 ha)
    (List.idxOf_lt_length_iff.2 hb) hlt
  rwa [List.getElem_idxOf, List.getElem_idxOf] at hrel

/-- If another head is as old, the maps may be walked in an order that takes
that one. -/
theorem exists_order_of_le {l' : List QueuedEvent} (hl : queues.lookup scope = some l)
    (hother : other ≠ scope) (hl' : queues.lookup other = some l') (hne' : l' ≠ [])
    (hp' : p other = true) (hle : headReceivedAt l' ≤ headReceivedAt l) :
    ∃ order, oldestScope order queues p ≠ some scope := by
  refine ⟨fun s => if s = scope then 1 else 0, fun holdest => ?_⟩
  unfold oldestScope at holdest
  obtain ⟨e, hmin, rfl⟩ := Option.map_eq_some_iff.1 holdest
  have he := mem_eligible.1 (List.argmin_mem hmin)
  have heq : e.2 = l := Option.some.inj (he.1.symm.trans hl)
  have hmem : (⟨other, l'⟩ : (_ : SessionScope) × List QueuedEvent) ∈
      (iter (fun s => if s = e.1 then 1 else 0) queues).filter fun e => p e.1 && !e.2.isEmpty :=
    mem_eligible.2 ⟨hl', hp', hne'⟩
  have hidx := List.index_of_argmin hmin hmem (by rw [heq]; exact hle)
  have hsorted : ((iter (fun s => if s = e.1 then 1 else 0) queues).filter
      fun e => p e.1 && !e.2.isEmpty).Pairwise
        fun a b => (if a.1 = e.1 then 1 else 0) ≤ (if b.1 = e.1 then 1 else 0) := by
    refine (?_ : List.Pairwise _ (iter _ queues)).sublist List.filter_sublist
    have : Std.Total fun a b : (_ : SessionScope) × List QueuedEvent =>
        (if a.1 = e.1 then 1 else 0) ≤ (if b.1 = e.1 then 1 else 0) := ⟨fun _ _ => Nat.le_total _ _⟩
    have : IsTrans ((_ : SessionScope) × List QueuedEvent) fun a b =>
        (if a.1 = e.1 then 1 else 0) ≤ (if b.1 = e.1 then 1 else 0) :=
      ⟨fun _ _ _ => Nat.le_trans⟩
    exact List.pairwise_insertionSort _ _
  have hrel := rel_of_idxOf_le hsorted (List.argmin_mem hmin) hmem
    (fun h => hother (congrArg Sigma.fst h).symm) hidx
  rw [if_pos rfl, if_neg hother] at hrel
  cases hrel

/-! ## Out and back -/

/-- The events of a batch of this queue. -/
def batchEvents (l : List QueuedEvent) : List BatchEvent :=
  ((l.take maxBatchEvents).map QueuedEvent.intoBatchEvent).insertionSort
    fun a b => a.event.createdAt ≤ b.event.createdAt

theorem length_batchEvents : (batchEvents l).length = min maxBatchEvents l.length := by
  unfold batchEvents
  rw [List.length_insertionSort, List.length_map, List.length_take]

/-- The batch goes back and its scope is free again. -/
def EventQueue.hold (q : EventQueue) (now : Nat) (order : Order) (batch : FlushBatch) :
    EventQueue :=
  (q.requeuePreserveTimestamps order batch).1.markComplete now batch.scope

section Regular

variable {e : EventQueue} {batch : FlushBatch}

/-- The queue without the events of its batch. -/
theorem lookup_flushed_queues (hl : e.queues.lookup scope = some l) :
    ((e.flushQueue now scope).1.queues.lookup scope).getD [] = l.drop maxBatchEvents := by
  unfold flushQueue
  rw [hl]
  dsimp only [Option.getD_some]
  split
  · next hempty =>
      rw [HMap.lookup_erase_ite, if_pos rfl, List.isEmpty_iff.1 hempty]
      rfl
  · rw [HMap.lookup_insert_ite, if_pos rfl]
    rfl

theorem lookup_flushed_queues_ne (hne : other ≠ scope) :
    (e.flushQueue now scope).1.queues.lookup other = e.queues.lookup other := by
  unfold flushQueue
  dsimp only
  split
  · rw [HMap.lookup_erase_ite, if_neg hne]
  · rw [HMap.lookup_insert_ite, if_neg hne]

theorem flushQueue_events (hl : e.queues.lookup scope = some l) :
    (e.flushQueue now scope).2.events = batchEvents l := by
  unfold flushQueue batchEvents
  rw [hl]
  rfl

/-- The queue as it is put back: as long as it was. -/
def putBack (batch : FlushBatch) (l : List QueuedEvent) : List QueuedEvent :=
  (batchEvents l).map batch.requeued ++ l.drop maxBatchEvents

theorem length_putBack : (putBack batch l).length = l.length := by
  unfold putBack
  rw [List.length_append, List.length_map, length_batchEvents, List.length_drop]
  omega

theorem total_putBack (hl : e.queues.lookup scope = some l) (channel : Uuid) :
    channelEventTotal ((e.flushQueue now scope).1.queues.insert scope (putBack batch l)) channel =
      channelEventTotal e.queues channel := by
  have hout : channelEventTotal (e.flushQueue now scope).1.queues channel =
      share scope (l.drop maxBatchEvents) channel +
        channelEventTotal (e.queues.erase scope) channel := by
    unfold flushQueue
    rw [hl]
    exact total_put ..
  rw [total_eq_add_erase _ scope, lookup_flushed_queues hl] at hout
  rw [total_insert, total_eq_add_erase e.queues scope, hl]
  have hshare : share scope (putBack batch l) channel = share scope l channel := by
    unfold share
    rw [length_putBack]
  rw [hshare, Option.getD_some]
  omega

theorem requeue_flushed (hok : QueueOk e) (hl : e.queues.lookup scope = some l) (order : Order) :
    pushFrontAll order (e.flushQueue now scope).1.queues scope
        ((e.flushQueue now scope).2.events.map (e.flushQueue now scope).2.requeued) =
      ((e.flushQueue now scope).1.queues.insert scope (putBack (e.flushQueue now scope).2 l),
        []) := by
  have hqueue : (e.flushQueue now scope).2.events.map (e.flushQueue now scope).2.requeued ++
      ((e.flushQueue now scope).1.queues.lookup scope).getD [] =
        putBack (e.flushQueue now scope).2 l := by
    rw [lookup_flushed_queues hl, flushQueue_events hl]
    rfl
  rw [pushFrontAll_of_le, hqueue]
  · rw [hqueue, length_putBack]
    exact hok.queues.shelved.capped scope l hl
  · rw [hqueue, total_putBack hl]
    exact hok.queues.channelCap _

/-- The batch out of the queue that was put back: sorting it again changes
nothing. -/
theorem batchEvents_putBack :
    batchEvents (putBack batch l) = batchEvents l := by
  have htake : (putBack batch l).take maxBatchEvents = (batchEvents l).map batch.requeued := by
    have hlength : ((batchEvents l).map batch.requeued).length = min maxBatchEvents l.length := by
      rw [List.length_map, length_batchEvents]
    unfold putBack
    rcases Nat.le_total l.length maxBatchEvents with hle | hle
    · rw [List.drop_of_length_le hle, List.append_nil, List.take_of_length_le (by omega)]
    · rw [Nat.min_eq_left hle] at hlength
      rw [← hlength, List.take_left]
  have hsorted : (batchEvents l).Pairwise fun a b => a.event.createdAt ≤ b.event.createdAt :=
    pairwise_insertionSort_createdAt _
  rw [batchEvents, htake, map_requeued, hsorted.insertionSort_eq]

theorem markComplete_queues : (q.markComplete now scope).queues = q.queues := by
  obtain ⟨after, counts, h⟩ := markComplete_eq q now scope
  rw [h]
  rfl

theorem markComplete_inFlightDeadlines :
    (q.markComplete now scope).inFlightDeadlines = q.inFlightDeadlines.erase scope := by
  obtain ⟨after, counts, h⟩ := markComplete_eq q now scope
  rw [h]
  rfl

/-- An expired throttle goes with the turn, and nothing else changes about the
throttles. -/
theorem lookup_markComplete_retryAfter
    (h : (q.retryAfter.lookup scope).all (· ≤ now) = true) :
    ((q.markComplete now scope).retryAfter.lookup other).all (· ≤ now) =
      (q.retryAfter.lookup other).all (· ≤ now) := by
  unfold markComplete
  dsimp only
  split
  · next deadline hdeadline =>
      have hdeadline : q.retryAfter.lookup scope = some deadline := hdeadline
      rw [hdeadline] at h
      rw [if_neg (Nat.not_lt.2 (of_decide_eq_true h))]
      rw [HMap.lookup_erase_ite]
      split
      · next heq =>
          rw [heq, hdeadline]
          exact h.symm
      · rfl
  · rfl

theorem requeuePreserveTimestamps_queues :
    (q.requeuePreserveTimestamps order batch).1.queues =
      (pushFrontAll order q.queues batch.scope (batch.events.map batch.requeued)).1 := by
  unfold requeuePreserveTimestamps
  split <;> rfl

theorem requeuePreserveTimestamps_inFlightDeadlines :
    (q.requeuePreserveTimestamps order batch).1.inFlightDeadlines = q.inFlightDeadlines := by
  unfold requeuePreserveTimestamps
  split <;> rfl

theorem requeuePreserveTimestamps_retryAfter :
    (q.requeuePreserveTimestamps order batch).1.retryAfter = q.retryAfter := by
  unfold requeuePreserveTimestamps
  split <;> rfl

/-- The queue after a regular batch went out and came back. -/
def EventQueue.outAndBack (e : EventQueue) (now : Nat) (order : Order) (scope : SessionScope) :
    EventQueue :=
  (e.flushQueue now scope).1.hold now order (e.flushQueue now scope).2

theorem lookup_outAndBack_queues (hok : QueueOk e) (hl : e.queues.lookup scope = some l) :
    (e.outAndBack now order scope).queues.lookup other =
      if other = scope then some (putBack (e.flushQueue now scope).2 l)
      else e.queues.lookup other := by
  unfold outAndBack hold
  rw [markComplete_queues, requeuePreserveTimestamps_queues]
  show (pushFrontAll order (e.flushQueue now scope).1.queues scope _).1.lookup other = _
  rw [requeue_flushed hok hl order, HMap.lookup_insert_ite]
  split
  · rfl
  · next hne => exact lookup_flushed_queues_ne hne

theorem outAndBack_inFlightScopes (hfree : scope ∉ e.inFlightScopes) :
    (e.outAndBack now order scope).inFlightScopes = e.inFlightScopes := by
  unfold outAndBack hold
  rw [markComplete_inFlightScopes, requeuePreserveTimestamps_inFlightScopes]
  exact Finset.erase_insert hfree

/-- The same scopes are ready as before. -/
theorem outAndBack_ready (hready : e.ready now scope = true) :
    (e.outAndBack now order scope).ready now other = e.ready now other := by
  unfold ready at hready
  rw [Bool.and_eq_true] at hready
  have hthrottle : ((e.outAndBack now order scope).retryAfter.lookup other).all (· ≤ now) =
      (e.retryAfter.lookup other).all (· ≤ now) := by
    unfold outAndBack hold
    rw [lookup_markComplete_retryAfter, requeuePreserveTimestamps_retryAfter]
    · rfl
    · rw [requeuePreserveTimestamps_retryAfter]
      exact hready.2
  unfold ready
  rw [outAndBack_inFlightScopes (of_decide_eq_true hready.1), hthrottle]

theorem outAndBack_expired
    (h : ∀ s deadline, e.inFlightDeadlines.lookup s = some deadline → now < deadline) :
    (e.outAndBack now order scope).expired now order' = e.outAndBack now order scope := by
  refine expired_eq_self fun s deadline hlookup => ?_
  unfold outAndBack hold at hlookup
  rw [markComplete_inFlightDeadlines, requeuePreserveTimestamps_inFlightDeadlines,
    HMap.lookup_erase_ite] at hlookup
  split at hlookup
  · cases hlookup
  · next hne =>
      have hold : (e.inFlightDeadlines.insert scope (now + e.inFlightDeadline)).lookup s =
          some deadline := hlookup
      have hne : s ≠ scope := hne
      rw [HMap.lookup_insert_ite, if_neg hne] at hold
      exact h s deadline hold

/-- A scope without cancelled events gets those of the batch, and their reason. -/
theorem carryOver_requeuePreserveTimestamps (q : EventQueue) (order : Order) (batch : FlushBatch)
    (hnone : q.cancelledBatches.lookup batch.scope = none)
    (hunreasoned : q.cancelReasons.lookup batch.scope = none) :
    ((q.requeuePreserveTimestamps order batch).1.cancelledBatches.lookup batch.scope).getD [] =
        batch.cancelledEvents ∧
      (batch.cancelledEvents ≠ [] →
        (q.requeuePreserveTimestamps order batch).1.cancelReasons.lookup batch.scope =
          batch.cancelReason) := by
  unfold requeuePreserveTimestamps
  split
  · next hempty =>
      have hnil := List.isEmpty_iff.1 hempty
      refine ⟨?_, fun hne => absurd hnil hne⟩
      rw [hnone, hnil]
      rfl
  · constructor
    · dsimp only
      rw [HMap.lookup_insert_ite, if_pos rfl, hnone]
      exact List.append_nil _
    · intro _
      rw [hunreasoned]
      cases batch.cancelReason with
      | none => exact hunreasoned
      | some reason =>
          rw [HMap.lookup_insert_ite, if_pos rfl]

theorem flushQueue_batch_congr {e' : EventQueue}
    (hevents : (e'.flushQueue now scope).2.events = (e.flushQueue now scope).2.events)
    (hcancelled : (e'.cancelledBatches.lookup scope).getD [] =
      (e.cancelledBatches.lookup scope).getD [])
    (hreason : (e.cancelledBatches.lookup scope).getD [] ≠ [] →
      e'.cancelReasons.lookup scope = e.cancelReasons.lookup scope) :
    (e'.flushQueue now scope).2 = (e.flushQueue now scope).2 := by
  have hreason' : (e'.flushQueue now scope).2.cancelReason =
      (e.flushQueue now scope).2.cancelReason := by
    unfold flushQueue
    dsimp only
    rw [hcancelled]
    split
    · rfl
    · next hne => exact hreason fun hnil => hne (List.isEmpty_iff.2 hnil)
  exact (FlushBatch.mk.injEq ..).mpr ⟨rfl, rfl, hevents, hcancelled, hreason'⟩

/-- The batch after it was out and back. -/
theorem outAndBack_batch (hok : QueueOk e) (hl : e.queues.lookup scope = some l) :
    ((e.outAndBack now order scope).flushQueue now scope).2 = (e.flushQueue now scope).2 := by
  have hqueue : (e.outAndBack now order scope).queues.lookup scope =
      some (putBack (e.flushQueue now scope).2 l) := by
    rw [lookup_outAndBack_queues hok hl, if_pos rfl]
  have hnone : (e.flushQueue now scope).1.cancelledBatches.lookup scope = none := by
    show (e.cancelledBatches.erase scope).lookup scope = none
    rw [HMap.lookup_erase_ite, if_pos rfl]
  have hunreasoned : (e.flushQueue now scope).1.cancelReasons.lookup scope = none := by
    show (e.cancelReasons.erase scope).lookup scope = none
    rw [HMap.lookup_erase_ite, if_pos rfl]
  obtain ⟨hcancelled, hreason⟩ := carryOver_requeuePreserveTimestamps (e.flushQueue now scope).1
    order (e.flushQueue now scope).2 hnone hunreasoned
  have hback : (e.outAndBack now order scope).carryOver =
      ((e.flushQueue now scope).1.requeuePreserveTimestamps order
        (e.flushQueue now scope).2).1.carryOver := carryOver_markComplete _ now scope
  have hbatches : (e.outAndBack now order scope).cancelledBatches =
      ((e.flushQueue now scope).1.requeuePreserveTimestamps order
        (e.flushQueue now scope).2).1.cancelledBatches := congrArg Prod.fst hback
  have hreasons : (e.outAndBack now order scope).cancelReasons =
      ((e.flushQueue now scope).1.requeuePreserveTimestamps order
        (e.flushQueue now scope).2).1.cancelReasons := congrArg Prod.snd hback
  refine flushQueue_batch_congr ?_ ?_ ?_
  · rw [flushQueue_events hqueue, flushQueue_events hl, batchEvents_putBack]
  · rw [hbatches]
    exact hcancelled
  · intro hne
    rw [hreasons]
    refine (hreason hne).trans ?_
    exact if_neg fun hempty => hne (List.isEmpty_iff.1 hempty)

end Regular

/-! ## When holding is transparent -/

/-- When the event was received that the batch of this queue starts with. -/
def firstReceivedAt (l : List QueuedEvent) : Nat :=
  ((batchEvents l).head?.map BatchEvent.receivedAt).getD 0

/-- The next batch comes out of a queue, and the event it starts with was
received before the head of any other queue that is ready. -/
def EventQueue.keepsPlace (q : EventQueue) (now : Nat) (order : Order) : Bool :=
  let q := q.expired now order
  match oldestScope order q.queues (q.ready now) with
  | none => false
  | some scope => q.queues.entries.all fun e =>
      e.1 = scope || e.2.isEmpty || !q.ready now e.1 ||
        decide (firstReceivedAt ((q.queues.lookup scope).getD []) < headReceivedAt e.2)

theorem headReceivedAt_putBack (hne : l ≠ []) :
    headReceivedAt (putBack batch l) = firstReceivedAt l := by
  have hlength : (batchEvents l).length = min maxBatchEvents l.length := length_batchEvents
  have hpos := List.length_pos_of_ne_nil hne
  have hmax : maxBatchEvents = 50 := rfl
  unfold headReceivedAt firstReceivedAt putBack
  cases hevents : batchEvents l with
  | nil =>
      rw [hevents, List.length_nil] at hlength
      omega
  | cons e rest => rfl

/-- A scope without cancelled events has no reason in its batch. -/
theorem cancelReason_eq_none (hnone : q.cancelledBatches.lookup scope = none)
    (hbatch : (q.flushNext now order).2.1 = some batch)
    (hscope : batch.scope = scope) :
    batch.cancelReason = none := by
  have hcarry := congrArg Prod.fst (carryOver_expire q order (q.expiredScopes now order))
  have hnone : (q.expired now order).cancelledBatches.lookup scope = none :=
    (congrArg (AList.lookup scope) hcarry).trans hnone
  rw [flushNext_batch] at hbatch
  cases hready : oldestScope order (q.expired now order).queues
      ((q.expired now order).ready now) with
  | some s =>
      rw [hready] at hbatch
      cases hbatch
      have hscope : s = scope := hscope
      unfold flushQueue
      dsimp only
      rw [hscope, hnone]
      rfl
  | none =>
      rw [hready, Option.map_none, Option.none_or] at hbatch
      obtain ⟨s, hs, rfl⟩ := Option.map_eq_some_iff.1 hbatch
      have hscope : s = scope := hscope
      unfold cancelledScope at hs
      obtain ⟨⟨s', l⟩, hfind, rfl⟩ := Option.map_eq_some_iff.1 hs
      have hl := mem_iter.1 (List.mem_of_find?_eq_some hfind)
      rw [← hscope] at hnone
      rw [hnone] at hl
      cases hl

theorem forall_of_all_ready {e : EventQueue} {key : Nat}
    (h : (e.queues.entries.all fun x => x.1 = scope || x.2.isEmpty || !e.ready now x.1 ||
      decide (key < headReceivedAt x.2)) = true) {l' : List QueuedEvent} (hother : other ≠ scope)
    (hl' : e.queues.lookup other = some l') (hne' : l' ≠ []) (hready : e.ready now other = true) :
    key < headReceivedAt l' := by
  have hone := List.all_eq_true.1 h ⟨other, l'⟩ (HMap.mem_entries_iff.2 hl')
  rw [Bool.or_eq_true, Bool.or_eq_true, Bool.or_eq_true] at hone
  rcases hone with ((hscope | hempty) | hnot) | hlt
  · exact absurd (of_decide_eq_true hscope) hother
  · exact absurd (List.isEmpty_iff.1 hempty) hne'
  · rw [hready] at hnot
    cases hnot
  · exact of_decide_eq_true hlt

/-- A regular batch is flushed again exactly when its scope comes first again. -/
theorem flushNext_outAndBack {e : EventQueue} (hok : QueueOk e)
    (hl : e.queues.lookup scope = some l) (hne : l ≠ []) (hready : e.ready now scope = true)
    (hdeadlines : ∀ s deadline, e.inFlightDeadlines.lookup s = some deadline → now < deadline) :
    ((e.outAndBack now order scope).flushNext now order').2.1 = some (e.flushQueue now scope).2 ↔
      oldestScope order' (e.outAndBack now order scope).queues
        ((e.outAndBack now order scope).ready now) = some scope := by
  rw [flushNext_batch, outAndBack_expired hdeadlines]
  cases hscope : oldestScope order' (e.outAndBack now order scope).queues
      ((e.outAndBack now order scope).ready now) with
  | some s =>
      rw [Option.map_some, Option.some_or, Option.some_inj, Option.some_inj]
      constructor
      · intro heq
        exact congrArg FlushBatch.scope heq
      · rintro rfl
        exact outAndBack_batch hok hl
  | none =>
      have hback : (e.outAndBack now order scope).queues.lookup scope =
          some (putBack (e.flushQueue now scope).2 l) := by
        rw [lookup_outAndBack_queues hok hl, if_pos rfl]
      have hnil := oldestScope_none hscope hback ((outAndBack_ready hready).trans hready)
      have hlength := congrArg List.length hnil
      rw [length_putBack, List.length_nil] at hlength
      exact absurd (List.length_eq_zero_iff.1 hlength) hne

/-- Whatever order the maps are walked in then: exactly when it is ahead of the
others with the event it starts with. -/
theorem forall_oldestScope_outAndBack {e : EventQueue} (hok : QueueOk e)
    (hl : e.queues.lookup scope = some l) (hne : l ≠ []) (hready : e.ready now scope = true) :
    (∀ order', oldestScope order' (e.outAndBack now order scope).queues
        ((e.outAndBack now order scope).ready now) = some scope) ↔
      ∀ other l', other ≠ scope → e.queues.lookup other = some l' → l' ≠ [] →
        e.ready now other = true → firstReceivedAt l < headReceivedAt l' := by
  have hback : (e.outAndBack now order scope).queues.lookup scope =
      some (putBack (e.flushQueue now scope).2 l) := by
    rw [lookup_outAndBack_queues hok hl, if_pos rfl]
  have hback' : ∀ other ≠ scope, (e.outAndBack now order scope).queues.lookup other =
      e.queues.lookup other := by
    intro other hother
    rw [lookup_outAndBack_queues hok hl, if_neg hother]
  have hne' : putBack (e.flushQueue now scope).2 l ≠ [] := by
    intro hnil
    have hlength := congrArg List.length hnil
    rw [length_putBack, List.length_nil] at hlength
    exact hne (List.length_eq_zero_iff.1 hlength)
  constructor
  · intro hall other l' hother hl' hnil' hready'
    by_contra hge
    have hle : headReceivedAt l' ≤ headReceivedAt (putBack (e.flushQueue now scope).2 l) := by
      rw [headReceivedAt_putBack hne]
      exact Nat.not_lt.1 hge
    obtain ⟨order', horder⟩ := exists_order_of_le hback hother ((hback' other hother).trans hl')
      hnil' ((outAndBack_ready hready).trans hready') hle
    exact horder (hall order')
  · intro hlt order'
    refine oldestScope_eq_of_lt hback hne' ((outAndBack_ready hready).trans hready) ?_
    intro other l' hother hl' hnil' hready'
    rw [headReceivedAt_putBack hne]
    exact hlt other l' hother ((hback' other hother).symm.trans hl') hnil'
      ((outAndBack_ready hready).symm.trans hready')

/-- A batch of cancelled events alone does not come back as it was: its reason
is gone. -/
theorem cancelled_not_transparent {e : EventQueue} {l : List BatchEvent} {put : Order}
    (hreasoned : e.Reasoned) (hl : e.cancelledBatches.lookup scope = some l) :
    ((((e.flushCancelled now scope).1.hold now put (e.flushCancelled now scope).2).flushNext now
      order).2.1 ≠ some (e.flushCancelled now scope).2) := by
  intro hbatch
  have hnone : ((e.flushCancelled now scope).1.hold now put
      (e.flushCancelled now scope).2).cancelledBatches.lookup scope = none := by
    have hsame := congrArg Prod.fst (carryOver_markComplete
      ((e.flushCancelled now scope).1.requeuePreserveTimestamps put
        (e.flushCancelled now scope).2).1 now scope)
    refine (congrArg (AList.lookup scope) hsame).trans ?_
    show (e.cancelledBatches.erase scope).lookup scope = none
    rw [HMap.lookup_erase_ite, if_pos rfl]
  have hlost := cancelReason_eq_none hnone hbatch rfl
  have hreason : (e.cancelReasons.lookup scope).isSome := by
    refine hreasoned scope ?_
    rw [hl]
    rfl
  have hlost : e.cancelReasons.lookup scope = none := hlost
  rw [hlost] at hreason
  cases hreason

theorem flushNext_of_ready
    (h : oldestScope order (q.expired now order).queues ((q.expired now order).ready now) =
      some scope) :
    (q.flushNext now order).1 = ((q.expired now order).flushQueue now scope).1 := by
  unfold flushNext
  dsimp only
  rw [← expired, h]

theorem flushNext_of_cancelled
    (h : oldestScope order (q.expired now order).queues ((q.expired now order).ready now) = none)
    (hscope : (q.expired now order).cancelledScope order = some scope) :
    (q.flushNext now order).1 = ((q.expired now order).flushCancelled now scope).1 := by
  unfold flushNext
  dsimp only
  rw [← expired, h]
  rw [hscope]

theorem hold_iff_keepsPlace (hok : QueueOk q) (hreasoned : q.Reasoned)
    {put : Order} (hbatch : (q.flushNext now order).2.1 = some batch) :
    (∀ order', (((q.flushNext now order).1.hold now put batch).flushNext now order').2.1 =
        some batch) ↔ q.keepsPlace now order = true := by
  have hexpired : QueueOk (q.expired now order) := hok.expire order _
  rw [flushNext_batch] at hbatch
  unfold keepsPlace
  dsimp only
  cases hscope : oldestScope order (q.expired now order).queues
      ((q.expired now order).ready now) with
  | some scope =>
      rw [hscope, Option.map_some, Option.some_or, Option.some_inj] at hbatch
      subst hbatch
      obtain ⟨l, hl, hne, hready⟩ := oldestScope_some hscope
      rw [flushNext_of_ready hscope]
      rw [← outAndBack,
        forall_congr' fun order' => flushNext_outAndBack hexpired hl hne hready
          fun _ _ => lt_of_expired,
        forall_oldestScope_outAndBack hexpired hl hne hready]
      dsimp only
      rw [hl, Option.getD_some]
      constructor
      · intro hlt
        refine List.all_eq_true.2 fun x hx => ?_
        have hlookup := HMap.mem_entries_iff.1 hx
        by_cases hother : x.1 = scope
        · simp [hother]
        · by_cases hempty : x.2 = []
          · simp [hempty]
          · cases hr : (q.expired now order).ready now x.1 with
            | false => simp
            | true => simp [hlt x.1 x.2 hother hlookup hempty hr]
      · intro hall other l' hother hl' hne' hready'
        exact forall_of_all_ready hall hother hl' hne' hready'
  | none =>
      rw [hscope, Option.map_none, Option.none_or] at hbatch
      obtain ⟨s, hs, rfl⟩ := Option.map_eq_some_iff.1 hbatch
      have hfound := hs
      unfold cancelledScope at hfound
      obtain ⟨⟨s', l⟩, hfind, rfl⟩ := Option.map_eq_some_iff.1 hfound
      have hl := mem_iter.1 (List.mem_of_find?_eq_some hfind)
      rw [flushNext_of_cancelled hscope hs]
      refine iff_of_false (fun hall => ?_) Bool.false_ne_true
      exact cancelled_not_transparent hreasoned.expired hl (hall order)

/-- Holding a batch, in every state the harness reaches: the next flush brings
the same batch, whatever order it walks the maps in, exactly if `keepsPlace`. -/
theorem hold_transparent_iff (mode : DedupMode) (maxTurnSecs : Nat) (ms : List TimedMove)
    (now : Nat) (order put : Order) (batch : FlushBatch)
    (hbatch : (((harness mode maxTurnSecs).run ms).queue.flushNext now order).2.1 = some batch) :
    (∀ order', (((((harness mode maxTurnSecs).run ms).queue.flushNext now order).1.hold now put
        batch).flushNext now order').2.1 = some batch) ↔
      ((harness mode maxTurnSecs).run ms).queue.keepsPlace now order = true :=
  hold_iff_keepsPlace (stocked_run mode maxTurnSecs ms).queue
    (stocked_run mode maxTurnSecs ms).reasoned hbatch

/-! Two conversations. A replay brings the newer message of the lobby first. -/

def office : SessionScope := .conversation (Uuid.ofByte 2)

def officeMessage (id : UInt8) (createdAt : UInt64) (receivedAt : Nat) : QueuedEvent :=
  { message id createdAt receivedAt with
    channelId := Uuid.ofByte 2
    scope := office
    belongs := rfl }

def replayed : List TimedMove :=
  atOnce [.push (message 1 20 1), .push (officeMessage 3 30 3), .push (message 2 10 5)]

/-- The batch of the first flush. -/
def firstBatch (ms : List TimedMove)
    (h : ((((harness .queue 60).run ms).queue.flushNext 10 fun _ => 0).2.1).isSome) : FlushBatch :=
  (((harness .queue 60).run ms).queue.flushNext 10 fun _ => 0).2.1.get h

def lobbyReplayed : List TimedMove := atOnce [.push (message 1 20 1), .push (message 2 10 5)]

/-- The lobby alone keeps its place. -/
theorem hold_transparent_alone :
    ((harness .queue 60).run lobbyReplayed).queue.keepsPlace 10 (fun _ => 0) = true ∧
    ∀ order', (((((harness .queue 60).run lobbyReplayed).queue.flushNext 10 fun _ => 0).1.hold 10
        (fun _ => 0) (firstBatch lobbyReplayed (by decide +kernel))).flushNext 10 order').2.1 =
      some (firstBatch lobbyReplayed (by decide +kernel)) := by
  have hplace :
      ((harness .queue 60).run lobbyReplayed).queue.keepsPlace 10 (fun _ => 0) = true := by
    decide +kernel
  exact ⟨hplace, (hold_transparent_iff .queue 60 _ 10 (fun _ => 0) (fun _ => 0) _
    (Option.some_get _).symm).2 hplace⟩

/-- No two ready queues have heads that were received at the same time. -/
def EventQueue.headsDistinct (q : EventQueue) (now : Nat) : Bool :=
  ((q.queues.entries.filter fun e => !e.2.isEmpty && q.ready now e.1).map
    fun e => headReceivedAt e.2).Nodup

/-- The batch of the lobby was received first, but it starts with the message
that was received last: after the hold the office comes first. -/
theorem hold_loses_place :
    ¬ ∀ (mode : DedupMode) (maxTurnSecs : Nat) (ms : List TimedMove) (now : Nat)
      (order put order' : Order) (batch : FlushBatch),
      (((harness mode maxTurnSecs).run ms).queue.expired now order).headsDistinct now = true →
      (((harness mode maxTurnSecs).run ms).queue.flushNext now order).2.1 = some batch →
      ((((harness mode maxTurnSecs).run ms).queue.flushNext now order).1.requeuePreserveTimestamps
        put batch).2 = [] →
      (((((harness mode maxTurnSecs).run ms).queue.flushNext now order).1.hold now put
        batch).flushNext now order').2.1 = some batch := by
  intro h
  have hbatch := h .queue 60 replayed 10 (fun _ => 0) (fun _ => 0) (fun _ => 0)
    (firstBatch replayed (by decide +kernel)) (by decide +kernel) (Option.some_get _).symm
    (by decide +kernel)
  revert hbatch
  decide +kernel

end Buzz.Acp
