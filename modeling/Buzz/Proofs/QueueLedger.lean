import Buzz.Acp.Harness

/-!
# What the queue holds, and where it goes

Every operation of the queue is one equation between what is held before and
after it, at every scope: what a cap dropped, what came in and what went out
with a batch make up the difference. Added up along a run they say that no
event is lost or doubled, as long as no batch that carries cancelled events
goes through `requeue`: that one puts back `events` only.
-/

namespace Buzz.Acp

open Buzz.Lib (HMap Ledger)
open EventQueue
open Buzz.Lib.Ledger

abbrev EventLedger := Ledger SessionScope BatchEvent

abbrev queuedLedger (queues : Queues) : EventLedger := ofMap QueuedEvent.intoBatchEvent queues

/-- What the queue holds, out of flight. -/
def EventQueue.held (q : EventQueue) : EventLedger :=
  queuedLedger q.queues + queuedLedger q.withheldNativeSteer + ofMap id q.cancelledBatches

/-! ## The caps -/

theorem popFront_ledger {queues queues' : Queues} {scope : SessionScope}
    {d : SessionScope × BatchEvent} (h : popFront queues scope = some (queues', d)) :
    queuedLedger queues = queuedLedger queues' + ofList [d] := by
  unfold popFront at h
  split at h
  · next e rest hlookup =>
      cases h
      rw [queuedLedger, queuedLedger, ofMap_insert_or_erase, ofMap_eq_add_erase _ queues scope,
        hlookup, ofList_cons, ofList_nil]
      show single scope ([e.intoBatchEvent] ++ rest.map QueuedEvent.intoBatchEvent) + _ = _
      rw [single_append]
      abel
  · cases h

theorem enforceChannelCapLoop_ledger (order : Order) (channel : Uuid) (fuel : Nat)
    (queues : Queues) :
    queuedLedger queues =
      queuedLedger (enforceChannelCapLoop order channel fuel queues).1 +
        ofList (enforceChannelCapLoop order channel fuel queues).2 := by
  induction fuel generalizing queues with
  | zero => exact (add_zero _).symm
  | succ fuel ih =>
      rw [enforceChannelCapLoop]
      split
      · exact (add_zero _).symm
      · split
        · exact (add_zero _).symm
        · next queues' d hpop =>
            obtain ⟨scope, -, hpop⟩ := Option.bind_eq_some_iff.1 hpop
            rw [popFront_ledger hpop, ih queues']
            obtain ⟨s, e⟩ := d
            rw [ofList_cons s e (enforceChannelCapLoop order channel fuel queues').2, ofList_cons,
              ofList_nil]
            abel

theorem enforceChannelCap_ledger (order : Order) (queues : Queues) (channel : Uuid) :
    queuedLedger queues =
      queuedLedger (enforceChannelCap order queues channel).1 +
        ofList (enforceChannelCap order queues channel).2 :=
  enforceChannelCapLoop_ledger order channel _ queues

theorem pushFrontAll_ledger (order : Order) (queues : Queues) (scope : SessionScope)
    (events : List QueuedEvent) :
    queuedLedger queues + single scope (events.map QueuedEvent.intoBatchEvent) =
      queuedLedger (pushFrontAll order queues scope events).1 +
        ofList (pushFrontAll order queues scope events).2 := by
  unfold pushFrontAll
  rw [ofList_append, ofList_map_pair, add_left_comm, ← enforceChannelCap_ledger, queuedLedger,
    queuedLedger, ofMap_insert, ofMap_eq_add_erase _ queues scope, ← add_assoc (single scope _),
    ← single_append, ← List.map_append]
  have hsplit : single scope
      ((List.drop maxPendingPerScope (events ++ (queues.lookup scope).getD []) ++
      List.take maxPendingPerScope (events ++ (queues.lookup scope).getD [])).map
        QueuedEvent.intoBatchEvent) =
      single scope (events.map QueuedEvent.intoBatchEvent) +
        single scope (((queues.lookup scope).getD []).map QueuedEvent.intoBatchEvent) := by
    rw [← single_append, ← List.map_append]
    refine single_perm scope (List.Perm.map _ ?_)
    exact List.perm_append_comm.trans (by rw [List.take_append_drop])
  rw [hsplit]
  abel

theorem pushBack_ledger (order : Order) (queues : Queues) (event : QueuedEvent) :
    queuedLedger queues + single event.scope [event.intoBatchEvent] =
      queuedLedger (pushBack order queues event).1 + ofList (pushBack order queues event).2 := by
  unfold pushBack
  set queue := (queues.lookup event.scope).getD [] with hqueue
  set excess := if maxPendingPerScope ≤ queue.length then 1 else 0
  have hsplit : single event.scope (queue.map QueuedEvent.intoBatchEvent) =
      single event.scope ((queue.take excess).map QueuedEvent.intoBatchEvent) +
        single event.scope ((queue.drop excess).map QueuedEvent.intoBatchEvent) := by
    rw [← single_append, ← List.map_append, List.take_append_drop]
  rw [ofList_append, ofList_map_pair, add_left_comm, ← enforceChannelCap_ledger, queuedLedger,
    queuedLedger, ofMap_insert, ofMap_eq_add_erase _ queues event.scope, ← hqueue, hsplit,
    List.map_append, single_append]
  show _ + single event.scope [event.intoBatchEvent] = single event.scope _ +
    (single event.scope _ + single event.scope [event.intoBatchEvent] + _)
  abel

/-! ## The operations -/

/-- What an accepted push is in the ledger. -/
def pushedLedger (accepted : Bool) (event : QueuedEvent) : EventLedger :=
  if accepted then single event.scope [event.intoBatchEvent] else 0

theorem push_held (q : EventQueue) (order : Order) (event : QueuedEvent) :
    q.held + pushedLedger (q.push order event).2.1 event =
      (q.push order event).1.held + ofList (q.push order event).2.2 := by
  unfold push
  split
  · rfl
  · have hback := pushBack_ledger order q.queues event
    unfold held pushedLedger
    rw [if_pos rfl, add_assoc (queuedLedger q.queues), add_right_comm, hback]
    abel

theorem recoverWithheldForExpiredScope_held (q : EventQueue) (order : Order)
    (scope : SessionScope) :
    q.held = (q.recoverWithheldForExpiredScope order scope).1.held +
      ofList (q.recoverWithheldForExpiredScope order scope).2 := by
  unfold recoverWithheldForExpiredScope
  split
  · exact (add_zero _).symm
  · next entries hlookup =>
      have hfront := pushFrontAll_ledger order q.queues scope entries
      unfold held
      have hwithheld : queuedLedger q.withheldNativeSteer =
          single scope (entries.map QueuedEvent.intoBatchEvent) +
            queuedLedger (q.withheldNativeSteer.erase scope) := by
        rw [queuedLedger, ofMap_eq_add_erase _ _ scope, hlookup]
        rfl
      rw [hwithheld, ← add_assoc, hfront]
      abel

theorem expire_held (q : EventQueue) (order : Order) (scopes : List SessionScope) :
    q.held = (q.expire order scopes).1.held + ofList (q.expire order scopes).2 := by
  induction scopes generalizing q with
  | nil => exact (add_zero _).symm
  | cons scope rest ih =>
      rw [expire]
      have hrecover := recoverWithheldForExpiredScope_held (q.release scope) order scope
      have hrelease : (q.release scope).held = q.held := rfl
      rw [← hrelease, hrecover,
        ih ((q.release scope).recoverWithheldForExpiredScope order scope).1, ofList_append]
      abel

theorem carried_ledger (batch : FlushBatch) :
    ofList batch.carried = single batch.scope batch.events +
      single batch.scope batch.cancelledEvents := by
  have h := ofList_map_pair batch.scope (id : BatchEvent → BatchEvent)
    (batch.events ++ batch.cancelledEvents)
  rw [List.map_id] at h
  rw [← single_append, ← h]
  rfl

/-- The lists of cancelled events as they are. -/
theorem cancelled_ledger (m : HMap SessionScope (List BatchEvent)) (scope : SessionScope) :
    ofMap id m = single scope ((m.lookup scope).getD []) + ofMap id (m.erase scope) := by
  have h := ofMap_eq_add_erase (id : BatchEvent → BatchEvent) m scope
  rwa [List.map_id] at h

theorem flushQueue_held (q : EventQueue) (now : Nat) (scope : SessionScope) :
    q.held = (q.flushQueue now scope).1.held + ofList (q.flushQueue now scope).2.carried := by
  unfold flushQueue
  rw [carried_ledger]
  unfold held setInFlight
  set queue := (q.queues.lookup scope).getD []
  set cancelled := (q.cancelledBatches.lookup scope).getD [] with hcancelled
  have hsorted : single scope ((((queue.take maxBatchEvents).map
      QueuedEvent.intoBatchEvent).insertionSort
        fun a b => a.event.createdAt ≤ b.event.createdAt)) =
      single scope ((queue.take maxBatchEvents).map QueuedEvent.intoBatchEvent) :=
    single_perm scope (List.perm_insertionSort _ _)
  have hqueues : queuedLedger q.queues =
      single scope ((queue.take maxBatchEvents).map QueuedEvent.intoBatchEvent) +
        single scope ((queue.drop maxBatchEvents).map QueuedEvent.intoBatchEvent) +
        queuedLedger (q.queues.erase scope) := by
    rw [← single_append, ← List.map_append, List.take_append_drop]
    exact ofMap_eq_add_erase _ _ scope
  rw [hsorted, hqueues, cancelled_ledger _ scope, ← hcancelled]
  simp only [queuedLedger, ofMap_insert_or_erase]
  abel

theorem flushCancelled_held (q : EventQueue) (now : Nat) (scope : SessionScope) :
    q.held = (q.flushCancelled now scope).1.held +
      ofList (q.flushCancelled now scope).2.carried := by
  unfold flushCancelled
  rw [carried_ledger]
  unfold held setInFlight
  rw [cancelled_ledger _ scope, single_nil, add_zero]
  abel

/-- What goes out with a flush. -/
def flushedLedger (batch : Option FlushBatch) : EventLedger :=
  batch.elim 0 fun b => ofList b.carried

theorem flushNext_held (q : EventQueue) (now : Nat) (order : Order) :
    q.held = (q.flushNext now order).1.held + flushedLedger (q.flushNext now order).2.1 +
      ofList (q.flushNext now order).2.2 := by
  have hexpire := expire_held q order (q.expiredScopes now order)
  unfold flushNext
  dsimp only
  split
  · next scope _ =>
      exact hexpire.trans (congrArg (· + _) (flushQueue_held _ now scope))
  · split
    · next scope _ =>
        exact hexpire.trans (congrArg (· + _) (flushCancelled_held _ now scope))
    · exact hexpire.trans (congrArg (· + _) (add_zero _).symm)

theorem hasFlushableWork_held (q : EventQueue) (now : Nat) (order : Order) :
    q.held = (q.hasFlushableWork now order).1.held + ofList (q.hasFlushableWork now order).2.2 :=
  expire_held q order (q.expiredScopes now order)

theorem map_requeued (batch : FlushBatch) (events : List BatchEvent) :
    (events.map batch.requeued).map QueuedEvent.intoBatchEvent = events := by
  rw [List.map_map]
  exact List.map_id events

/-- `requeue` puts the events of the batch back, and forgets the cancelled ones. -/
theorem requeue_held (q : EventQueue) (now : Nat) (order : Order) (jitter : Nat)
    (batch : FlushBatch) :
    q.held + single batch.scope batch.events =
      (q.requeue now order jitter batch).1.held +
        (q.requeue now order jitter batch).2.1.elim 0 (fun b => single b.scope b.events) +
        ofList (q.requeue now order jitter batch).2.2 := by
  unfold requeue
  dsimp only
  split
  · exact (add_zero _).symm
  · have hfront := pushFrontAll_ledger order q.queues batch.scope (batch.events.map batch.requeued)
    rw [map_requeued] at hfront
    unfold held
    dsimp only [Option.elim_none]
    rw [add_zero, add_assoc (queuedLedger q.queues), add_right_comm, hfront]
    abel

/-- Whether a batch is dead-lettered. -/
theorem requeue_result (q : EventQueue) (now : Nat) (order : Order) (jitter : Nat)
    (batch : FlushBatch) :
    (q.requeue now order jitter batch).2.1 =
      if maxRetries ≤ (q.retryCounts.lookup batch.scope).getD 0 then some batch else none := by
  unfold requeue
  dsimp only
  split
  · next h => rw [if_pos (Nat.le_of_lt_succ h)]
  · next h => rw [if_neg (fun hle => h (Nat.lt_succ_of_le hle))]

/-- What `requeue` does not put back: the cancelled events, unless the caller gets
the whole batch. -/
def forgottenBy (result : Option FlushBatch) (batch : FlushBatch) : ScopedEvents :=
  if result.isSome then [] else batch.cancelledEvents.map fun e => (batch.scope, e)

theorem requeue_carried (q : EventQueue) (now : Nat) (order : Order) (jitter : Nat)
    (batch : FlushBatch) :
    q.held + ofList batch.carried =
      (q.requeue now order jitter batch).1.held +
        ofList ((q.requeue now order jitter batch).2.1.elim [] FlushBatch.carried) +
        ofList (q.requeue now order jitter batch).2.2 +
        ofList (forgottenBy (q.requeue now order jitter batch).2.1 batch) := by
  have hheld := requeue_held q now order jitter batch
  rw [requeue_result] at hheld ⊢
  rw [carried_ledger]
  split at hheld
  · next hdead =>
      rw [if_pos hdead]
      dsimp only [Option.elim_some, forgottenBy, Option.isSome_some] at hheld ⊢
      rw [if_pos rfl, ofList_nil, add_zero, carried_ledger, ← add_assoc, hheld]
      abel
  · next hdead =>
      have hforgotten := ofList_map_pair batch.scope (id : BatchEvent → BatchEvent)
        batch.cancelledEvents
      rw [List.map_id] at hforgotten
      rw [if_neg hdead, ← add_assoc, hheld, ← hforgotten]
      rfl

theorem requeuePreserveTimestamps_held (q : EventQueue) (order : Order) (batch : FlushBatch) :
    q.held + ofList batch.carried =
      (q.requeuePreserveTimestamps order batch).1.held +
        ofList (q.requeuePreserveTimestamps order batch).2 := by
  have hfront := pushFrontAll_ledger order q.queues batch.scope (batch.events.map batch.requeued)
  rw [map_requeued] at hfront
  rw [carried_ledger]
  unfold requeuePreserveTimestamps
  split
  · next hempty =>
      unfold held
      rw [List.isEmpty_iff.1 hempty, single_nil, add_zero, add_assoc (queuedLedger q.queues),
        add_right_comm, hfront]
      abel
  · unfold held
    have hnew := ofMap_insert (id : BatchEvent → BatchEvent) q.cancelledBatches batch.scope
      (batch.cancelledEvents ++ (q.cancelledBatches.lookup batch.scope).getD [])
    rw [List.map_id, single_append] at hnew
    rw [hnew, cancelled_ledger _ batch.scope]
    calc _ = (queuedLedger q.queues + single batch.scope batch.events) +
          (queuedLedger q.withheldNativeSteer +
            (single batch.scope ((q.cancelledBatches.lookup batch.scope).getD []) +
              ofMap id (q.cancelledBatches.erase batch.scope) +
                single batch.scope batch.cancelledEvents)) := by abel
      _ = _ := by rw [hfront]; abel

theorem requeueAsCancelled_held (q : EventQueue) (batch : FlushBatch) (reason : CancelReason) :
    q.held + ofList batch.carried = (q.requeueAsCancelled batch reason).held := by
  rw [carried_ledger]
  unfold requeueAsCancelled held
  have hnew := ofMap_insert (id : BatchEvent → BatchEvent) q.cancelledBatches batch.scope
    ((q.cancelledBatches.lookup batch.scope).getD [] ++ batch.cancelledEvents ++ batch.events)
  rw [List.map_id, single_append, single_append] at hnew
  rw [hnew, cancelled_ledger _ batch.scope]
  abel

/-! ## Steering -/

theorem single_find_eraseP {p : QueuedEvent → Bool} {queue : List QueuedEvent} {e : QueuedEvent}
    (scope : SessionScope) (h : queue.find? p = some e) :
    single scope (queue.map QueuedEvent.intoBatchEvent) =
      single scope [e.intoBatchEvent] +
        single scope ((queue.eraseP p).map QueuedEvent.intoBatchEvent) := by
  rw [← single_append]
  refine single_perm scope ?_
  show (queue.map _).Perm ((e :: queue.eraseP p).map QueuedEvent.intoBatchEvent)
  refine List.Perm.map _ ?_
  obtain ⟨hp, before, after, rfl, hbefore⟩ := List.find?_eq_some_iff_append.1 h
  rw [List.eraseP_append_right _ fun b hb => by simpa using hbefore b hb,
    List.eraseP_cons_of_pos hp]
  exact List.perm_middle

theorem markNativeSteerPending_held (q : EventQueue) (scope : SessionScope) (eventId : String) :
    (q.markNativeSteerPending scope eventId).1.held = q.held := by
  unfold markNativeSteerPending
  split
  · rfl
  · next queue hlookup =>
      split
      · rfl
      · next e he =>
          unfold held
          have hqueue : queuedLedger q.queues = single scope [e.intoBatchEvent] +
              single scope ((queue.eraseP fun e => e.event.id.toHex = eventId).map
                QueuedEvent.intoBatchEvent) + queuedLedger (q.queues.erase scope) := by
            rw [← single_find_eraseP scope he, queuedLedger, ofMap_eq_add_erase _ _ scope, hlookup]
            rfl
          have hwithheld : queuedLedger (q.withheldNativeSteer.insert scope
              ((q.withheldNativeSteer.lookup scope).getD [] ++ [e])) =
              queuedLedger q.withheldNativeSteer + single scope [e.intoBatchEvent] := by
            rw [queuedLedger, queuedLedger, ofMap_insert,
              ofMap_eq_add_erase _ q.withheldNativeSteer scope, List.map_append, single_append]
            exact add_right_comm _ _ _
          rw [hqueue, hwithheld]
          simp only [queuedLedger, ofMap_insert_or_erase]
          abel

theorem releaseNativeSteer_held (q : EventQueue) (order : Order) (scope : SessionScope)
    (eventId : String) :
    q.held = (q.releaseNativeSteer order scope eventId).1.held +
      ofList (q.releaseNativeSteer order scope eventId).2 := by
  unfold releaseNativeSteer
  split
  · exact (add_zero _).symm
  · next entries hlookup =>
      split
      · exact (add_zero _).symm
      · next e he =>
          have hfront := pushFrontAll_ledger order q.queues scope [e]
          have hwithheld : queuedLedger q.withheldNativeSteer = single scope [e.intoBatchEvent] +
              single scope ((entries.eraseP fun e => e.event.id.toHex = eventId).map
                QueuedEvent.intoBatchEvent) + queuedLedger (q.withheldNativeSteer.erase scope) := by
            rw [← single_find_eraseP scope he, queuedLedger, ofMap_eq_add_erase _ _ scope, hlookup]
            rfl
          unfold held
          rw [hwithheld]
          simp only [queuedLedger, ofMap_insert_or_erase] at hfront ⊢
          calc _ = (ofMap QueuedEvent.intoBatchEvent q.queues +
                single scope ([e].map QueuedEvent.intoBatchEvent)) +
                (single scope ((entries.eraseP fun e => e.event.id.toHex = eventId).map
                    QueuedEvent.intoBatchEvent) +
                  ofMap QueuedEvent.intoBatchEvent (q.withheldNativeSteer.erase scope) +
                  ofMap id q.cancelledBatches) := by
                simp only [List.map_cons, List.map_nil]; abel
            _ = _ := by rw [hfront]; abel

theorem retainEvents_ledger (m : HMap SessionScope (List QueuedEvent)) (scope : SessionScope)
    (eventId : String) :
    queuedLedger m = queuedLedger (retainEvents m scope eventId) +
      single scope ((((m.lookup scope).getD []).filter fun e => e.event.id.toHex = eventId).map
        QueuedEvent.intoBatchEvent) := by
  unfold retainEvents
  split
  · next hlookup =>
      rw [hlookup]
      exact (add_zero _).symm.trans (congrArg (_ + ·) (single_nil scope).symm)
  · next entries hlookup =>
      have hsplit := single_filter_add scope QueuedEvent.intoBatchEvent
        (fun e => decide (e.event.id.toHex = eventId)) entries
      rw [hlookup, queuedLedger, ofMap_eq_add_erase _ m scope, hlookup, queuedLedger]
      simp only [ofMap_insert_or_erase, Option.getD_some, ← hsplit, decide_not]
      abel

theorem removeEvent_held (q : EventQueue) (scope : SessionScope) (eventId : String) :
    q.held = (q.removeEvent scope eventId).held + ofList (eventsWithId q scope eventId) := by
  unfold removeEvent held eventsWithId
  have hqueues := retainEvents_ledger q.queues scope eventId
  have hwithheld := retainEvents_ledger q.withheldNativeSteer scope eventId
  rw [ofList_map_pair, List.filter_append, List.map_append, single_append]
  conv_lhs => rw [hqueues, hwithheld]
  abel

theorem drainChannel_held (q : EventQueue) (order : Order) (channel : Uuid) :
    q.held = (q.drainChannel order channel).1.held + ofList (channelEvents q channel) := by
  let own : SessionScope → Bool := fun s => s.channelId = channel
  have hremoved : ofList (channelEvents q channel) = restrict own q.held := by
    refine (ofList_filter_key own _).trans (congrArg (restrict own) ?_)
    rw [ofList_append, ofList_append, ofList_pairs, ofList_pairs, ofList_pairs, held]
    abel
  have hkept : (q.drainChannel order channel).1.held = restrict (fun s => !own s) q.held := by
    unfold drainChannel held
    rw [restrict_add, restrict_add, ← ofMap_retain, ← ofMap_retain, ← ofMap_retain]
  rw [hremoved, hkept, add_comm, restrict_add_restrict_not]

/-- The end of a turn releases its scope and settles its retries, and leaves the
rest of the queue as it is. -/
theorem markComplete_eq (q : EventQueue) (now : Nat) (scope : SessionScope) :
    ∃ after counts, q.markComplete now scope =
      { q.release scope with retryAfter := after, retryCounts := counts } := by
  unfold markComplete
  dsimp only
  split
  · split
    · exact ⟨_, _, rfl⟩
    · exact ⟨_, _, rfl⟩
  · exact ⟨_, _, rfl⟩

theorem markComplete_held (q : EventQueue) (now : Nat) (scope : SessionScope) :
    (q.markComplete now scope).held = q.held := by
  obtain ⟨after, counts, h⟩ := markComplete_eq q now scope
  rw [h]
  rfl

theorem extendInFlightDeadline_held (q : EventQueue) (now : Nat) (scope : SessionScope)
    (maxTurnSecs : Nat) : (q.extendInFlightDeadline now scope maxTurnSecs).held = q.held := by
  unfold extendInFlightDeadline
  split
  · rfl
  · dsimp only
    split <;> rfl

/-! ## Runs -/

/-- What a flushed batch still has to account for. -/
def Flushed.outstanding (f : Flushed) : ScopedEvents :=
  if f.phase = .running then f.batch.carried else []

def outstandingLedger (flushed : List Flushed) : EventLedger :=
  ofList (flushed.flatMap Flushed.outstanding)

theorem outstandingLedger_append (flushed flushed' : List Flushed) :
    outstandingLedger (flushed ++ flushed') =
      outstandingLedger flushed + outstandingLedger flushed' := by
  rw [outstandingLedger, List.flatMap_append, ofList_append]
  rfl

theorem outstandingLedger_markExpired (scopes : List SessionScope) (flushed : List Flushed) :
    outstandingLedger (markExpired scopes flushed) = outstandingLedger flushed := by
  unfold outstandingLedger markExpired
  rw [List.flatMap_map]
  congr 2
  funext f
  split <;> rfl

/-- One batch of the list goes into another phase. -/
theorem outstandingLedger_set {flushed : List Flushed} {i : Nat} {f : Flushed} (g : Flushed)
    (h : flushed[i]? = some f) :
    outstandingLedger (flushed.set i g) + ofList f.outstanding =
      outstandingLedger flushed + ofList g.outstanding := by
  induction flushed generalizing i with
  | nil => cases h
  | cons x rest ih =>
      cases i with
      | zero =>
          cases h
          unfold outstandingLedger
          rw [List.set_cons_zero, List.flatMap_cons, List.flatMap_cons, ofList_append,
            ofList_append]
          abel
      | succ i =>
          have hrest := ih (i := i) h
          unfold outstandingLedger at hrest ⊢
          rw [List.set_cons_succ, List.flatMap_cons, List.flatMap_cons, ofList_append,
            ofList_append, add_assoc, hrest]
          abel

/-- Every event that was accepted is in one queue, withheld, among the cancelled
ones or out with a batch; or it was delivered, removed or dropped by a cap. It
is as often in these as it was accepted. -/
def Balanced (s : Harness) : Prop :=
  ofList s.accepted =
    s.queue.held + outstandingLedger s.flushed + ofList s.delivered + ofList s.removed +
      ofList s.evicted

/-- The same with what `requeue` left behind. -/
def Accounted (s : Harness) : Prop :=
  ofList s.accepted =
    s.queue.held + outstandingLedger s.flushed + ofList s.delivered + ofList s.removed +
      ofList s.evicted + ofList s.forgotten

variable {s : Harness}

theorem Accounted.settle (h : Accounted s) (order : Order) (i : Nat)
    (how : Settlement) : Accounted (s.settle order i how) := by
  unfold Harness.settle
  split
  · next batch expired hi =>
      have hset := outstandingLedger_set (⟨batch, .settled, expired⟩ : Flushed) hi
      have hrunning : ofList (Flushed.outstanding ⟨batch, .running, expired⟩) =
          ofList batch.carried := rfl
      have hsettled : ofList (Flushed.outstanding ⟨batch, .settled, expired⟩) = 0 := rfl
      rw [hrunning, hsettled, add_zero] at hset
      unfold Accounted at h ⊢
      rw [← hset] at h
      have hmove : ofList s.accepted = (s.queue.held + ofList batch.carried) +
          (outstandingLedger (s.flushed.set i ⟨batch, .settled, expired⟩) +
            ofList s.delivered + ofList s.removed + ofList s.evicted + ofList s.forgotten) := by
        rw [h]
        abel
      cases how with
      | requeue jitter =>
          have hheld := requeue_carried s.queue s.now order jitter batch
          unfold forgottenBy at hheld
          rw [hmove, hheld, ofList_append, ofList_append, ofList_append]
          abel
      | preserveTimestamps =>
          rw [hmove, requeuePreserveTimestamps_held s.queue order batch, ofList_append]
          abel
      | asCancelled reason =>
          rw [hmove, requeueAsCancelled_held s.queue batch reason]
          abel
  · exact h

theorem Accounted.markComplete (h : Accounted s) (i : Nat) :
    Accounted (s.markComplete i) := by
  unfold Harness.markComplete
  split
  · next batch phase expired hi =>
      split
      · exact h
      · next hphase =>
          have hset := outstandingLedger_set (⟨batch, .finished, expired⟩ : Flushed) hi
          have hfinished : ofList (Flushed.outstanding ⟨batch, .finished, expired⟩) = 0 := rfl
          rw [hfinished, add_zero] at hset
          unfold Accounted at h ⊢
          rw [markComplete_held, h, ← hset]
          cases phase with
          | running =>
              rw [if_pos rfl, ofList_append]
              show _ + (_ + ofList batch.carried) + _ + _ + _ + _ = _
              abel
          | settled =>
              rw [if_neg (by decide)]
              show _ + (_ + 0) + _ + _ + _ + _ = _
              rw [add_zero]
          | finished => exact (hphase rfl).elim
  · exact h

theorem Accounted.act (h : Accounted s) (order : Order) (move : Move) :
    Accounted (s.act order move) := by
  cases move with
  | push event =>
      have hheld := push_held s.queue order event
      unfold Harness.act Accounted at *
      have haccepted : ofList (if (s.queue.push order event).2.1 then
          s.accepted ++ [(event.scope, event.intoBatchEvent)] else s.accepted) =
          ofList s.accepted + pushedLedger (s.queue.push order event).2.1 event := by
        unfold pushedLedger
        split
        · rw [ofList_append, ofList_cons, ofList_nil, add_zero]
        · exact (add_zero _).symm
      rw [haccepted, h, ofList_append]
      calc _ = (s.queue.held + pushedLedger (s.queue.push order event).2.1 event) +
            (outstandingLedger s.flushed + ofList s.delivered + ofList s.removed +
              ofList s.evicted + ofList s.forgotten) := by abel
        _ = _ := by rw [hheld]; abel
  | flushNext =>
      have hheld := flushNext_held s.queue s.now order
      have hbatch : outstandingLedger ((s.queue.flushNext s.now order).2.1.toList.map
          fun batch => { batch := batch }) = flushedLedger (s.queue.flushNext s.now order).2.1 := by
        cases (s.queue.flushNext s.now order).2.1 with
        | none => rfl
        | some batch => exact congrArg ofList (List.append_nil _)
      unfold Harness.act Accounted at *
      rw [h, hheld, ofList_append, outstandingLedger_append, outstandingLedger_markExpired, hbatch]
      abel
  | hasFlushableWork =>
      have hheld := hasFlushableWork_held s.queue s.now order
      unfold Harness.act Accounted at *
      rw [h, hheld, ofList_append, outstandingLedger_markExpired]
      abel
  | extendInFlightDeadline scope maxTurnSecs =>
      unfold Harness.act Accounted at *
      rw [h, extendInFlightDeadline_held]
  | settle i how => exact h.settle order i how
  | markComplete i => exact h.markComplete i
  | markNativeSteerPending scope eventId =>
      unfold Harness.act Accounted at *
      rw [h, markNativeSteerPending_held]
  | releaseNativeSteer scope eventId =>
      have hheld := releaseNativeSteer_held s.queue order scope eventId
      unfold Harness.act Accounted at *
      rw [h, hheld, ofList_append]
      abel
  | removeEvent scope eventId =>
      have hheld := removeEvent_held s.queue scope eventId
      unfold Harness.act Accounted at *
      rw [h, hheld, ofList_append]
      abel
  | drainChannel channel =>
      have hheld := drainChannel_held s.queue order channel
      unfold Harness.act Accounted at *
      rw [h, hheld, ofList_append]
      abel
  | compactExpiredState => exact h

theorem accounted_run (mode : DedupMode) (maxTurnSecs : Nat) (ms : List TimedMove) :
    Accounted ((harness mode maxTurnSecs).run ms) := by
  have hinit : Accounted (harness mode maxTurnSecs).init := rfl
  refine (harness mode maxTurnSecs).stable_runFrom (I := Accounted) (fun s m hs => ?_) hinit ms
  have hs' : Accounted { s with now := s.now + m.elapsed } := hs
  exact hs'.act m.order m.move

/-- No batch with cancelled events goes back through `requeue`, unless it is
dead-lettered and goes to the caller as a whole. -/
def requeueKeepsAll (s : Harness) (m : TimedMove) : Bool :=
  match m.move with
  | .settle i (.requeue _) =>
      (s.flushed[i]?).all fun f =>
        f.phase != .running || f.batch.cancelledEvents.isEmpty ||
          maxRetries ≤ (s.queue.retryCounts.lookup f.batch.scope).getD 0
  | _ => true

theorem forgotten_settle {order : Order} {i : Nat} {how : Settlement}
    (h : s.forgotten = [])
    (hkeeps : ∀ jitter, how = .requeue jitter → ∀ f ∈ s.flushed[i]?, f.phase = .running →
      f.batch.cancelledEvents = [] ∨
      maxRetries ≤ (s.queue.retryCounts.lookup f.batch.scope).getD 0) :
    (s.settle order i how).forgotten = [] := by
  unfold Harness.settle
  split
  · next batch expired hi =>
      cases how with
      | requeue jitter =>
          dsimp only
          rw [h, List.nil_append, requeue_result]
          split
          · rfl
          · next halive =>
              have hempty : batch.cancelledEvents = [] :=
                (hkeeps jitter rfl _ hi rfl).resolve_right halive
              rw [hempty]
              rfl
      | preserveTimestamps => exact h
      | asCancelled reason => exact h
  · exact h

theorem forgotten_step {m : TimedMove} (h : s.forgotten = [])
    (hkeeps : requeueKeepsAll s m = true) : (s.step m).forgotten = [] := by
  obtain ⟨elapsed, order, move⟩ := m
  unfold Harness.step
  cases move with
  | settle i how =>
      refine forgotten_settle h fun jitter hhow f hf hphase => ?_
      subst hhow
      unfold requeueKeepsAll at hkeeps
      simp only [Option.mem_def.1 hf, Option.all_some, hphase, Bool.or_eq_true,
        bne_self_eq_false, Bool.false_eq_true, false_or, List.isEmpty_iff,
        decide_eq_true_iff] at hkeeps
      exact hkeeps
  | markComplete i =>
      show (Harness.markComplete _ i).forgotten = []
      unfold Harness.markComplete
      split
      · split
        · exact h
        · exact h
      · exact h
  | _ => exact h

/-- As long as no batch with cancelled events goes through `requeue`, nothing the
queue accepted is lost or doubled, in no run. -/
theorem queue_conserves_events (mode : DedupMode) (maxTurnSecs : Nat) (ms : List TimedMove)
    (h : (harness mode maxTurnSecs).Meets (fun s m => requeueKeepsAll s m = true)
      (harness mode maxTurnSecs).init ms) :
    Balanced ((harness mode maxTurnSecs).run ms) := by
  have hnone : ((harness mode maxTurnSecs).run ms).forgotten = [] :=
    (harness mode maxTurnSecs).inv_run (I := fun s => s.forgotten = []) rfl
      (fun s m hs hm => forgotten_step hs hm) h
  have haccounted := accounted_run mode maxTurnSecs ms
  rwa [Accounted, hnone, ofList_nil, add_zero] at haccounted

/-- A request is cancelled for a second one; the turn with both fails. -/
def failedMerge : List TimedMove :=
  atOnce [.push (message 1 10 1), .flushNext, .settle 0 (.asCancelled .interrupt), .markComplete 0,
    .push (message 2 20 2), .flushNext, .settle 1 (.requeue 0), .markComplete 1]

/-- The first request is nowhere any more. -/
theorem requeue_forgets_cancelled_events :
    ¬ Balanced ((harness .queue 3600).run failedMerge) := by
  intro h
  have hcard := congrArg Multiset.card (congrFun h lobby)
  revert hcard
  decide +kernel

/-- The same two requests with a turn that is held back before it fails. -/
theorem queue_conserves_events_merge :
    Balanced ((harness .queue 3600).run (atOnce [.push (message 1 10 1), .flushNext,
      .settle 0 (.asCancelled .interrupt), .markComplete 0, .push (message 2 20 2), .flushNext,
      .settle 1 .preserveTimestamps, .markComplete 1, .flushNext, .markComplete 2])) :=
  queue_conserves_events .queue 3600 _ (by decide +kernel)

end Buzz.Acp
