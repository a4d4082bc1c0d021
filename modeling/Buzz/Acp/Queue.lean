import Buzz.Core.Kind
import Buzz.Core.Nip10
import Buzz.Lib.HashMap
import Mathlib.Data.List.MinMax
import Mathlib.Data.List.Sort
import Mathlib.Data.Prod.Lex

/-!
# The event queue of the agent harness

`buzz-acp/src/queue.rs`: events wait in one queue for each session scope. A
flush takes a batch out of the queue whose head is oldest and marks its scope in
flight; the batch comes back through `requeue` and its siblings, or is done, and
`mark_complete` frees the scope. Next to the queues there are the events of
cancelled batches, which the next batch of the scope carries along, and those
withheld while they are steered into a running turn.

The clock and the order in which a hash map is walked are arguments. What a cap
drops is returned beside the queue: the source logs it.

Not modelled is how a running prompt routes its replies (`PromptRouting`), which
only the steer guard reads.
-/

namespace Buzz.Acp

open Buzz.Lib (HMap)

inductive SessionScope where
  | conversation (channelId : Uuid)
  | thread (channelId : Uuid) (rootEventId : String)
deriving DecidableEq

def SessionScope.channelId : SessionScope → Uuid
  | conversation channelId => channelId
  | thread channelId _ => channelId

structure ThreadTags where
  rootEventId : Option String := none
  parentEventId : Option String := none
  mentionedPubkeys : List String := []
deriving DecidableEq

structure ResolvedEdit where
  targetEventId : String
  targetThreadTags : ThreadTags
deriving DecidableEq

structure QueuedEvent where
  channelId : Uuid
  scope : SessionScope
  event : Event
  receivedAt : Nat
  promptTag : String
  edit : Option ResolvedEdit
  belongs : scope.channelId = channelId
deriving DecidableEq

structure BatchEvent where
  event : Event
  promptTag : String
  receivedAt : Nat
  edit : Option ResolvedEdit
deriving DecidableEq

def QueuedEvent.intoBatchEvent (e : QueuedEvent) : BatchEvent :=
  ⟨e.event, e.promptTag, e.receivedAt, e.edit⟩

inductive CancelReason where
  | interrupt
  | steer
deriving DecidableEq

structure FlushBatch where
  channelId : Uuid
  scope : SessionScope
  events : List BatchEvent
  cancelledEvents : List BatchEvent
  cancelReason : Option CancelReason
  belongs : scope.channelId = channelId
deriving DecidableEq

/-- An event of a batch, on its way back into the queue of the batch's scope. -/
def FlushBatch.requeued (batch : FlushBatch) (e : BatchEvent) : QueuedEvent :=
  ⟨batch.channelId, batch.scope, e.event, e.receivedAt, e.promptTag, e.edit, batch.belongs⟩

/-! ## Where replies go -/

def kindStreamMessageEdit : Nat := 40003

variable (event : Event)

def editTargetId : Option String :=
  if Core.eventKind event ≠ kindStreamMessageEdit then none
  else
    event.tags.findSome? fun tag =>
      match tag.asSlice with
      | "e" :: target :: _ => (Bytes32.ofHex target).map Bytes32.toHex
      | _ => none

def reactionTargetId : String := (editTargetId event).getD event.id.toHex

def parseThreadTags : ThreadTags :=
  let resolved := (Core.parseThreadMarkers event.tags).resolve
  { rootEventId := resolved.map Prod.fst
    parentEventId := resolved.map Prod.snd
    mentionedPubkeys := event.tags.filterMap fun tag =>
      match tag.asSlice with
      | "p" :: pubkey :: _ => some pubkey
      | _ => none }

def routingThreadTags (edit : Option ResolvedEdit) : ThreadTags :=
  if (editTargetId event).isNone then parseThreadTags event
  else
    match edit with
    | some edit => edit.targetThreadTags
    | none => { mentionedPubkeys := (parseThreadTags event).mentionedPubkeys }

def toAsciiLowercase (text : String) : String := String.ofList (text.toList.map Char.toLower)

def replyThread (edit : Option ResolvedEdit) : String :=
  toAsciiLowercase (((routingThreadTags event edit).rootEventId).getD (reactionTargetId event))

structure ReplyRoute where
  rootEventId : Option String
  thread : String
deriving DecidableEq

def BatchEvent.replyRoute (e : BatchEvent) : ReplyRoute where
  rootEventId := (routingThreadTags e.event e.edit).rootEventId.map toAsciiLowercase
  thread := replyThread e.event e.edit

/-! ## The state -/

def maxPendingPerScope : Nat := 500
def maxPendingPerChannel : Nat := 500
def maxBatchEvents : Nat := 50
def maxRetries : Nat := 10

/-- Times are nanoseconds. -/
def second : Nat := 1000000000

def baseRetryDelaySecs : Nat := 5
def maxRetryDelaySecs : Nat := 300
def inFlightDeadlineBufferSecs : Nat := 100

inductive DedupMode where
  | drop
  | queue
deriving DecidableEq

abbrev Queues := HMap SessionScope (List QueuedEvent)

structure EventQueue where
  queues : Queues := ∅
  inFlightScopes : Finset SessionScope := ∅
  inFlightDeadlines : HMap SessionScope Nat := ∅
  inFlightBatchSizes : HMap SessionScope Nat := ∅
  inFlightReplyRoutes : HMap SessionScope ReplyRoute := ∅
  retryAfter : HMap SessionScope Nat := ∅
  retryCounts : HMap SessionScope Nat := ∅
  dedupMode : DedupMode
  cancelledBatches : HMap SessionScope (List BatchEvent) := ∅
  cancelReasons : HMap SessionScope CancelReason := ∅
  withheldNativeSteer : HMap SessionScope (List QueuedEvent) := ∅
  inFlightDeadline : Nat

/-- The order in which a hash map happens to be walked. -/
abbrev Order := SessionScope → Nat

def iter {ν : Type} (order : Order) (m : HMap SessionScope ν) : List ((_ : SessionScope) × ν) :=
  m.entries.insertionSort fun a b => order a.1 ≤ order b.1

/-- Events, each with the scope whose queue it was in. -/
abbrev ScopedEvents := List (SessionScope × BatchEvent)

/-! ## The caps -/

def channelEventTotal (queues : Queues) (channel : Uuid) : Nat :=
  queues.sum fun s q => if s.channelId = channel then q.length else 0

/-- When the head of a queue was received. -/
def headReceivedAt (q : List QueuedEvent) : Nat := (q.head?.map QueuedEvent.receivedAt).getD 0

/-- The scope with the oldest head among the non-empty queues that pass. -/
def oldestScope (order : Order) (queues : Queues) (p : SessionScope → Bool) :
    Option SessionScope :=
  (((iter order queues).filter fun e => p e.1 && !e.2.isEmpty).argmin
    fun e => headReceivedAt e.2).map Sigma.fst

/-- Take the head of a queue out of it, and the queue out of the map with it if
that was all. -/
def popFront (queues : Queues) (scope : SessionScope) :
    Option (Queues × (SessionScope × BatchEvent)) :=
  match queues.lookup scope with
  | some (e :: rest) =>
      some (if rest.isEmpty then queues.erase scope else queues.insert scope rest,
        (scope, e.intoBatchEvent))
  | _ => none

/-- The loop of `enforce_channel_cap`; each round drops one event. -/
def enforceChannelCapLoop (order : Order) (channel : Uuid) : Nat → Queues → Queues × ScopedEvents
  | 0, queues => (queues, [])
  | fuel + 1, queues =>
      if channelEventTotal queues channel ≤ maxPendingPerChannel then (queues, [])
      else
        match (oldestScope order queues fun s => s.channelId = channel).bind (popFront queues) with
        | none => (queues, [])
        | some (queues', dropped) =>
            let rest := enforceChannelCapLoop order channel fuel queues'
            (rest.1, dropped :: rest.2)

def enforceChannelCap (order : Order) (queues : Queues) (channel : Uuid) : Queues × ScopedEvents :=
  enforceChannelCapLoop order channel (channelEventTotal queues channel) queues

/-- Events pushed in front of a queue, in their order; what is over the cap falls
off the back. -/
def pushFrontAll (order : Order) (queues : Queues) (scope : SessionScope)
    (events : List QueuedEvent) : Queues × ScopedEvents :=
  let queue := events ++ (queues.lookup scope).getD []
  let capped := enforceChannelCap order (queues.insert scope (queue.take maxPendingPerScope))
    scope.channelId
  (capped.1,
    (queue.drop maxPendingPerScope).map (fun e => (scope, e.intoBatchEvent)) ++ capped.2)

/-- An event pushed behind a queue; a full one loses its head. -/
def pushBack (order : Order) (queues : Queues) (event : QueuedEvent) : Queues × ScopedEvents :=
  let queue := (queues.lookup event.scope).getD []
  let excess := if maxPendingPerScope ≤ queue.length then 1 else 0
  let capped := enforceChannelCap order
    (queues.insert event.scope (queue.drop excess ++ [event])) event.channelId
  (capped.1, (queue.take excess).map (fun e => (event.scope, e.intoBatchEvent)) ++ capped.2)

namespace EventQueue

variable (q : EventQueue)

/-- `push`: whether the event was accepted, and what the caps dropped for it. -/
def push (order : Order) (event : QueuedEvent) :
    EventQueue × Bool × ScopedEvents :=
  if q.dedupMode = .drop ∧ event.scope ∈ q.inFlightScopes then (q, false, [])
  else
    let back := pushBack order q.queues event
    ({ q with queues := back.1 }, true, back.2)

def extendInFlightDeadline (now : Nat) (scope : SessionScope)
    (maxTurnSecs : Nat) : EventQueue :=
  match q.inFlightDeadlines.lookup scope with
  | none => q
  | some current =>
      let extended := now + (maxTurnSecs + inFlightDeadlineBufferSecs) * second
      if current < extended then
        { q with inFlightDeadlines := q.inFlightDeadlines.insert scope extended }
      else q

/-! ## Flushing -/

def recoverWithheldForExpiredScope (order : Order) (scope : SessionScope) :
    EventQueue × ScopedEvents :=
  match q.withheldNativeSteer.lookup scope with
  | none => (q, [])
  | some entries =>
      let front := pushFrontAll order q.queues scope entries
      ({ q with
          queues := front.1
          withheldNativeSteer := q.withheldNativeSteer.erase scope }, front.2)

/-- A scope that is not in flight any more. -/
def release (scope : SessionScope) : EventQueue :=
  { q with
    inFlightScopes := q.inFlightScopes.erase scope
    inFlightDeadlines := q.inFlightDeadlines.erase scope
    inFlightBatchSizes := q.inFlightBatchSizes.erase scope
    inFlightReplyRoutes := q.inFlightReplyRoutes.erase scope }

/-- The scopes whose turn outlived its deadline. -/
def expiredScopes (now : Nat) (order : Order) : List SessionScope :=
  ((iter order q.inFlightDeadlines).filter fun e => e.2 ≤ now).map Sigma.fst

/-- The expiry block of `flush_next` and `has_flushable_work`. -/
def expire (q : EventQueue) (order : Order) : List SessionScope → EventQueue × ScopedEvents
  | [] => (q, [])
  | scope :: rest =>
      let recovered := (q.release scope).recoverWithheldForExpiredScope order scope
      let later := recovered.1.expire order rest
      (later.1, recovered.2 ++ later.2)

/-- Neither in flight nor throttled. -/
def ready (now : Nat) (scope : SessionScope) : Bool :=
  scope ∉ q.inFlightScopes && ((q.retryAfter.lookup scope).all (· ≤ now))

def recordInFlightReplyRoute (routes : HMap SessionScope ReplyRoute) (scope : SessionScope)
    (events : List BatchEvent) : HMap SessionScope ReplyRoute :=
  match events.getLast? with
  | some last => routes.insert scope last.replyRoute
  | none => routes.erase scope

/-- The bookkeeping of a batch that goes out. -/
def setInFlight (now : Nat) (scope : SessionScope) (events : List BatchEvent) :
    EventQueue :=
  { q with
    inFlightScopes := insert scope q.inFlightScopes
    inFlightDeadlines := q.inFlightDeadlines.insert scope (now + q.inFlightDeadline)
    inFlightBatchSizes := q.inFlightBatchSizes.insert scope events.length
    inFlightReplyRoutes := recordInFlightReplyRoute q.inFlightReplyRoutes scope events }

/-- The scope whose cancelled events go out when no queue is ready. -/
def cancelledScope (order : Order) : Option SessionScope :=
  ((iter order q.cancelledBatches).find? fun e => e.1 ∉ q.inFlightScopes).map Sigma.fst

/-- The cancelled events alone, as a regular batch. -/
def flushCancelled (now : Nat) (scope : SessionScope) :
    EventQueue × FlushBatch :=
  let cancelled := (q.cancelledBatches.lookup scope).getD []
  ({ q.setInFlight now scope cancelled with
      cancelledBatches := q.cancelledBatches.erase scope
      cancelReasons := q.cancelReasons.erase scope },
    { channelId := scope.channelId
      scope := scope
      events := cancelled
      cancelledEvents := []
      cancelReason := q.cancelReasons.lookup scope
      belongs := rfl })

/-- Up to `MAX_BATCH_EVENTS` events of the queue, oldest first, with the scope's
cancelled events beside them. -/
def flushQueue (now : Nat) (scope : SessionScope) : EventQueue × FlushBatch :=
  let queue := (q.queues.lookup scope).getD []
  let rest := queue.drop maxBatchEvents
  let events := ((queue.take maxBatchEvents).map QueuedEvent.intoBatchEvent).insertionSort
    fun a b => a.event.createdAt ≤ b.event.createdAt
  let cancelled := (q.cancelledBatches.lookup scope).getD []
  ({ q.setInFlight now scope events with
      queues := if rest.isEmpty then q.queues.erase scope else q.queues.insert scope rest
      cancelledBatches := q.cancelledBatches.erase scope
      cancelReasons := q.cancelReasons.erase scope },
    { channelId := scope.channelId
      scope := scope
      events := events
      cancelledEvents := cancelled
      cancelReason := if cancelled.isEmpty then none else q.cancelReasons.lookup scope
      belongs := rfl })

def flushNext (now : Nat) (order : Order) :
    EventQueue × Option FlushBatch × ScopedEvents :=
  let expired := q.expire order (q.expiredScopes now order)
  let q := expired.1
  match oldestScope order q.queues (q.ready now) with
  | some scope =>
      let flushed := q.flushQueue now scope
      (flushed.1, some flushed.2, expired.2)
  | none =>
      match q.cancelledScope order with
      | some scope =>
          let flushed := q.flushCancelled now scope
          (flushed.1, some flushed.2, expired.2)
      | none => (q, none, expired.2)

def hasFlushableWork (now : Nat) (order : Order) :
    EventQueue × Bool × ScopedEvents :=
  let expired := q.expire order (q.expiredScopes now order)
  let q := expired.1
  (q,
    (q.queues.entries.any fun e => !e.2.isEmpty && q.ready now e.1) ||
      (q.cancelledBatches.keys.any fun scope => scope ∉ q.inFlightScopes),
    expired.2)

/-- `has_undispatched_work`: it does not look at the throttle or the clock. -/
def hasUndispatchedWork : Bool :=
  (q.queues.entries.any fun e => !e.2.isEmpty && decide (e.1 ∉ q.inFlightScopes)) ||
    (q.cancelledBatches.keys.any fun scope => scope ∉ q.inFlightScopes) ||
    (q.withheldNativeSteer.entries.any fun e => !e.2.isEmpty && decide (e.1 ∉ q.inFlightScopes))

/-! ## What becomes of a batch -/

def markComplete (now : Nat) (scope : SessionScope) : EventQueue :=
  let q := q.release scope
  match q.retryAfter.lookup scope with
  | some deadline =>
      if now < deadline then q
      else
        { q with
          retryAfter := q.retryAfter.erase scope
          retryCounts := q.retryCounts.erase scope }
  | none => { q with retryCounts := q.retryCounts.erase scope }

/-- The wait before the next attempt: doubled every time and capped, times
`0.8` and up. The jitter comes from the clock, in billionths. -/
def retryDelay (attempt jitter : Nat) : Nat :=
  min (baseRetryDelaySecs * 2 ^ min (attempt - 1) 6) maxRetryDelaySecs * (800000000 + jitter)

/-- `requeue`: back in front of the queue with a throttle, or out with it after
`MAX_RETRIES` attempts. -/
def requeue (now : Nat) (order : Order) (jitter : Nat) (batch : FlushBatch) :
    EventQueue × Option FlushBatch × ScopedEvents :=
  let attempt := (q.retryCounts.lookup batch.scope).getD 0 + 1
  if maxRetries < attempt then
    ({ q with
        retryCounts := q.retryCounts.erase batch.scope
        retryAfter := q.retryAfter.erase batch.scope }, some batch, [])
  else
    let front := pushFrontAll order q.queues batch.scope (batch.events.map batch.requeued)
    ({ q with
        queues := front.1
        retryCounts := q.retryCounts.insert batch.scope attempt
        retryAfter := q.retryAfter.insert batch.scope (now + retryDelay attempt jitter) },
      none, front.2)

/-- `requeue_preserve_timestamps`: the whole batch goes back, its cancelled
events in front of what was cancelled since. -/
def requeuePreserveTimestamps (order : Order) (batch : FlushBatch) :
    EventQueue × ScopedEvents :=
  let front := pushFrontAll order q.queues batch.scope (batch.events.map batch.requeued)
  if batch.cancelledEvents.isEmpty then ({ q with queues := front.1 }, front.2)
  else
    let existing := (q.cancelledBatches.lookup batch.scope).getD []
    ({ q with
        queues := front.1
        cancelledBatches :=
          q.cancelledBatches.insert batch.scope (batch.cancelledEvents ++ existing)
        cancelReasons :=
          match batch.cancelReason, q.cancelReasons.lookup batch.scope with
          | some reason, none => q.cancelReasons.insert batch.scope reason
          | _, _ => q.cancelReasons }, front.2)

def requeueAsCancelled (batch : FlushBatch) (reason : CancelReason) :
    EventQueue :=
  let existing := (q.cancelledBatches.lookup batch.scope).getD []
  { q with
    cancelledBatches :=
      q.cancelledBatches.insert batch.scope (existing ++ batch.cancelledEvents ++ batch.events)
    cancelReasons := q.cancelReasons.insert batch.scope reason }

/-! ## Steering -/

def markNativeSteerPending (scope : SessionScope) (eventId : String) :
    EventQueue × Bool :=
  match q.queues.lookup scope with
  | none => (q, false)
  | some queue =>
      match queue.find? fun e => e.event.id.toHex = eventId with
      | none => (q, false)
      | some e =>
          let rest := queue.eraseP fun e => e.event.id.toHex = eventId
          ({ q with
              queues := if rest.isEmpty then q.queues.erase scope else q.queues.insert scope rest
              withheldNativeSteer :=
                q.withheldNativeSteer.insert scope
                  ((q.withheldNativeSteer.lookup scope).getD [] ++ [e]) }, true)

def releaseNativeSteer (order : Order) (scope : SessionScope) (eventId : String) :
    EventQueue × ScopedEvents :=
  match q.withheldNativeSteer.lookup scope with
  | none => (q, [])
  | some entries =>
      match entries.find? fun e => e.event.id.toHex = eventId with
      | none => (q, [])
      | some e =>
          let rest := entries.eraseP fun e => e.event.id.toHex = eventId
          let front := pushFrontAll order q.queues scope [e]
          ({ q with
              queues := front.1
              withheldNativeSteer :=
                if rest.isEmpty then q.withheldNativeSteer.erase scope
                else q.withheldNativeSteer.insert scope rest }, front.2)

/-- `entries.retain(..)`, and the entry goes if nothing is left. -/
def retainEvents (m : HMap SessionScope (List QueuedEvent)) (scope : SessionScope)
    (eventId : String) : HMap SessionScope (List QueuedEvent) :=
  match m.lookup scope with
  | none => m
  | some entries =>
      let rest := entries.filter fun e => e.event.id.toHex ≠ eventId
      if rest.isEmpty then m.erase scope else m.insert scope rest

def removeEvent (scope : SessionScope) (eventId : String) : EventQueue :=
  { q with
    withheldNativeSteer := retainEvents q.withheldNativeSteer scope eventId
    queues := retainEvents q.queues scope eventId }

/-! ## Cleaning up -/

/-- `drain_channel`, with the ids whose reactions the caller takes back. -/
def drainChannel (order : Order) (channel : Uuid) : EventQueue × List String :=
  let own (s : SessionScope) : Bool := s.channelId = channel
  let queued := ((iter order q.queues).filter fun e => own e.1).flatMap fun e =>
    e.2.map fun e => reactionTargetId e.event
  let cancelled := ((iter order q.cancelledBatches).filter fun e => own e.1).flatMap fun e =>
    e.2.map fun e => reactionTargetId e.event
  let withheld := ((iter order q.withheldNativeSteer).filter fun e => own e.1).flatMap fun e =>
    e.2.map fun e => reactionTargetId e.event
  ({ q with
      queues := q.queues.retain fun s _ => !own s
      cancelledBatches := q.cancelledBatches.retain fun s _ => !own s
      withheldNativeSteer := q.withheldNativeSteer.retain fun s _ => !own s
      retryAfter := q.retryAfter.retain fun s _ => !own s
      retryCounts := q.retryCounts.retain fun s _ => !own s
      cancelReasons := q.cancelReasons.retain fun s _ => !own s },
    (queued ++ cancelled ++ withheld).foldl Lib.pushNew [])

def compactExpiredState (now : Nat) : EventQueue :=
  let retryAfter := q.retryAfter.retain fun _ deadline => now < deadline
  { q with
    retryAfter := retryAfter
    retryCounts := q.retryCounts.retain fun s _ =>
      (retryAfter.lookup s).isSome || ((q.queues.lookup s).any fun queue => !queue.isEmpty) ||
        s ∈ q.inFlightScopes }

end EventQueue

end Buzz.Acp
