import Buzz.Acp.Queue
import Buzz.Lib.Ledger
import Buzz.Lib.Machine

/-!
# Runs of the harness on its queue

The main loop of `buzz-acp` is the only one that touches the queue. It pushes
what the relay sends, flushes batches, and gives each batch back once: the turn
ended well and `mark_complete` is all there is, or the batch went through
`requeue`, `requeue_preserve_timestamps` or `requeue_as_cancelled` before. The
acks of native steers, channel removals and the maintenance tick come in
between, at any time.

Beside the queue the state keeps the batches that were flushed, and lists of
what came in and what went out for good.
-/

namespace Buzz.Acp

open Buzz.Lib (Ledger Machine)

/-- How a batch goes back into the queue. -/
inductive Settlement where
  | requeue (jitter : Nat)
  | preserveTimestamps
  | asCancelled (reason : CancelReason)

/-- A batch that is out, one that was given back but whose scope is still in
flight, and one that is over. -/
inductive Phase where
  | running
  | settled
  | finished
deriving DecidableEq

structure Flushed where
  batch : FlushBatch
  phase : Phase := .running
  /-- Its scope was taken out of flight by the deadline. -/
  expired : Bool := false
deriving DecidableEq

structure Harness where
  queue : EventQueue
  now : Nat := 0
  flushed : List Flushed := []
  accepted : ScopedEvents := []
  delivered : ScopedEvents := []
  removed : ScopedEvents := []
  evicted : ScopedEvents := []
  /-- The cancelled events of batches that went through `requeue`. -/
  forgotten : ScopedEvents := []
  /-- What each `requeue` came to: whether the batch was dead-lettered. -/
  attempts : List (SessionScope × Bool) := []

inductive Move where
  | push (event : QueuedEvent)
  | flushNext
  | hasFlushableWork
  | extendInFlightDeadline (scope : SessionScope) (maxTurnSecs : Nat)
  | settle (i : Nat) (how : Settlement)
  | markComplete (i : Nat)
  | markNativeSteerPending (scope : SessionScope) (eventId : String)
  | releaseNativeSteer (scope : SessionScope) (eventId : String)
  | removeEvent (scope : SessionScope) (eventId : String)
  | drainChannel (channel : Uuid)
  | compactExpiredState

/-- A move, how long it takes to come, and the order hash maps are walked in
then. -/
structure TimedMove where
  elapsed : Nat := 0
  order : Order := fun _ => 0
  move : Move

/-- All events of a batch. -/
def FlushBatch.carried (b : FlushBatch) : ScopedEvents :=
  (b.events ++ b.cancelledEvents).map fun e => (b.scope, e)

def markExpired (scopes : List SessionScope) (flushed : List Flushed) : List Flushed :=
  flushed.map fun f => if f.batch.scope ∈ scopes then { f with expired := true } else f

/-- The events under an id at a scope, in the queue or withheld. -/
def eventsWithId (q : EventQueue) (scope : SessionScope) (eventId : String) : ScopedEvents :=
  (((q.withheldNativeSteer.lookup scope).getD [] ++ (q.queues.lookup scope).getD []).filter
    fun e => e.event.id.toHex = eventId).map fun e => (scope, e.intoBatchEvent)

/-- Everything queued, cancelled or withheld in a channel. -/
def channelEvents (q : EventQueue) (channel : Uuid) : ScopedEvents :=
  (Ledger.pairs QueuedEvent.intoBatchEvent q.queues ++ Ledger.pairs id q.cancelledBatches ++
    Ledger.pairs QueuedEvent.intoBatchEvent q.withheldNativeSteer).filter
      fun e => e.1.channelId = channel

namespace Harness

def settle (s : Harness) (order : Order) (i : Nat) (how : Settlement) : Harness :=
  match s.flushed[i]? with
  | some ⟨batch, .running, expired⟩ =>
      let s := { s with flushed := s.flushed.set i ⟨batch, .settled, expired⟩ }
      match how with
      | .requeue jitter =>
          let r := s.queue.requeue s.now order jitter batch
          { s with
            queue := r.1
            evicted := s.evicted ++ r.2.2
            removed := s.removed ++ r.2.1.elim [] FlushBatch.carried
            forgotten := s.forgotten ++
              if r.2.1.isSome then [] else batch.cancelledEvents.map fun e => (batch.scope, e)
            attempts := s.attempts ++ [(batch.scope, r.2.1.isSome)] }
      | .preserveTimestamps =>
          let r := s.queue.requeuePreserveTimestamps order batch
          { s with queue := r.1, evicted := s.evicted ++ r.2 }
      | .asCancelled reason => { s with queue := s.queue.requeueAsCancelled batch reason }
  | _ => s

/-- `mark_complete` for a batch: the end of a turn, or of giving it back. -/
def markComplete (s : Harness) (i : Nat) : Harness :=
  match s.flushed[i]? with
  | some ⟨batch, phase, expired⟩ =>
      if phase = .finished then s
      else
        { s with
          queue := s.queue.markComplete s.now batch.scope
          flushed := s.flushed.set i ⟨batch, .finished, expired⟩
          delivered := if phase = .running then s.delivered ++ batch.carried else s.delivered }
  | none => s

def act (s : Harness) (order : Order) : Move → Harness
  | .push event =>
      let r := s.queue.push order event
      { s with
        queue := r.1
        accepted :=
          if r.2.1 then s.accepted ++ [(event.scope, event.intoBatchEvent)] else s.accepted
        evicted := s.evicted ++ r.2.2 }
  | .flushNext =>
      let r := s.queue.flushNext s.now order
      { s with
        queue := r.1
        evicted := s.evicted ++ r.2.2
        flushed := markExpired (s.queue.expiredScopes s.now order) s.flushed ++
          (r.2.1.toList.map fun batch => { batch := batch }) }
  | .hasFlushableWork =>
      let r := s.queue.hasFlushableWork s.now order
      { s with
        queue := r.1
        evicted := s.evicted ++ r.2.2
        flushed := markExpired (s.queue.expiredScopes s.now order) s.flushed }
  | .extendInFlightDeadline scope maxTurnSecs =>
      { s with queue := s.queue.extendInFlightDeadline s.now scope maxTurnSecs }
  | .settle i how => s.settle order i how
  | .markComplete i => s.markComplete i
  | .markNativeSteerPending scope eventId =>
      { s with queue := (s.queue.markNativeSteerPending scope eventId).1 }
  | .releaseNativeSteer scope eventId =>
      let r := s.queue.releaseNativeSteer order scope eventId
      { s with queue := r.1, evicted := s.evicted ++ r.2 }
  | .removeEvent scope eventId =>
      { s with
        queue := s.queue.removeEvent scope eventId
        removed := s.removed ++ eventsWithId s.queue scope eventId }
  | .drainChannel channel =>
      { s with
        queue := (s.queue.drainChannel order channel).1
        removed := s.removed ++ channelEvents s.queue channel }
  | .compactExpiredState => { s with queue := s.queue.compactExpiredState s.now }

def step (s : Harness) (m : TimedMove) : Harness :=
  ({ s with now := s.now + m.elapsed } : Harness).act m.order m.move

end Harness

/-- The harness with the queue `main` builds: the deadline is what a turn may
take, and some. -/
def harness (dedupMode : DedupMode) (maxTurnSecs : Nat) : Machine Harness TimedMove where
  init :=
    { queue :=
        { dedupMode := dedupMode
          inFlightDeadline := (maxTurnSecs + inFlightDeadlineBufferSecs) * second } }
  step := Harness.step

/-! ## A conversation to run it on -/

def lobby : SessionScope := .conversation (Uuid.ofByte 1)

theorem lobby_channel : lobby.channelId = Uuid.ofByte 1 := rfl

/-- A message in it, with its id, and when it was written and received. -/
def message (id : UInt8) (createdAt : UInt64) (receivedAt : Nat) : QueuedEvent where
  channelId := Uuid.ofByte 1
  scope := lobby
  event := ⟨Bytes32.ofByte id, Bytes32.ofByte 0, createdAt, 9, []⟩
  receivedAt := receivedAt
  promptTag := "mention"
  edit := none
  belongs := lobby_channel

/-- Moves that follow one another at once. -/
def atOnce (moves : List Move) : List TimedMove := moves.map fun m => { move := m }

end Buzz.Acp
