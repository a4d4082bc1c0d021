import Buzz.Lib.HashMap
import Buzz.Lib.Machine

/-!
# The waker's durable cursor

`buzz-waker/src/cursor.rs`: where the mention feed resumes after a reconnect
or a restart. `CursorStore` is the state of one process; the file is what the
last successful `persist` wrote. A method that persists is told whether the
write succeeds.

The second half is the loop around it. The relay accepts mentions, and start
requests, which the loop claims in the same cursor; the process opens the
cursor, resumes, admits what is delivered, completes or abandons it, and may
crash anywhere. The file is read back as it was written, and one process has
the lock at a time.
-/

namespace Buzz.Waker

open Buzz.Lib

/-! ## Bounds -/

/-- `MAX_TIMESTAMP_DRIFT_SECS`. -/
def maxTimestampDriftSecs : Nat := 900

/-- `WAKE_PIPELINE_LATENCY_BUDGET_SECS`. -/
def wakePipelineLatencyBudgetSecs : Nat := 135 + 10 + 10 + 600 + 300

/-- `WAKE_RECOVERY_DELAY_BUDGET_SECS`. -/
def wakeRecoveryDelayBudgetSecs : Nat := 600

/-- `REPLAY_FLOOR_MAX_AGE_SECS`. -/
def replayFloorMaxAgeSecs : Nat :=
  maxTimestampDriftSecs + wakeRecoveryDelayBudgetSecs + wakePipelineLatencyBudgetSecs

/-- `RECONNECT_OVERLAP_SECS`. -/
def reconnectOverlapSecs : Nat := 2 * maxTimestampDriftSecs + wakeRecoveryDelayBudgetSecs

/-- `WAKE_DELIVERABLE_AGE_SECS`. -/
def wakeDeliverableAgeSecs : Nat := replayFloorMaxAgeSecs - wakePipelineLatencyBudgetSecs

/-! ## The store -/

inductive CursorError where
  | persist
  | notInFlight (eventId : String)
deriving DecidableEq

inductive Resume where
  | since (secs : Nat)
  | gapTooOld (secs behindSecs maxAgeSecs : Nat)
deriving DecidableEq

/-- The `since` of either answer. -/
def Resume.sinceSecs : Resume → Nat
  | .since secs => secs
  | .gapTooOld secs _ _ => secs

inductive Admission where
  | fresh
  | freshButUndeliverable (ageSecs maxAgeSecs : Nat)
  | duplicate
deriving DecidableEq

/-- The persisted resume state. -/
structure Cursor where
  checkpointSecs : Nat
  highWaterSecs : Nat
  coveredThroughSecs : Nat
  /-- The ring of completed event ids, oldest first. -/
  completed : List String
deriving DecidableEq

structure CursorStore where
  state : Cursor
  inFlight : HMap String Nat
  abandoned : HMap String Nat
  replayPin : Option Nat
  capacity : Nat

namespace CursorStore

variable (s : CursorStore) (durable : Bool)

/-- A method's result, the store it leaves and what it wrote to the file. -/
structure Reply (α : Type) where
  store : CursorStore
  written : Option Cursor
  result : Except CursorError α

/-- `open_or_start` on the file there is, if any. -/
def openOrStart (file : Option Cursor) (now capacity : Nat) :
    Except CursorError (CursorStore × Option Cursor) :=
  let store (state : Cursor) : CursorStore := ⟨state, ∅, ∅, none, max capacity 1⟩
  match file with
  | some state => .ok (store state, none)
  | none =>
      let state : Cursor := ⟨now, now, now, []⟩
      if durable then .ok (store state, some state) else .error .persist

def resume (now : Nat) : CursorStore × Resume :=
  let since := s.state.checkpointSecs - reconnectOverlapSecs
  let behind := now - s.state.coveredThroughSecs
  ({ s with replayPin := some s.state.checkpointSecs },
    if behind > replayFloorMaxAgeSecs then .gapTooOld since behind replayFloorMaxAgeSecs
    else .since since)

/-- The work that holds the checkpoint down, and the pin. -/
def unfinished : List Nat :=
  s.inFlight.entries.map (·.2) ++ s.abandoned.entries.map (·.2) ++ s.replayPin.toList

/-- The low-water mark: the oldest unfinished event, else the high water. -/
def computeCheckpointWith (highWater : Nat) : Nat :=
  match s.unfinished.min? with
  | some oldest => min oldest highWater
  | none => highWater

def computeCheckpoint : Nat := s.computeCheckpointWith s.state.highWaterSecs

/-- `persist`, then `self.state = next`; `failed` is the store put back. -/
def persistOr {α : Type} (next : Cursor) (failed : CursorStore) (value : α) : Reply α :=
  if durable then ⟨{ s with state := next }, some next, .ok value⟩
  else ⟨failed, none, .error .persist⟩

def endReplay (now : Nat) : Reply Unit :=
  if s.replayPin.isNone then ⟨s, none, .ok ()⟩
  else
    let released := { s with replayPin := none }
    released.persistOr durable
      { s.state with
        checkpointSecs := released.computeCheckpoint
        coveredThroughSecs := max s.state.coveredThroughSecs now } s ()

def markCovered (now : Nat) : Reply Unit :=
  if now ≤ s.state.coveredThroughSecs then ⟨s, none, .ok ()⟩
  else s.persistOr durable { s.state with coveredThroughSecs := now } s ()

/-- Already completed, or already claimed. -/
def isDuplicate (eventId : String) : Bool :=
  (s.inFlight.lookup eventId).isSome || s.state.completed.contains eventId

/-- `admit`. -/
def admitEvent (eventId : String) (createdAt now : Nat) : Reply Admission :=
  if s.isDuplicate eventId then ⟨s, none, .ok .duplicate⟩
  else
    let previous := s.abandoned.lookup eventId
    let createdAt := previous.elim createdAt fun was => min was createdAt
    let claimed := { s with
      abandoned := s.abandoned.erase eventId
      inFlight := s.inFlight.insert eventId createdAt }
    let failed := { s with
      abandoned := previous.elim (s.abandoned.erase eventId)
        fun was => (s.abandoned.erase eventId).insert eventId was
      inFlight := (s.inFlight.insert eventId createdAt).erase eventId }
    let covered := if s.replayPin.isNone then max s.state.coveredThroughSecs now
      else s.state.coveredThroughSecs
    let age := now - createdAt
    claimed.persistOr durable
      { s.state with
        checkpointSecs := claimed.computeCheckpoint
        coveredThroughSecs := covered } failed
      (if age > wakeDeliverableAgeSecs then .freshButUndeliverable age wakeDeliverableAgeSecs
        else .fresh)

/-- The ring with one more id. -/
def pushCompleted (eventId : String) : List String :=
  let ring := s.state.completed ++ [eventId]
  ring.drop (ring.length - s.capacity)

/-- `complete` of an event taken out of its set; `failed` has it put back. -/
def finish (eventId : String) (createdAt : Nat) (released failed : CursorStore) : Reply Unit :=
  let highWater := max s.state.highWaterSecs createdAt
  released.persistOr durable
    { s.state with
      highWaterSecs := highWater
      completed := s.pushCompleted eventId
      checkpointSecs := released.computeCheckpointWith highWater } failed ()

def complete (eventId : String) : Reply Unit :=
  match s.inFlight.lookup eventId, s.abandoned.lookup eventId with
  | none, none => ⟨s, none, .error (.notInFlight eventId)⟩
  | some createdAt, _ =>
      s.finish durable eventId createdAt { s with inFlight := s.inFlight.erase eventId }
        { s with inFlight := (s.inFlight.erase eventId).insert eventId createdAt }
  | none, some createdAt =>
      s.finish durable eventId createdAt { s with abandoned := s.abandoned.erase eventId }
        { s with abandoned := (s.abandoned.erase eventId).insert eventId createdAt }

def abandon (eventId : String) : CursorStore :=
  match s.inFlight.lookup eventId with
  | some createdAt => { s with
      inFlight := s.inFlight.erase eventId
      abandoned := s.abandoned.insert eventId createdAt }
  | none => s

end CursorStore

/-! ## The feed loop -/

/-- An event the relay accepted: a mention, or an owner's start request. -/
structure Accepted where
  id : String
  createdAt : Nat
  acceptedAt : Nat
  isMention : Bool
deriving DecidableEq

structure WakerState where
  now : Nat
  accepted : List Accepted := []
  file : Option Cursor := none
  process : Option CursorStore := none
  /-- The process has resumed at least once. -/
  resumed : Bool := false
  connected : Bool := false
  /-- The last moment the feed was connected, or the cursor first opened. -/
  heard : Nat := 0
  /-- The ids `complete` succeeded for. -/
  finished : List String := []
  /-- The `since` of the last replay that has not ended. -/
  replaying : Option Nat := none

inductive WakerMove where
  | wait (secs : Nat)
  /-- The relay accepts an event, dated `ahead` of its clock or `behind` it. -/
  | accept (id : String) (ahead behind : Nat) (isMention : Bool)
  | openOrStart (capacity : Nat) (durable : Bool)
  | crash
  | resume
  | disconnect
  | admitEvent (id : String) (durable : Bool)
  | complete (id : String) (durable : Bool)
  | abandon (id : String)
  | markCovered (durable : Bool)
  | endReplay (durable : Bool)

namespace WakerState

variable (w : WakerState)

/-- The file and the process after a method of the store. -/
def afterReply {α : Type} (reply : CursorStore.Reply α) : WakerState :=
  { w with process := some reply.store, file := reply.written.or w.file }

/-- Claimed by the process, in flight or for a retry. -/
def isClaimed (id : String) : Bool :=
  w.process.any fun s => (s.inFlight.lookup id).isSome || (s.abandoned.lookup id).isSome

/-- Every mention that nothing claimed or completed was accepted at most a
recovery delay before this. -/
def allRecent (now : Nat) : Bool :=
  w.accepted.all fun e =>
    !e.isMention || w.finished.contains e.id || w.isClaimed e.id ||
      now ≤ e.acceptedAt + wakeRecoveryDelayBudgetSecs

/-- A cursor that starts now reaches back to every mention that is not completed. -/
def withinOverlap : Bool :=
  w.accepted.all fun e =>
    !e.isMention || w.finished.contains e.id || w.now ≤ e.createdAt + reconnectOverlapSecs

/-- The feed is connected and its replay has ended. -/
def isLive : Bool := w.connected && w.process.any fun s => s.replayPin.isNone

def accept (id : String) (ahead behind : Nat) (isMention : Bool) : WakerState :=
  if w.accepted.any (·.id == id) then w
  else { w with accepted := w.accepted ++ [⟨id, w.now + ahead - behind, w.now, isMention⟩] }

def openOrStart (capacity : Nat) (durable : Bool) : WakerState :=
  if w.process.isSome then w
  else
    match CursorStore.openOrStart durable w.file w.now capacity with
    | .error _ => w
    | .ok (store, written) =>
        { w with
          process := some store
          file := written.or w.file
          resumed := false
          heard := if written.isSome then w.now else w.heard }

def resume : WakerState :=
  match w.process, w.connected with
  | some s, false =>
      { w with
        process := some (s.resume w.now).1
        resumed := true
        connected := true
        heard := w.now
        replaying := some (s.resume w.now).2.sinceSecs }
  | _, _ => w

def admitEvent (id : String) (durable : Bool) : WakerState :=
  match w.process, w.connected, w.accepted.find? (·.id == id) with
  | some s, true, some e => w.afterReply (s.admitEvent durable e.id e.createdAt w.now)
  | _, _, _ => w

def complete (id : String) (durable : Bool) : WakerState :=
  match w.process with
  | none => w
  | some s =>
      let reply := s.complete durable id
      { w.afterReply reply with
        finished := if reply.result.toBool then w.finished ++ [id] else w.finished }

def endReplay (durable : Bool) : WakerState :=
  match w.process, w.connected with
  | some s, true =>
      let reply := s.endReplay durable w.now
      { w.afterReply reply with
        replaying := if reply.result.toBool then none else w.replaying }
  | _, _ => w

def step : WakerMove → WakerState
  | .wait secs =>
      { w with
        now := w.now + secs
        heard := if w.connected then w.now + secs else w.heard }
  | .accept id ahead behind isMention => w.accept id ahead behind isMention
  | .openOrStart capacity durable => w.openOrStart capacity durable
  | .crash => { w with process := none, resumed := false, connected := false }
  | .resume => w.resume
  | .disconnect => { w with connected := false }
  | .admitEvent id durable => w.admitEvent id durable
  | .complete id durable => w.complete id durable
  | .abandon id => { w with process := w.process.map (·.abandon id) }
  | .markCovered durable =>
      match w.process with
      | some s => w.afterReply (s.markCovered durable w.now)
      | none => w
  | .endReplay durable => w.endReplay durable

/-- What is assumed of the relay and its deliveries. It accepts what is dated
within the drift. And while the cursor takes the feed to be current, outside a
replay, no mention stays unclaimed for longer than the recovery delay; a replay
ends when what it asked for was delivered. The first cursor reaches back to what
is not completed then. -/
def assumed : WakerMove → Bool
  | .wait secs => !w.isLive || w.allRecent (w.now + secs)
  | .accept _ ahead behind _ => ahead ≤ maxTimestampDriftSecs && behind ≤ maxTimestampDriftSecs
  | .openOrStart _ _ => w.file.isSome || w.withinOverlap
  | .endReplay _ => w.allRecent w.now
  | _ => true

end WakerState

/-- The waker from before its first open. -/
def waker (now : Nat) : Machine WakerState WakerMove := ⟨{ now := now }, WakerState.step⟩

end Buzz.Waker
