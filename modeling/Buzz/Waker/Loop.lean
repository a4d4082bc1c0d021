import Buzz.Core.Artifact
import Buzz.Db.EventQuery
import Buzz.Waker.Attempt
import Buzz.Waker.Cursor

/-!
# The wake loop

`buzz-waker/src/wake_loop.rs`: an admitted trigger is claimed in the cursor and
gets an attempt of its own; the report of the attempt settles the claim or
leaves the trigger held for one re-drive. The attempts are those of
`Buzz.Waker.Attempt`, each in a task of the join set, polled and joined in any
order.

One process lifetime whose token is never cancelled, so no attempt hears a
cancellation. A write of the cursor may fail. Attempts that panic are left
out: their claims wait for a restart.
-/

namespace Buzz.Waker

open Buzz.Lib

/-! ## Constants -/

/-- `STRANDED_TRIGGER_LIMIT`. -/
def strandedTriggerLimit : Nat := 16

/-- `WAKE_STRANDED_RETRY_DELAY_MS`. -/
def wakeStrandedRetryDelayMs : Nat := wakeAttemptDebounceMs + 5000

/-- `WAKE_REPLAY_FLOOR_SKEW_SECS`. -/
def wakeReplayFloorSkewSecs : Nat := 5

/-! ## Reports -/

/-- The fields of a `TriggerEvent` the loop reads. -/
structure TriggerEvent where
  id : String
  author : String
  createdAt : Nat
  /-- Which of the loop's claims it is; not in the source. -/
  claim : Nat
deriving DecidableEq

/-- `pubkey.trim().to_ascii_lowercase()`. -/
def normalizePubkey (pubkey : String) : String :=
  let front := pubkey.toList.dropWhile Core.isWhitespace
  Db.toAsciiLowercase (String.ofList (front.reverse.dropWhile Core.isWhitespace).reverse)

def isCoveredByReplayFloor (createdAt committedFloor : Nat) : Bool :=
  committedFloor - wakeReplayFloorSkewSecs ≤ createdAt

structure AttemptReport where
  event : TriggerEvent
  outcome : WakeOutcome
  retried : Bool
  inFlightOwner : Option ClaimingTrigger
deriving DecidableEq

def inFlightOwnerCovers (report : AttemptReport) : Bool :=
  report.inFlightOwner.any fun owner =>
    !owner.retried && normalizePubkey owner.author == normalizePubkey report.event.author &&
      isCoveredByReplayFloor report.event.createdAt owner.createdAt

def leavesMentionUnacted (report : AttemptReport) : Bool :=
  match report.outcome with
  | .debounced | .deployFailed | .wakeUnconfirmed | .presenceUnavailable => true
  | .inFlight => !inFlightOwnerCovers report
  | .woken | .alreadyLive | .authorRejected | .authorUnverified | .cancelled => false

inductive Settlement where
  | settled
  | strand (event : TriggerEvent)
deriving DecidableEq

def applyReport (cursor : CursorStore) (durable : Bool) (report : AttemptReport) :
    CursorStore × Settlement :=
  if report.outcome = .cancelled then (cursor.abandon report.event.id, .settled)
  else if leavesMentionUnacted report && !report.retried then (cursor, .strand report.event)
  else ((cursor.complete durable report.event.id).store, .settled)

/-! ## Held triggers -/

structure StrandedTrigger where
  event : TriggerEvent
  dueAtMs : Nat
deriving DecidableEq

/-- A trigger that was dropped, and what was held with it. -/
structure Eviction where
  trigger : StrandedTrigger
  held : List StrandedTrigger
  completed : Bool
deriving DecidableEq

/-- What `retain_stranded` changes. -/
structure Retention where
  stranded : List StrandedTrigger
  cursor : CursorStore
  evicted : List Eviction := []

/-- `min_by_key(|(index, held)| (held.event.created_at, *index))`. -/
def oldestIndex (stranded : List StrandedTrigger) : Nat :=
  stranded.findIdx fun held =>
    stranded.all fun other => held.event.createdAt ≤ other.event.createdAt

def Retention.evictOldest (r : Retention) (durable : Bool) : Retention :=
  match r.stranded[oldestIndex r.stranded]? with
  | none => r
  | some oldest =>
      let reply := r.cursor.complete durable oldest.event.id
      { stranded := r.stranded.eraseIdx (oldestIndex r.stranded)
        cursor := reply.store
        evicted := r.evicted ++ [⟨oldest, r.stranded, reply.result.toBool⟩] }

/-- The `while` loop; every turn drops one. -/
def Retention.evictOver (durable : Bool) : (turns : Nat) → Retention → Retention
  | 0, r => r
  | turns + 1, r =>
      if strandedTriggerLimit < r.stranded.length then
        (r.evictOldest durable).evictOver durable turns
      else r

def retainStranded (stranded : List StrandedTrigger) (cursor : CursorStore) (nowMs : Nat)
    (durable : Bool) (event : TriggerEvent) : Retention :=
  if stranded.any (·.event.id == event.id) then { stranded := stranded, cursor := cursor }
  else
    let held := stranded ++ [⟨event, nowMs + wakeStrandedRetryDelayMs⟩]
    Retention.evictOver durable held.length { stranded := held, cursor := cursor }

/-! ## The loop -/

/-- A task of the join set. -/
structure Job where
  event : TriggerEvent
  retried : Bool
  /-- Its attempt, from the first poll on. -/
  attempt : Option Nat := none
  /-- The job that had the claim then. -/
  behind : Option Nat := none
  /-- What it returned, once the loop has it. -/
  joined : Option AttemptReport := none
deriving DecidableEq

def Job.claiming (job : Job) : ClaimingTrigger :=
  ⟨job.event.createdAt, job.event.author, job.retried⟩

/-- The calls of the feed that claim and settle nothing. -/
inductive FeedCall where
  | resume (now : Nat)
  | endReplay (now : Nat) (durable : Bool)
  | markCovered (now : Nat) (durable : Bool)

def CursorStore.feed (cursor : CursorStore) : FeedCall → CursorStore
  | .resume now => (cursor.resume now).1
  | .endReplay now durable => (cursor.endReplay durable now).store
  | .markCovered now durable => (cursor.markCovered durable now).store

/-- The loop, with what became of its claims. -/
structure WakeLoop (ε : Type) where
  wakes : Wakes ε
  cursor : CursorStore
  jobs : List Job := []
  stranded : List StrandedTrigger := []
  claims : Nat := 0
  completed : List Nat := []
  abandoned : List Nat := []
  evicted : List Eviction := []

inductive LoopMove (ε : Type) where
  | tick (ms : Nat)
  | feed (call : FeedCall)
  /-- A mention of the feed, or an owner's start request. -/
  | admitTrigger (id author : String) (createdAt now : Nat) (durable : Bool)
  /-- The first poll of a task. -/
  | poll (j : Nat) (beats : List (Option HeartbeatObservation))
  | reply (j : Nat) (answer : WakeReply ε) (beats : List (Option HeartbeatObservation))
  | join (j : Nat) (durable : Bool)
  | redrive

variable {ε : Type}

/-- What the task returns when its attempt is done. -/
def Job.report (job : Job) (wakes : Wakes ε) : Option AttemptReport :=
  match job.attempt.bind fun i => wakes.attempts[i]? with
  | none => none
  | some a =>
      match a.task with
      | .done r => some ⟨job.event, r.outcome, job.retried, r.inFlightOwner⟩
      | .call .. => none

/-- The job whose attempt has the claim. -/
def holder (wakes : Wakes ε) (jobs : List Job) : Option Nat :=
  jobs.findIdx? fun job => job.attempt.any fun i => wakes.attempts[i]?.any (·.holds)

def spawnAttempt (jobs : List Job) (event : TriggerEvent) (retried : Bool) : List Job :=
  jobs ++ [{ event := event, retried := retried }]

namespace WakeLoop

variable (w : WakeLoop ε)

def admitTrigger (id author : String) (createdAt now : Nat) (durable : Bool) : WakeLoop ε :=
  let reply := w.cursor.admitEvent durable id createdAt now
  match reply.result with
  | .ok .fresh | .ok (.freshButUndeliverable _ _) =>
      { w with
        cursor := reply.store
        claims := w.claims + 1
        jobs := spawnAttempt w.jobs ⟨id, author, createdAt, w.claims⟩ false }
  | _ => { w with cursor := reply.store }

def poll (j : Nat) (beats : List (Option HeartbeatObservation)) : WakeLoop ε :=
  match w.jobs[j]? with
  | none => w
  | some job =>
      if job.attempt.isSome then w
      else
        { w with
          wakes := w.wakes.call job.claiming { beats := beats }
          jobs := w.jobs.set j
            { job with attempt := some w.wakes.attempts.length, behind := holder w.wakes w.jobs } }

def reply (j : Nat) (answer : WakeReply ε) (beats : List (Option HeartbeatObservation)) :
    WakeLoop ε :=
  match w.jobs[j]?.bind (·.attempt) with
  | none => w
  | some i => { w with wakes := w.wakes.reply i answer { beats := beats } }

/-- The cursor was settled, in one of the two ways or not at all. -/
def recordSettled (report : AttemptReport) (durable : Bool) : WakeLoop ε :=
  if report.outcome = .cancelled then { w with abandoned := w.abandoned ++ [report.event.claim] }
  else if (w.cursor.complete durable report.event.id).result.toBool then
    { w with completed := w.completed ++ [report.event.claim] }
  else w

def retain (event : TriggerEvent) (durable : Bool) : WakeLoop ε :=
  let kept := retainStranded w.stranded w.cursor w.wakes.now durable event
  { w with
    stranded := kept.stranded
    cursor := kept.cursor
    evicted := w.evicted ++ kept.evicted
    completed := w.completed ++ (kept.evicted.filter (·.completed)).map (·.trigger.event.claim) }

def join (j : Nat) (durable : Bool) : WakeLoop ε :=
  match w.jobs[j]? with
  | none => w
  | some job =>
      if job.joined.isSome then w
      else
        match job.report w.wakes with
        | none => w
        | some report =>
            let joined := { w with jobs := w.jobs.set j { job with joined := some report } }
            match applyReport w.cursor durable report with
            | (cursor, .settled) => { joined.recordSettled report durable with cursor := cursor }
            | (_, .strand event) => joined.retain event durable

def redrive : WakeLoop ε :=
  match w.stranded.findIdx? fun held => held.dueAtMs ≤ w.wakes.now with
  | none => w
  | some index =>
      match w.stranded[index]? with
      | none => w
      | some held =>
          { w with
            stranded := w.stranded.eraseIdx index
            jobs := spawnAttempt w.jobs held.event true }

def step : LoopMove ε → WakeLoop ε
  | .tick ms => { w with wakes := w.wakes.step (.tick ms) }
  | .feed call => { w with cursor := w.cursor.feed call }
  | .admitTrigger id author createdAt now durable =>
      w.admitTrigger id author createdAt now durable
  | .poll j beats => w.poll j beats
  | .reply j answer beats => w.reply j answer beats
  | .join j durable => w.join j durable
  | .redrive => w.redrive

end WakeLoop

/-- A loop that opened its cursor, whatever an earlier process left in the file. -/
def wakeLoop (ε : Type) (now : Nat) (state : Cursor) (capacity : Nat) :
    Machine (WakeLoop ε) (LoopMove ε) :=
  ⟨{ wakes := { now := now }, cursor := ⟨state, ∅, ∅, none, max capacity 1⟩ }, WakeLoop.step⟩

end Buzz.Waker
