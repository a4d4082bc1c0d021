import Buzz.Lib.Async
import Buzz.Lib.Machine
import Mathlib.Algebra.GroupWithZero.Nat

/-!
# Wake attempts

`buzz-waker/src/attempt.rs`: one attempt decides whether an agent is live and,
if not, deploys it. It is an asynchronous function whose calls are its effects,
in the order the source has them; the book the attempts of an agent share is
called the same way.

A run has any number of attempts of one agent. Between two awaits an attempt
is not interrupted and the clock stands still, since no stretch of it reads
the clock twice. Each attempt keeps a log of what it was told.
-/

namespace Buzz.Waker

open Buzz.Lib

/-! ## Constants -/

/-- `WAKE_ATTEMPT_DEBOUNCE_MS`. -/
def wakeAttemptDebounceMs : Nat := 120000

/-- `WAKE_CONFIRM_POLL_MS`. -/
def wakeConfirmPollMs : Nat := 5000

/-- `WAKE_CONFIRM_ATTEMPTS`. -/
def wakeConfirmAttempts : Nat := 24

/-- `WAKE_LIVE_EVIDENCE_POLL_MS`. -/
def wakeLiveEvidencePollMs : Nat := 5000

/-- `WAKE_LIVE_EVIDENCE_ATTEMPTS`. -/
def wakeLiveEvidenceAttempts : Nat := 27

/-- `WAKE_LIVE_NO_BEAT_BAILOUT_ATTEMPTS`. -/
def wakeLiveNoBeatBailoutAttempts : Nat := 15

/-- `WAKE_EVIDENCE_MIN_SPACING_MS`. -/
def wakeEvidenceMinSpacingMs : Nat := 30000

/-- `REMOTE_POST_OFFLINE_GRACE_MS`. -/
def remotePostOfflineGraceMs : Nat := 10000

/-! ## Evidence -/

inductive PresenceStatus where
  | online
  | away
  | offline
deriving DecidableEq

/-- `is_managed_agent_live`. -/
def isManagedAgentLive : Option PresenceStatus → Bool
  | some .online => true
  | some .away => true
  | _ => false

structure HeartbeatObservation where
  eventId : String
  observedAtMs : Nat
deriving DecidableEq

structure LiveEvidenceTracker where
  sinceMs : Nat
  minSpacingMs : Nat
  anchor : Option HeartbeatObservation
deriving DecidableEq

/-- `u64::saturating_add`. -/
def saturatingAdd (a b : Nat) : Nat := min (a + b) (2 ^ 64 - 1)

namespace LiveEvidenceTracker

def new (sinceMs : Nat) : LiveEvidenceTracker := ⟨sinceMs, wakeEvidenceMinSpacingMs, none⟩

def observe (t : LiveEvidenceTracker) (current : Option HeartbeatObservation) :
    LiveEvidenceTracker × Bool :=
  match current with
  | none => (t, false)
  | some current =>
      if current.observedAtMs < t.sinceMs then (t, false)
      else
        match t.anchor with
        | none => ({ t with anchor := some current }, false)
        | some anchor =>
            if current.eventId = anchor.eventId then (t, false)
            else
              (t, decide (saturatingAdd anchor.observedAtMs t.minSpacingMs ≤ current.observedAtMs))

def hasPostFenceBeat (t : LiveEvidenceTracker) : Bool := t.anchor.isSome

end LiveEvidenceTracker

/-! ## The book -/

inductive WakeOutcome where
  | woken
  | alreadyLive
  | debounced
  | inFlight
  | presenceUnavailable
  | deployFailed
  | wakeUnconfirmed
  | authorRejected
  | authorUnverified
  | cancelled
deriving DecidableEq

structure ClaimingTrigger where
  createdAt : Nat
  author : String
  retried : Bool
deriving DecidableEq

structure ClaimRefusal where
  outcome : WakeOutcome
  inFlightOwner : Option ClaimingTrigger
deriving DecidableEq

/-- `AttemptBook` at one agent's key. -/
structure AttemptBook where
  lastAttemptAt : Option Nat := none
  inFlight : Option ClaimingTrigger := none
deriving DecidableEq

def isWakeAttemptDebounced (lastAttemptAtMs : Option Nat) (nowMs : Nat) : Bool :=
  match lastAttemptAtMs with
  | none => false
  | some last => nowMs - last < wakeAttemptDebounceMs

namespace AttemptBook

variable (book : AttemptBook)

def claim (trigger : ClaimingTrigger) (nowMs : Nat) (aborted : Bool) :
    AttemptBook × Except ClaimRefusal Unit :=
  match book.inFlight with
  | some owner => (book, .error ⟨.inFlight, some owner⟩)
  | none =>
      if isWakeAttemptDebounced book.lastAttemptAt nowMs then (book, .error ⟨.debounced, none⟩)
      else if aborted then (book, .error ⟨.cancelled, none⟩)
      else ({ book with inFlight := some trigger }, .ok ())

def stamp (atMs : Nat) : AttemptBook := { book with lastAttemptAt := some atMs }

def refreshStamp (stampedAt settledAt : Nat) : AttemptBook :=
  if book.lastAttemptAt = some stampedAt then
    { book with lastAttemptAt := some (max settledAt stampedAt) }
  else book

def releaseStamp (stampedAt : Nat) : AttemptBook :=
  if book.lastAttemptAt = some stampedAt then { book with lastAttemptAt := none } else book

end AttemptBook

/-! ## The attempt -/

/-- `WakeEffects`, and the book's own methods. -/
inductive WakeOp where
  | nowMs
  | isCancelled
  | heartbeat
  | onDeployed
  | claim (trigger : ClaimingTrigger) (nowMs : Nat) (aborted : Bool)
  | stamp (atMs : Nat)
  | refreshStamp (stampedAt settledAt : Nat)
  | releaseStamp (stampedAt : Nat)
  | delay (ms : Nat)
  | presence
  | confirmAuthorNotKnownAgent
  | startManagedAgent
deriving DecidableEq

variable {ε : Type}

/-- What a call returns; `ε` is the effects' error type. -/
abbrev WakeOp.Answer (ε : Type) : WakeOp → Type
  | .nowMs => Nat
  | .isCancelled => Bool
  | .heartbeat => Option HeartbeatObservation
  | .onDeployed => Unit
  | .claim .. => Except ClaimRefusal Unit
  | .stamp _ => Unit
  | .refreshStamp .. => Unit
  | .releaseStamp _ => Unit
  | .delay _ => Unit
  | .presence => Except ε (Option PresenceStatus)
  | .confirmAuthorNotKnownAgent => Except ε Bool
  | .startManagedAgent => Except ε (Option Bool)

structure WakeAttemptResult (ε : Type) where
  outcome : WakeOutcome
  reconcile : Bool := false
  error : Option ε := none
  floorAdopted : Option Bool := none
  inFlightOwner : Option ClaimingTrigger := none

abbrev WakeTask (ε : Type) := Async (WakeOp.Answer ε) (WakeAttemptResult ε)

def finish (outcome : WakeOutcome) (reconcile : Bool) : WakeTask ε :=
  .done { outcome := outcome, reconcile := reconcile }

/-- `if effects.is_cancelled() { return Cancelled }`. -/
def unlessCancelled (reconcile : Bool) (next : WakeTask ε) : WakeTask ε :=
  .call .isCancelled fun cancelled => if cancelled then finish .cancelled reconcile else next

/-- `tracker.observe(effects.heartbeat())`, which ends the attempt on proof. -/
def unlessProven (tracker : LiveEvidenceTracker) (next : LiveEvidenceTracker → WakeTask ε) :
    WakeTask ε :=
  .call .heartbeat fun beat =>
    if (tracker.observe beat).2 then finish .alreadyLive false else next (tracker.observe beat).1

/-- `had_entry_at_start && effects.heartbeat().is_none()`. -/
def checkExit (hadEntryAtStart : Bool) (next : Bool → WakeTask ε) : WakeTask ε :=
  if hadEntryAtStart then .call .heartbeat fun beat => next beat.isNone else next false

/-- The convergence loop, with this many polls left. -/
def converge (reconcile : Bool) (floorAdopted : Option Bool) (stampedAt deployedAt : Nat) :
    Nat → WakeTask ε
  | 0 => .call (.releaseStamp stampedAt) fun _ => finish .wakeUnconfirmed reconcile
  | left + 1 =>
      .call (.delay wakeConfirmPollMs) fun _ => unlessCancelled reconcile <|
        .call .heartbeat fun beat =>
          if beat.any fun observation => deployedAt ≤ observation.observedAtMs then
            .done { outcome := .woken, reconcile := reconcile, floorAdopted := floorAdopted }
          else converge reconcile floorAdopted stampedAt deployedAt left

/-- What follows a deploy that was accepted. -/
def afterDeploy (reconcile : Bool) (stampedAt : Nat) (floorAdopted : Option Bool) : WakeTask ε :=
  unlessCancelled reconcile <|
    let deployed : WakeTask ε := .call .nowMs fun deployedAt =>
      converge reconcile floorAdopted stampedAt deployedAt wakeConfirmAttempts
    if reconcile then deployed else .call .onDeployed fun _ => deployed

/-- Stamp, then deploy. -/
def deploy (reconcile : Bool) : WakeTask ε :=
  .call .nowMs fun stampedAt => .call (.stamp stampedAt) fun _ =>
    .call .startManagedAgent fun
      | .ok floorAdopted => afterDeploy reconcile stampedAt floorAdopted
      | .error error => unlessCancelled reconcile <| .call .nowMs fun settledAt =>
          .call (.refreshStamp stampedAt settledAt) fun _ =>
            .done { outcome := .deployFailed, reconcile := reconcile, error := some error }

/-- The last gate before the deploy. -/
def confirmAuthor (reconcile : Bool) : WakeTask ε :=
  unlessCancelled reconcile <| .call .confirmAuthorNotKnownAgent fun
    | .ok true => unlessCancelled reconcile <| deploy reconcile
    | .ok false => finish .authorRejected reconcile
    | .error error =>
        .done { outcome := .authorUnverified, reconcile := reconcile, error := some error }

/-- The dead path: wait out the teardown fence and look once more. -/
def teardownFence (tracker : LiveEvidenceTracker) : WakeTask ε :=
  .call (.delay remotePostOfflineGraceMs) fun _ => unlessCancelled false <|
    .call .presence fun presence => unlessProven tracker fun _ =>
      confirmAuthor (isManagedAgentLive (presence.toOption.getD none))

/-- After the evidence window: both terminal conditions once more. -/
def afterEvidence (hadEntryAtStart announcedExit : Bool) (tracker : LiveEvidenceTracker) :
    WakeTask ε :=
  unlessProven tracker fun tracker => checkExit hadEntryAtStart fun exited =>
    if announcedExit || exited then teardownFence tracker else confirmAuthor true

/-- The evidence window, at poll `attempt` with this many left. -/
def evidence (hadEntryAtStart : Bool) : (left attempt : Nat) → LiveEvidenceTracker → WakeTask ε
  | 0, _, tracker => afterEvidence hadEntryAtStart false tracker
  | left + 1, attempt, tracker =>
      unlessProven tracker fun tracker => checkExit hadEntryAtStart fun exited =>
        if exited then afterEvidence hadEntryAtStart true tracker
        else if wakeLiveNoBeatBailoutAttempts ≤ attempt && !tracker.hasPostFenceBeat then
          afterEvidence hadEntryAtStart false tracker
        else .call (.delay wakeLiveEvidencePollMs) fun _ => unlessCancelled false <|
          evidence hadEntryAtStart left (attempt + 1) tracker

/-- The attempt once it has the claim. -/
def claimedAttempt (attemptStartedAt : Nat) : WakeTask ε :=
  .call .presence fun presence => unlessCancelled false <|
    let tracker := LiveEvidenceTracker.new attemptStartedAt
    if isManagedAgentLive (presence.toOption.getD none) then
      .call .heartbeat fun beat => evidence beat.isSome wakeLiveEvidenceAttempts 0 tracker
    else if presence.toBool then teardownFence tracker
    else confirmAuthor false

def runWakeAttempt (trigger : ClaimingTrigger) : WakeTask ε :=
  .call .nowMs fun attemptStartedAt => .call .isCancelled fun aborted =>
    .call (.claim trigger attemptStartedAt aborted) fun
      | .ok _ => claimedAttempt attemptStartedAt
      | .error refusal =>
          .done { outcome := refusal.outcome, inFlightOwner := refusal.inFlightOwner }

/-! ## Attempts of one agent -/

/-- What an attempt was told, and when it deployed. -/
inductive WakeEntry where
  | now (ms : Nat)
  | cancelled (fired : Bool)
  | beat (observation : Option HeartbeatObservation)
  /-- The answer of the author gate; `none` is an error. -/
  | author (confirmed : Option Bool)
  | started (ms : Nat)
  | settled (ms : Nat) (accepted : Bool)
deriving DecidableEq

structure Attempt (ε : Type) where
  trigger : ClaimingTrigger
  task : WakeTask ε
  /-- When it was last suspended. -/
  since : Nat
  /-- It has the `AttemptClaim` guard. -/
  holds : Bool
  /-- Its future was dropped at an await. -/
  dropped : Bool
  log : List WakeEntry

/-- Nothing is left to run: it returned, or it was dropped. -/
def Attempt.isOver (a : Attempt ε) : Bool :=
  match a.task with
  | .done _ => true
  | .call .. => a.dropped

/-- What the calls between two awaits are answered, in turn; a call past the
end hears no cancellation and no heartbeat. -/
structure Told where
  cancelled : List Bool := []
  beats : List (Option HeartbeatObservation) := []
deriving DecidableEq

/-- The answer to what an attempt awaits. -/
inductive WakeReply (ε : Type) where
  | elapsed
  | presence (answer : Except ε (Option PresenceStatus))
  | author (answer : Except ε Bool)
  | deployed (answer : Except ε (Option Bool))

/-- Run to the next await, or to the end, where the guard is dropped. -/
def advance (now : Nat) (trigger : ClaimingTrigger) :
    WakeTask ε → Told → AttemptBook → Bool → List WakeEntry → AttemptBook × Attempt ε
  | .done r, _, book, holds, log =>
      (if holds then { book with inFlight := none } else book,
        ⟨trigger, .done r, now, false, false, log⟩)
  | .call .nowMs next, told, book, holds, log =>
      advance now trigger (next now) told book holds (log ++ [.now now])
  | .call .isCancelled next, told, book, holds, log =>
      let fired := told.cancelled.headD false
      advance now trigger (next fired) { told with cancelled := told.cancelled.tail } book holds
        (log ++ [.cancelled fired])
  | .call .heartbeat next, told, book, holds, log =>
      let beat := told.beats.headD none
      advance now trigger (next beat) { told with beats := told.beats.tail } book holds
        (log ++ [.beat beat])
  | .call .onDeployed next, told, book, holds, log =>
      advance now trigger (next ()) told book holds log
  | .call (.claim claiming nowMs aborted) next, told, book, holds, log =>
      let claim := book.claim claiming nowMs aborted
      advance now trigger (next claim.2) told claim.1 (holds || claim.2.toBool) log
  | .call (.stamp atMs) next, told, book, holds, log =>
      advance now trigger (next ()) told (book.stamp atMs) holds log
  | .call (.refreshStamp stampedAt settledAt) next, told, book, holds, log =>
      advance now trigger (next ()) told (book.refreshStamp stampedAt settledAt) holds log
  | .call (.releaseStamp stampedAt) next, told, book, holds, log =>
      advance now trigger (next ()) told (book.releaseStamp stampedAt) holds log
  | .call .startManagedAgent next, _, book, holds, log =>
      (book, ⟨trigger, .call .startManagedAgent next, now, holds, false, log ++ [.started now]⟩)
  | .call (.delay ms) next, _, book, holds, log =>
      (book, ⟨trigger, .call (.delay ms) next, now, holds, false, log⟩)
  | .call .presence next, _, book, holds, log =>
      (book, ⟨trigger, .call .presence next, now, holds, false, log⟩)
  | .call .confirmAuthorNotKnownAgent next, _, book, holds, log =>
      (book, ⟨trigger, .call .confirmAuthorNotKnownAgent next, now, holds, false, log⟩)

/-- The awaited answer arrives; a delay is over no sooner than it says. -/
def Attempt.reply (a : Attempt ε) (now : Nat) (told : Told) (book : AttemptBook) :
    WakeReply ε → AttemptBook × Attempt ε
  | .elapsed =>
      match a.task with
      | .call (.delay ms) next =>
          if a.since + ms ≤ now then advance now a.trigger (next ()) told book a.holds a.log
          else (book, a)
      | _ => (book, a)
  | .presence answer =>
      match a.task with
      | .call .presence next => advance now a.trigger (next answer) told book a.holds a.log
      | _ => (book, a)
  | .author answer =>
      match a.task with
      | .call .confirmAuthorNotKnownAgent next =>
          advance now a.trigger (next answer) told book a.holds (a.log ++ [.author answer.toOption])
      | _ => (book, a)
  | .deployed answer =>
      match a.task with
      | .call .startManagedAgent next =>
          advance now a.trigger (next answer) told book a.holds
            (a.log ++ [.settled now answer.toBool])
      | _ => (book, a)

structure Wakes (ε : Type) where
  now : Nat
  book : AttemptBook := {}
  attempts : List (Attempt ε) := []

inductive WakeMove (ε : Type) where
  | tick (ms : Nat)
  | call (trigger : ClaimingTrigger) (told : Told)
  | reply (i : Nat) (reply : WakeReply ε) (told : Told)
  /-- The attempt's future is dropped where it waits. -/
  | drop (i : Nat)

namespace Wakes

variable (w : Wakes ε)

def call (trigger : ClaimingTrigger) (told : Told) : Wakes ε :=
  let ran := advance w.now trigger (runWakeAttempt trigger) told w.book false []
  { w with book := ran.1, attempts := w.attempts ++ [ran.2] }

def reply (i : Nat) (reply : WakeReply ε) (told : Told) : Wakes ε :=
  match w.attempts[i]? with
  | none => w
  | some a =>
      if a.isOver then w
      else
        let ran := a.reply w.now told w.book reply
        { w with book := ran.1, attempts := w.attempts.set i ran.2 }

def drop (i : Nat) : Wakes ε :=
  match w.attempts[i]? with
  | none => w
  | some a =>
      if a.isOver then w
      else
        { w with
          book := if a.holds then { w.book with inFlight := none } else w.book
          attempts := w.attempts.set i { a with holds := false, dropped := true } }

def step : WakeMove ε → Wakes ε
  | .tick ms => { w with now := w.now + ms }
  | .call trigger told => w.call trigger told
  | .reply i answer told => w.reply i answer told
  | .drop i => w.drop i

end Wakes

/-- One agent's attempts, with an empty book. -/
def wakes (ε : Type) (now : Nat) : Machine (Wakes ε) (WakeMove ε) := ⟨{ now := now }, Wakes.step⟩

end Buzz.Waker
