import Buzz.Db.AdminActions
import Buzz.Lib.Machine

/-!
# Driving an enforcement action

`drive_enforcement` takes an action from wherever its row stands to the end:
`pending → enforcing`, the lease, the mutation with its marker, the live side
effects, the last transaction. HTTP requests and the recovery worker drive the
same action at the same time, on any number of pods.

Every database call of a driver is a move of its own, with the answer it gets:
a call may take effect and its answer be lost, or not take effect at all. The
ownership check of an `execute_*_with_marker` and the rest of that transaction
are two moves. `clock` is the relay's own clock, from which leases are timed; a
driver that makes no further move has crashed.

Members, events and bans also change by other hands, which is a move each.
-/

namespace Buzz.Relay

open Buzz.Db Buzz.Lib

/-- How a database call ends. -/
inductive Answer where
  | ok
  /-- It took effect; the caller sees an error. -/
  | lost
  | failed
deriving DecidableEq

/-- Whether the database did what it was asked. -/
def Answer.applied : Answer → Bool
  | .ok | .lost => true
  | .failed => false

/-- `MutationOutcome`, or the error instead of one. -/
inductive MutationOutcome where
  | committed
  | alreadyCommitted
  | leaseLost
  | error
deriving DecidableEq

/-- What follows a reload of the record. -/
inductive Reload where
  /-- The head of the loop. -/
  | head
  /-- The middle of it, after `begin_enforcing`. -/
  | body
  /-- The return. -/
  | last
deriving DecidableEq

/-- The call a driver makes next. -/
inductive DrivePhase where
  | begin
  | reload (next : Reload)
  | acquire
  /-- The `SELECT` that says why the lease was not granted. -/
  | contended
  | own (token : Nat)
  | mutate (token : Nat)
  /-- The reload that tells a lost lease from a marker already there. -/
  | classify (token : Nat)
  | recordFailure (token : Nat)
  | release (token : Nat) (outcome : MutationOutcome)
  | sideEffects
  | finalize
  | done
deriving DecidableEq

/-- Where an outcome leads, once the lease is given back. -/
def MutationOutcome.next : MutationOutcome → DrivePhase
  | .committed => .sideEffects
  | .alreadyCommitted => .reload .head
  | .leaseLost => .done
  | .error => .done

/-- The arguments of a `drive_enforcement` call, but for the record. -/
structure DriveArgs where
  actionId : Nat
  community : CommunityId
  reportId : Option Uuid
  action : AdminAction
  reason : Option String
  timeoutUntil : Option Int
  actor : PublicKey
  targetPubkey : Option PublicKey
  targetEventId : Option EventId
  channelId : Option Uuid
  heldLease : Option Nat := none

structure Driver where
  args : DriveArgs
  record : ActionRow
  contentionAttempts : Nat := 0
  phase : DrivePhase

def maxContentionAttempts : Nat := 30

/-- `chrono::Duration::seconds(60)`, in microseconds. -/
def httpLeaseMicros : Int := 60000000

/-- The worker's `LEASE_SECS`. -/
def workerLeaseMicros : Int := 120000000

namespace DriveArgs

/-- The call of `run_atomic_mutation`, unless an argument is missing. -/
def mutation (d : DriveArgs) (token : Nat) : Option (AdminStore → AdminStore.ExecuteResult) :=
  match d.action with
  | .ban =>
      d.targetPubkey.map fun target s =>
        s.executeBanWithMarker d.actionId token d.community target d.actor d.reason
  | .timeout =>
      d.targetPubkey.bind fun target => d.timeoutUntil.map fun mutedUntil s =>
        s.executeTimeoutWithMarker d.actionId token d.community target d.actor mutedUntil
          d.reason
  | .kick =>
      d.targetPubkey.bind fun target => d.channelId.map fun channel s =>
        s.executeKickWithMarker d.actionId token d.community channel target
  | .delete =>
      d.targetEventId.map fun event s =>
        s.executeDeleteWithMarker d.actionId token d.community event
  | .reopen => none

def finalizeInput (d : DriveArgs) : AdminStore.FinalizeInput where
  community := d.community
  reportId := d.reportId
  actor := d.actor
  action := d.action
  targetPubkey := d.targetPubkey
  targetEventId := d.targetEventId
  channelId := d.channelId
  reason := d.reason
  timeoutUntil := d.timeoutUntil

end DriveArgs

namespace Driver

variable (d : Driver)

/-- The token in hand: run the mutation. -/
def runMutation (token : Nat) : DrivePhase :=
  if (d.args.mutation token).isSome then .own token else .recordFailure token

/-- The loop from the step marker on. -/
def loopBody : DrivePhase :=
  match d.record.stepMarker, d.args.heldLease with
  | some _, _ => .sideEffects
  | none, some token => d.runMutation token
  | none, none => .acquire

def loopHead : DrivePhase :=
  match d.record.state with
  | .succeeded => .done
  | .failed => .done
  | .pending => .begin
  | .enforcing => d.loopBody
  | .cancelled => d.loopBody

/-- A new call, at the head of its loop. -/
def start (args : DriveArgs) (record : ActionRow) : Driver :=
  let d : Driver := { args, record, phase := .done }
  { d with phase := d.loopHead }

def goto (phase : DrivePhase) : Driver := { d with phase }

/-- The record as it was just read; an action never disappears. -/
def reloaded (row : Option ActionRow) (next : Reload) : Driver :=
  match row with
  | none => d.goto .done
  | some record =>
      let d' := { d with record }
      match next with
      | .head => d'.goto d'.loopHead
      | .body => d'.goto d'.loopBody
      | .last => d'.goto .done

/-- After the mutation, or after its failure was recorded: give the lease back,
unless it is the caller's. -/
def releaseThen (token : Nat) (outcome : MutationOutcome) : DrivePhase :=
  if d.args.heldLease.isSome then outcome.next else .release token outcome

/-- A kick needs a target here, persisted or passed; a ban without one has
nobody to disconnect. -/
def sideEffectsPossible : Bool :=
  d.args.action ≠ .kick ||
    ((d.record.targetPubkey.or d.args.targetPubkey).isSome &&
      (d.record.channelId.or d.args.channelId).isSome)

/-- One call: what it does to the tables, and where the driver goes with the
answer. -/
def call (s : AdminStore) (clock : Int) : AdminStore × Driver :=
  let id := d.args.actionId
  match d.phase with
  | .begin =>
      match s.beginEnforcing id with
      | some s' => (s', d.goto (.reload .body))
      | none => (s, d.goto (.reload .head))
  | .reload next => (s, d.reloaded (s.actions.lookup id) next)
  | .acquire =>
      match s.acquireActionLease id (clock + httpLeaseMicros) with
      | some (s', token) => (s', d.goto (d.runMutation token))
      | none => (s, d.goto .contended)
  | .contended =>
      match s.actions.lookup id with
      | some a =>
          if a.leasable then
            let d' := { d with contentionAttempts := d.contentionAttempts + 1 }
            (s, d'.goto
              (if maxContentionAttempts ≤ d'.contentionAttempts then .done
                else .reload .head))
          else (s, d.goto (.reload .head))
      | none => (s, d.goto (.reload .head))
  | .own token =>
      (s, d.goto (if s.ownsAction id token then .mutate token else .classify token))
  | .mutate token =>
      match d.args.mutation token with
      | none => (s, d.goto (.recordFailure token))
      | some execute =>
          match execute s with
          | .committed s' => (s', d.goto (d.releaseThen token .committed))
          | .rejected => (s, d.goto (.classify token))
          | .failed _ => (s, d.goto (.recordFailure token))
  | .classify token =>
      let marked := (s.actions.lookup id).any (·.stepMarker.isSome)
      (s, d.goto (d.releaseThen token (if marked then .alreadyCommitted else .leaseLost)))
  | .recordFailure token =>
      ((s.recordFailure id token).getD s, d.goto (d.releaseThen token .error))
  | .release token outcome =>
      ((s.releaseActionLease id token).getD s, d.goto outcome.next)
  | .sideEffects => (s, d.goto (if d.sideEffectsPossible then .finalize else .done))
  | .finalize =>
      match s.finalizeSuccess id .resolved d.args.finalizeInput with
      | some s' => (s', d.goto .done)
      | none => (s, d.goto (.reload .last))
  | .done => (s, d)

/-- Where an error takes the driver. -/
def onError : DrivePhase :=
  match d.phase with
  | .own token => .recordFailure token
  | .mutate token => .recordFailure token
  | .classify token => .recordFailure token
  | .recordFailure token => d.releaseThen token .error
  -- The answer of the release is not looked at.
  | .release _ outcome => outcome.next
  | _ => .done

/-- The call with its answer. -/
def step (s : AdminStore) (answer : Answer) (clock : Int) :
    AdminStore × Driver :=
  let (s', d') := d.call s clock
  match answer with
  | .ok => (s', d')
  | .lost => (s', d.goto d.onError)
  | .failed => (s, d.goto d.onError)

end Driver

/-! ## Where drivers come from -/

/-- `derive_enforcement_target`; `author` is the stored event's, if it is
still there. -/
def deriveEnforcementTarget (target : ReportTarget) (author : Option PublicKey) :
    Option PublicKey × Option EventId :=
  match target with
  | .event id => (author, some id)
  | .pubkey key => (some key, none)
  | .blob => (none, none)

/-- `http_validate_and_derive_status`, for an enforcement action. -/
def enforcementValid (action : AdminAction) (target : ReportTarget) (channelId : Option Uuid)
    (timeoutUntil : Option Int) : Bool :=
  (match action, target with
    | .reopen, _ => false
    | _, .event _ => true
    | .ban, .pubkey _ => true
    | .timeout, .pubkey _ => true
    | _, _ => false) &&
  (action ≠ .kick || channelId.isSome) &&
  ((action = .timeout : Bool) = timeoutUntil.isSome)

structure ResolveRequest where
  key : ReportKey
  requestId : Uuid
  actor : PublicKey
  action : AdminAction
  reason : Option String := none
  timeoutUntil : Option Int := none
  /-- The author of the reported event, when the report was loaded. -/
  author : Option PublicKey := none

/-- The arguments an action record stands for. -/
def recordArgs (id : Nat) (row : ActionRow) (targetPubkey : Option PublicKey)
    (targetEventId : Option EventId) (channelId : Option Uuid) (heldLease : Option Nat) :
    DriveArgs where
  actionId := id
  community := row.community
  reportId := row.reportId
  action := row.action
  reason := row.reason
  timeoutUntil := row.timeoutUntil
  actor := row.actor
  targetPubkey := targetPubkey
  targetEventId := targetEventId
  channelId := channelId
  heldLease := heldLease

/-- `drive_direct_action`. -/
def driveDirectAction (id : Nat) (row : ActionRow) (heldLease : Option Nat) : Driver :=
  .start (recordArgs id row row.targetPubkey row.targetEventId row.channelId heldLease) row

/-- `resolve_report_with_enforcement`, up to its driver. The record is driven
as it was first claimed, for the report in the path. -/
def resolveReportWithEnforcement (s : AdminStore) (r : ResolveRequest) :
    AdminStore × Option Driver :=
  match s.reports.lookup r.key with
  | none => (s, none)
  | some report =>
      let (targetPubkey, targetEventId) := deriveEnforcementTarget report.target r.author
      if !enforcementValid r.action report.target report.channelId r.timeoutUntil ||
          (r.action ≠ .delete && targetPubkey.isNone) then (s, none)
      else
        let drive (id : Nat) (row : ActionRow) : Driver :=
          let args := recordArgs id row targetPubkey targetEventId report.channelId none
          .start { args with community := r.key.1, reportId := some r.key.2 } row
        match s.claimReport r.key
            { requestId := r.requestId, actor := r.actor, action := r.action
              reason := r.reason, timeoutUntil := r.timeoutUntil, targetPubkey
              channelId := report.channelId } with
        | (s', .claimed id row) => (s', some (drive id row))
        | (s', .alreadyClaimed id row) => (s', some (drive id row))
        | (s', _) => (s', none)

/-- The driver of an accepted direct action. -/
def driveDirectClaim (community : CommunityId) : AdminStore.DirectClaim → Option Driver
  | .claimed id row | .existing id row =>
      let args := recordArgs id row row.targetPubkey row.targetEventId row.channelId none
      some (.start { args with community, reportId := none } row)
  | .conflict => none
  | .checkViolation => none

/-- `recover_one`, after the row was leased; `author` as in a resolve request. -/
def recoverOne (s : AdminStore) (id token : Nat) (row : ActionRow)
    (author : Option PublicKey) : Option Driver :=
  match row.reportId with
  | none => some (driveDirectAction id row (some token))
  | some reportId =>
      if row.action = .kick ∧ (row.targetPubkey.isSome ∨ row.channelId.isSome) then
        some (.start (recordArgs id row row.targetPubkey none row.channelId (some token)) row)
      else
        (s.reports.lookup (row.community, reportId)).map fun report =>
          let (targetPubkey, targetEventId) := deriveEnforcementTarget report.target author
          .start (recordArgs id row targetPubkey targetEventId report.channelId (some token))
            row

/-- A row of `claim_stranded_action_batch`, and its recovery. -/
def recoverStranded (s : AdminStore) (id : Nat) (clock : Int) (author : Option PublicKey) :
    AdminStore × Option Driver :=
  match s.claimStrandedAction id (clock + workerLeaseMicros) with
  | none => (s, none)
  | some (s', token) =>
      (s', (s'.actions.lookup id).bind fun row => recoverOne s' id token row author)

/-! ## The machine -/

structure AdminState extends AdminStore where
  drivers : List Driver := []

inductive AdminMove where
  | resolve (request : ResolveRequest) (answer : Answer)
  | direct (input : AdminStore.DirectActionInput) (answer : Answer)
  /-- A retry whose validation fails finds the accepted action. -/
  | findDirect (input : AdminStore.DirectActionInput)
  | recover (id : Nat) (clock : Int) (author : Option PublicKey) (answer : Answer)
  | drive (i : Nat) (answer : Answer) (clock : Int)
  | decide (key : ReportKey) (terminal : TerminalStatus) (answer : Answer)
  | cancel (id : Nat) (key : ReportKey) (cancelledBy : PublicKey) (answer : Answer)
  | reopen (key : ReportKey) (requestId : Uuid) (actor : PublicKey) (reason : Option String)
      (answer : Answer)
  | report (key : ReportKey) (target : ReportTarget) (channelId : Option Uuid)
      (illegal : Bool)
  | tick (micros : Nat)
  | setMembers (members : List (CommunityId × Uuid × PublicKey))
  | setEvent (key : CommunityId × EventId) (row : TargetEventRow)
  | setBan (key : CommunityId × PublicKey) (row : BanRow)

namespace AdminState

/-- A transaction that hands over to a driver, if its answer arrives. -/
def accept (s : AdminState) (answer : Answer) (result : AdminStore × Option Driver) :
    AdminState :=
  match answer with
  | .ok => ⟨result.1, s.drivers ++ result.2.toList⟩
  | .lost => ⟨result.1, s.drivers⟩
  | .failed => s

/-- A transaction nobody waits for here. -/
def transact (s : AdminState) (answer : Answer) (result : Option AdminStore) : AdminState :=
  if answer.applied then ⟨result.getD s.toAdminStore, s.drivers⟩ else s

def step (s : AdminState) : AdminMove → AdminState
  | .resolve request answer =>
      s.accept answer (resolveReportWithEnforcement s.toAdminStore request)
  | .direct input answer =>
      let (store, claim) := s.claimDirectAction input
      s.accept answer (store, driveDirectClaim input.community claim)
  | .findDirect input =>
      s.accept .ok (s.toAdminStore,
        (s.findDirectAction input).bind (driveDirectClaim input.community))
  | .recover id clock author answer =>
      s.accept answer (recoverStranded s.toAdminStore id clock author)
  | .drive i answer clock =>
      match s.drivers[i]? with
      | none => s
      | some d =>
          let (store, d') := d.step s.toAdminStore answer clock
          ⟨store, s.drivers.set i d'⟩
  | .decide key terminal answer =>
      s.transact answer (s.resolveReportDecisionAtomic key terminal)
  | .cancel id key cancelledBy answer => s.transact answer (s.cancelAction id key cancelledBy)
  | .reopen key requestId actor reason answer =>
      s.transact answer (some (s.reopenReport key requestId actor reason).1)
  | .report key target channelId illegal =>
      ⟨s.insertReport key target channelId illegal, s.drivers⟩
  | .tick micros => { s with now := s.now + micros }
  | .setMembers members => { s with members }
  | .setEvent key row => { s with events := s.events.insert key row }
  | .setBan key row => { s with bans := s.bans.insert key row }

end AdminState

def adminMachine : Machine AdminState AdminMove where
  init := {}
  step := AdminState.step

end Buzz.Relay
