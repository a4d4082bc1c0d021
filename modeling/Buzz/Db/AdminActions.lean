import Buzz.Core.Kind
import Buzz.Lib.HashMap

/-!
# Enforcement actions of the relay's staff

A report is claimed by an action, the action's mutation commits together with
its step marker, and a last transaction closes the report. A direct action has
no report. Each transaction of `relay_admin_actions.rs`, and each statement it
runs on the pool alone, is one function on the tables: a transaction locks the
rows it decides on and re-evaluates its `WHERE` clauses under the lock, so what
it reads is what holds when it commits. The one read that is not made under a
lock, the ownership check at the start of an `execute_*_with_marker`, is a
function of its own.

Action ids and lease tokens are random and do not repeat; here they count up.
Times are the database's clock. The decision audit rows, the roles and the
row's own timestamps are left out: nothing modelled reads them. Of a delete's
thread counters and of the invites a ban revokes there is no trace either.
-/

namespace Buzz.Db

open Buzz.Lib

inductive TerminalStatus where
  | resolved
  | dismissed
  | escalated
deriving DecidableEq

inductive ReportStatus where
  | isOpen
  | processing
  | closed (status : TerminalStatus)
deriving DecidableEq

inductive ReportTarget where
  | event (id : EventId)
  | pubkey (key : PublicKey)
  | blob
deriving DecidableEq

/-- The key of a report: its community and its id. -/
abbrev ReportKey := CommunityId × Uuid

structure ReportRow where
  target : ReportTarget
  channelId : Option Uuid := none
  status : ReportStatus := .isOpen
  activeActionId : Option Nat := none
deriving DecidableEq

inductive ActionState where
  | pending
  | enforcing
  | succeeded
  | failed
  | cancelled
deriving DecidableEq

inductive StepMarker where
  | mutationCommitted
  | artifactsDone
deriving DecidableEq

inductive AdminAction where
  | delete
  | kick
  | ban
  | timeout
  /-- The audit row of a reopened report. -/
  | reopen
deriving DecidableEq

structure ActionRow where
  /-- `none` for a direct action. -/
  reportId : Option Uuid
  community : CommunityId
  requestId : Uuid
  actor : PublicKey
  action : AdminAction
  reason : Option String := none
  timeoutSecs : Option Int := none
  timeoutUntil : Option Int := none
  state : ActionState := .pending
  stepMarker : Option StepMarker := none
  cancelledBy : Option PublicKey := none
  targetPubkey : Option PublicKey := none
  channelId : Option Uuid := none
  targetEventId : Option EventId := none
  leaseToken : Option Nat := none
  leaseExpiresAt : Option Int := none
deriving DecidableEq

structure BanRow where
  banned : Bool
  banExpiresAt : Option Int := none
  mutedUntil : Option Int := none
  actor : PublicKey
  banReason : Option String := none
  muteReason : Option String := none
deriving DecidableEq

/-- The columns of `events` an action reads or writes. -/
structure TargetEventRow where
  author : PublicKey
  kind : Nat
  deleted : Bool := false
deriving DecidableEq

/-- What the delivery worker is asked to send; `task_type` and payload. -/
inductive OutboxTask where
  | tombstone (community : CommunityId) (channel : Uuid) (event : EventId)
      (actor : PublicKey) (reasonCode : String)
  | systemMessage (community : CommunityId) (channel : Uuid) (target : PublicKey)
  | reporterNotice (community : CommunityId)
  | contentActioned (community : CommunityId) (recipient : PublicKey) (publicReason : String)
  | restriction (community : CommunityId) (recipient : PublicKey) (publicReason : String)
      (kind : AdminAction) (timeoutUntil : Option Int)
deriving DecidableEq

/-- The task's part of a `dedup_key`; the two notices to the actioned user
share theirs. -/
def OutboxTask.taskType : OutboxTask → String
  | .tombstone .. => "tombstone"
  | .systemMessage .. => "system_message"
  | .reporterNotice .. => "reporter_notice"
  | .contentActioned .. => "affected_user_notice"
  | .restriction .. => "affected_user_notice"

structure AdminStore where
  now : Int := 0
  reports : HMap ReportKey ReportRow := ∅
  actions : HMap Nat ActionRow := ∅
  bans : HMap (CommunityId × PublicKey) BanRow := ∅
  members : List (CommunityId × Uuid × PublicKey) := []
  events : HMap (CommunityId × EventId) TargetEventRow := ∅
  outbox : List (Nat × OutboxTask) := []
  nextAction : Nat := 0
  nextToken : Nat := 0
  /-- A ghost: the action of every `execute_*_with_marker` that committed. -/
  executed : List Nat := []

namespace ActionRow

/-- The states the recovery worker looks for. -/
def leasable (a : ActionRow) : Bool := a.state = .pending || a.state = .enforcing

/-- `action_lease_expires_at IS NULL OR action_lease_expires_at < now()`. -/
def leaseFree (a : ActionRow) (now : Int) : Bool := a.leaseExpiresAt.all (· < now)

/-- The caller's token is on the row and its lease has not run out. -/
def heldBy (a : ActionRow) (token : Nat) (now : Int) : Bool :=
  a.leaseToken = some token && a.leaseExpiresAt.any (now < ·)

def isOn (a : ActionRow) (key : ReportKey) : Bool :=
  a.community = key.1 && a.reportId = some key.2

end ActionRow

namespace AdminStore

/-! ## Updates

An `UPDATE` of one row; `none` is `rows_affected() == 0`. -/

variable (s : AdminStore)

def updateAction (id : Nat) (cond : ActionRow → Bool)
    (set : ActionRow → ActionRow) : Option AdminStore :=
  match s.actions.lookup id with
  | some a => if cond a then some { s with actions := s.actions.insert id (set a) } else none
  | none => none

def updateReport (key : ReportKey) (cond : ReportRow → Bool)
    (set : ReportRow → ReportRow) : Option AdminStore :=
  match s.reports.lookup key with
  | some r => if cond r then some { s with reports := s.reports.insert key (set r) } else none
  | none => none

def insertAction (a : ActionRow) : AdminStore :=
  { s with actions := s.actions.insert s.nextAction a, nextAction := s.nextAction + 1 }

/-- `WHERE report_community_id = … AND report_id = … AND request_id = …`, which
a unique index makes one row. -/
def findRequest (key : ReportKey) (requestId : Uuid) :
    Option (Nat × ActionRow) :=
  (s.actions.entries.find? fun e => e.2.isOn key ∧ e.2.requestId = requestId).map
    fun e => (e.1, e.2)

/-! ## Reports -/

/-- `insert_report`, once for a report event. -/
def insertReport (key : ReportKey) (target : ReportTarget)
    (channelId : Option Uuid) (illegal : Bool) : AdminStore :=
  if (s.reports.lookup key).isSome then s
  else
    let status := if illegal then .closed .escalated else .isOpen
    { s with reports := s.reports.insert key { target, channelId, status } }

def resolveReportDecisionAtomic (key : ReportKey) (terminal : TerminalStatus) :
    Option AdminStore :=
  s.updateReport key (·.status = .isOpen) fun r =>
    { r with status := .closed terminal, activeActionId := none }

inductive ClaimResult where
  | claimed (id : Nat) (row : ActionRow)
  | alreadyClaimed (id : Nat) (row : ActionRow)
  | notOpen (status : ReportStatus)
  | notFound
  /-- The request id is taken by an earlier action on the report. -/
  | uniqueViolation

structure ClaimInput where
  requestId : Uuid
  actor : PublicKey
  action : AdminAction
  reason : Option String := none
  timeoutUntil : Option Int := none
  targetPubkey : Option PublicKey := none
  channelId : Option Uuid := none

def claimedAction (key : ReportKey) (input : ClaimInput) : ActionRow where
  reportId := some key.2
  community := key.1
  requestId := input.requestId
  actor := input.actor
  action := input.action
  reason := input.reason
  timeoutUntil := input.timeoutUntil
  targetPubkey := input.targetPubkey
  channelId := input.channelId

def claimReport (key : ReportKey) (input : ClaimInput) :
    AdminStore × ClaimResult :=
  match s.reports.lookup key with
  | none => (s, .notFound)
  | some report =>
      match report.status with
      | .processing =>
          match s.findRequest key input.requestId with
          | some (id, row) => (s, .alreadyClaimed id row)
          | none => (s, .notOpen .processing)
      | .closed terminal => (s, .notOpen (.closed terminal))
      | .isOpen =>
          match s.findRequest key input.requestId with
          | some _ => (s, .uniqueViolation)
          | none =>
              let row := claimedAction key input
              let report' := { report with
                status := .processing, activeActionId := some s.nextAction }
              ({ s.insertAction row with reports := s.reports.insert key report' },
                .claimed s.nextAction row)

inductive ReopenResult where
  | reopened
  | alreadyReopened
  | notReopenable (status : ReportStatus)
  | notFound
  | uniqueViolation

def reopenReport (key : ReportKey) (requestId : Uuid) (actor : PublicKey)
    (reason : Option String) : AdminStore × ReopenResult :=
  match s.reports.lookup key with
  | none => (s, .notFound)
  | some report =>
      if (s.findRequest key requestId).any (·.2.action = .reopen) then (s, .alreadyReopened)
      else
        match report.status with
        | .closed _ =>
            match s.findRequest key requestId with
            | some _ => (s, .uniqueViolation)
            | none =>
                let row : ActionRow :=
                  { reportId := some key.2, community := key.1, requestId, actor, reason
                    action := .reopen, state := .succeeded }
                let report' := { report with status := .isOpen, activeActionId := none }
                ({ s.insertAction row with reports := s.reports.insert key report' },
                  .reopened)
        | status => (s, .notReopenable status)

/-! ## Direct actions -/

structure DirectActionInput where
  community : CommunityId
  requestId : Uuid
  actor : PublicKey
  action : AdminAction
  reason : Option String := none
  timeoutSecs : Option Int := none
  timeoutUntil : Option Int := none
  targetPubkey : Option PublicKey := none
  targetEventId : Option EventId := none
  channelId : Option Uuid := none

def directAction (input : DirectActionInput) : ActionRow where
  reportId := none
  community := input.community
  requestId := input.requestId
  actor := input.actor
  action := input.action
  reason := input.reason
  timeoutSecs := input.timeoutSecs
  timeoutUntil := input.timeoutUntil
  targetPubkey := input.targetPubkey
  channelId := input.channelId
  targetEventId := input.targetEventId

/-- `relay_admin_actions_direct_shape`, for a row without a report. -/
def directShape (a : ActionRow) : Bool :=
  match a.action with
  | .ban => a.targetPubkey.isSome && a.timeoutSecs.isNone && a.timeoutUntil.isNone
  | .timeout => a.targetPubkey.isSome && a.timeoutSecs.isSome && a.timeoutUntil.isSome
  | .delete =>
      a.targetEventId.isSome && a.targetPubkey.isSome && a.timeoutSecs.isNone &&
        a.timeoutUntil.isNone
  | .kick => false
  | .reopen => false

inductive DirectClaim where
  | claimed (id : Nat) (row : ActionRow)
  | existing (id : Nat) (row : ActionRow)
  | conflict
  | checkViolation

/-- `classify_direct`: whether a retry asks for what was accepted. -/
def classifyDirect (id : Nat) (row : ActionRow) (input : DirectActionInput) : DirectClaim :=
  let targetMatches :=
    if input.action = .delete then row.targetEventId = input.targetEventId
    else row.targetPubkey = input.targetPubkey
  if row.actor = input.actor ∧ row.action = input.action ∧ row.reason = input.reason ∧
      row.timeoutSecs = input.timeoutSecs ∧ targetMatches then .existing id row
  else .conflict

def findDirectAction (input : DirectActionInput) : Option DirectClaim :=
  (s.actions.entries.find? fun e =>
    e.2.community = input.community ∧ e.2.requestId = input.requestId ∧
      e.2.reportId = none).map fun e => classifyDirect e.1 e.2 input

def claimDirectAction (input : DirectActionInput) :
    AdminStore × DirectClaim :=
  match s.findDirectAction input with
  | some found => (s, found)
  | none =>
      let row := directAction input
      if directShape row then (s.insertAction row, .claimed s.nextAction row)
      else (s, .checkViolation)

/-! ## Leases -/

/-- The `UPDATE` that `acquire_action_lease` and each row of
`claim_stranded_action_batch` share, with a new token. -/
def leaseAction (id : Nat) (expiresAt : Int) :
    Option (AdminStore × Nat) :=
  (s.updateAction id (fun a => a.leasable && a.leaseFree s.now) fun a =>
    { a with leaseToken := some s.nextToken, leaseExpiresAt := some expiresAt }).map
    fun s' => ({ s' with nextToken := s.nextToken + 1 }, s.nextToken)

def acquireActionLease (id : Nat) (leaseUntil : Int) :
    Option (AdminStore × Nat) :=
  s.leaseAction id leaseUntil

def claimStrandedAction (id : Nat) (leaseUntil : Int) :
    Option (AdminStore × Nat) :=
  s.leaseAction id leaseUntil

def releaseActionLease (id token : Nat) : Option AdminStore :=
  s.updateAction id (·.leaseToken = some token) fun a =>
    { a with leaseToken := none, leaseExpiresAt := none }

def beginEnforcing (id : Nat) : Option AdminStore :=
  s.updateAction id (·.state = .pending) fun a => { a with state := .enforcing }

/-! ## The mutation and its marker -/

/-- What an `execute_*_with_marker` does to the domain tables. -/
inductive MutationError where
  | alreadyGone
  | artifactRevision
deriving DecidableEq

def banMember (community : CommunityId) (target actor : PublicKey)
    (reason : Option String) : AdminStore :=
  let row : BanRow :=
    match s.bans.lookup (community, target) with
    | some b => { b with banned := true, banExpiresAt := none, actor, banReason := reason }
    | none => { banned := true, actor, banReason := reason }
  { s with bans := s.bans.insert (community, target) row }

def timeoutMember (community : CommunityId) (target actor : PublicKey)
    (mutedUntil : Int) (reason : Option String) : AdminStore :=
  let row : BanRow :=
    match s.bans.lookup (community, target) with
    | some b => { b with mutedUntil := some mutedUntil, actor, muteReason := reason }
    | none => { banned := false, mutedUntil := some mutedUntil, actor, muteReason := reason }
  { s with bans := s.bans.insert (community, target) row }

def kickMember (community : CommunityId) (channel : Uuid) (target : PublicKey) :
    Except MutationError AdminStore :=
  if s.members.contains (community, channel, target) then
    .ok { s with members := s.members.filter (· ≠ (community, channel, target)) }
  else .error .alreadyGone

/-- An artifact revision is never deleted here; an absent event is no error. -/
def softDeleteEvent (community : CommunityId) (event : EventId) :
    Except MutationError AdminStore :=
  match s.events.lookup (community, event) with
  | none => .ok s
  | some e =>
      if e.kind = Core.kindArtifact then .error .artifactRevision
      else .ok { s with events := s.events.insert (community, event) { e with deleted := true } }

inductive ExecuteResult where
  | committed (s : AdminStore)
  /-- The lease was lost, or the marker is already there. -/
  | rejected
  | failed (e : MutationError)

/-- The check every `execute_*_with_marker` starts with, before it has the
row's lock. -/
def ownsAction (id token : Nat) : Bool :=
  (s.actions.lookup id).any fun a => a.heldBy token s.now && a.state = .enforcing

/-- The rest of the transaction, under the row's lock: the mutation, then the
marker, or neither. -/
def executeWithMarker (id token : Nat)
    (mutate : AdminStore → Except MutationError AdminStore) : ExecuteResult :=
  match mutate s with
  | .error e => .failed e
  | .ok s₁ =>
      match s₁.updateAction id
          (fun a => a.heldBy token s.now && a.state = .enforcing && a.stepMarker = none)
          (fun a => { a with stepMarker := some .mutationCommitted }) with
      | none => .rejected
      | some s₂ => .committed { s₂ with executed := s₂.executed ++ [id] }

def executeBanWithMarker (id token : Nat) (community : CommunityId)
    (target actor : PublicKey) (reason : Option String) : ExecuteResult :=
  s.executeWithMarker id token fun s => .ok (s.banMember community target actor reason)

def executeTimeoutWithMarker (id token : Nat) (community : CommunityId)
    (target actor : PublicKey) (mutedUntil : Int) (reason : Option String) :
    ExecuteResult :=
  s.executeWithMarker id token fun s =>
    .ok (s.timeoutMember community target actor mutedUntil reason)

def executeKickWithMarker (id token : Nat) (community : CommunityId)
    (channel : Uuid) (target : PublicKey) : ExecuteResult :=
  s.executeWithMarker id token fun s => s.kickMember community channel target

def executeDeleteWithMarker (id token : Nat) (community : CommunityId)
    (event : EventId) : ExecuteResult :=
  s.executeWithMarker id token fun s => s.softDeleteEvent community event

/-- The marker is still missing, and the lease is the caller's. -/
def recordFailure (id token : Nat) : Option AdminStore :=
  s.updateAction id
    (fun a => a.heldBy token s.now && a.state = .enforcing && a.stepMarker = none)
    fun a => { a with state := .failed }

/-! ## The end of an action -/

/-- `INSERT … ON CONFLICT (dedup_key) DO NOTHING`. -/
def enqueueOutbox (id : Nat) (task : OutboxTask) : AdminStore :=
  if s.outbox.any fun row => row.1 = id && row.2.taskType = task.taskType then s
  else { s with outbox := s.outbox ++ [(id, task)] }

structure FinalizeInput where
  community : CommunityId
  reportId : Option Uuid
  actor : PublicKey
  action : AdminAction
  targetPubkey : Option PublicKey
  targetEventId : Option EventId
  channelId : Option Uuid
  reason : Option String
  timeoutUntil : Option Int

/-- The deliveries a finished action asks for. -/
def outboxTasks (f : FinalizeInput) : List OutboxTask :=
  let reason := f.reason.getD ""
  (match f.action, f.targetEventId, f.channelId with
    | .delete, some event, some channel =>
        [OutboxTask.tombstone f.community channel event f.actor reason]
    | _, _, _ => []) ++
  (match f.action, f.targetPubkey, f.channelId with
    | .kick, some target, some channel => [.systemMessage f.community channel target]
    | _, _, _ => []) ++
  (if f.reportId.isSome then [.reporterNotice f.community] else []) ++
  (match f.action, f.targetPubkey with
    | .delete, some target => [.contentActioned f.community target reason]
    | .kick, some target => [.contentActioned f.community target reason]
    | .ban, some target => [.restriction f.community target reason .ban none]
    | .timeout, some target =>
        [.restriction f.community target reason .timeout f.timeoutUntil]
    | _, _ => [])

/-- The report's part of an action's end: it must still be the action's. -/
def releaseReport (key : ReportKey) (id : Nat) (status : ReportStatus) :
    Option AdminStore :=
  s.updateReport key (fun r => r.status = .processing && r.activeActionId = some id) fun r =>
    { r with status, activeActionId := none }

def finalizeSuccess (id : Nat) (terminal : TerminalStatus) (f : FinalizeInput) :
    Option AdminStore :=
  let updated := s.updateAction id
    (fun a => a.state = .enforcing && a.stepMarker = some .mutationCommitted)
    (fun a => { a with state := .succeeded, stepMarker := some .artifactsDone })
  let closed := updated.bind fun s₁ =>
    match f.reportId with
    | none => some s₁
    | some reportId => s₁.releaseReport (f.community, reportId) id (.closed terminal)
  closed.map fun s₂ => (outboxTasks f).foldl (·.enqueueOutbox id) s₂

def cancelAction (id : Nat) (key : ReportKey) (cancelledBy : PublicKey) :
    Option AdminStore :=
  let updated := s.updateAction id
    (fun a => a.isOn key && a.state = .failed && a.stepMarker = none)
    (fun a => { a with state := .cancelled, cancelledBy := some cancelledBy })
  updated.bind fun s₁ => s₁.releaseReport key id .isOpen

end AdminStore

end Buzz.Db
