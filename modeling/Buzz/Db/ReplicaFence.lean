import Buzz.Db.ReplicaPages
import Buzz.Lib.HashMap
import Buzz.Lib.Machine

/-!
# The replica fence

`runtime/replica_fence.rs` and `Db::route_read`. Each pod's probe takes the
exclusive advisory lock, samples the writer's clock, scans for the oldest open
transaction and commits a heartbeat token last. The token and the wall the
handshake proves go into the pod's ring, and a routed read is served by a
replica session whose own heartbeat row proves an entry of that ring.

The writer is one list of commits. A transaction's floor guard runs row by row
inside its commit processing, and the transaction is in `pg_stat_activity` until
it has committed. A replica is the list of commits it has replayed. A restore
cuts the writer's list off and leaves the old one to the replicas that follow
it: they are what a reader session of the abandoned timeline serves from.

The clock is the writer's, in microseconds. A pod's `Instant` is a number that
comes with the move, since nothing here rests on how a pod's clock runs. What a
scan sees of other backends and of prepared transactions comes with the move,
too, and a masked `pg_stat_activity` is one of the failures. A fresh epoch is
one no timeline has had.
-/

namespace Buzz.Db

open Buzz.Core Buzz.Lib

def createdAtFloorSecs : Nat := 960

def fenceClockMarginSecs : Int := 5

/-- `FENCE_STALENESS`, in microseconds. -/
def fenceStaleness : Nat := 30000000

def ringCapacity : Nat := 120

structure TokenEntry where
  token : Nat
  committedAt : Nat
  fenceWall : Int
  /-- Ghosts: the commits up to the token's own, how many there were at the
  activity scan, and how many restores had been made when it was recorded. -/
  upto : List Commit
  since : Nat
  recordedIn : Nat

/-- `FenceInner`. -/
structure ReplicaFence where
  epoch : Option Nat := none
  ring : List TokenEntry := []

inductive RecordOutcome where
  | recorded
  | tokenRegression
deriving DecidableEq

inductive ResolveOutcome where
  | proved (entry : TokenEntry)
  | epochMismatch
  | tokenBehind

namespace ReplicaFence

variable (f : ReplicaFence)

def close : ReplicaFence := { f with ring := [] }

/-- `pop_front` at capacity, then `push_back`. -/
def push (entry : TokenEntry) : ReplicaFence :=
  { f with
      ring := (if f.ring.length = ringCapacity then f.ring.tail else f.ring) ++ [entry] }

def record (epoch : Nat) (entry : TokenEntry) :
    ReplicaFence × RecordOutcome :=
  if f.epoch ≠ some epoch then
    (({ epoch := some epoch, ring := [] } : ReplicaFence).push entry, .recorded)
  else if f.ring.getLast?.any (entry.token ≤ ·.token) then
    ({ f with ring := [] }, .tokenRegression)
  else (f.push entry, .recorded)

def resolve (observed : Beat) : ResolveOutcome :=
  if f.epoch.any (· ≠ observed.epoch) then .epochMismatch
  else
    match f.ring.reverse.find? (·.token ≤ observed.token) with
    | some entry => .proved entry
    | none => .tokenBehind

/-- The newest entry, unless it is stale. -/
def newest (now : Nat) : Option TokenEntry :=
  f.ring.getLast?.filter fun entry => now - entry.committedAt ≤ fenceStaleness

end ReplicaFence

/-- `min(oldest_xact_start, S) - floor - clock_margin`. -/
def fenceWall (sampledAt : Int) (oldestXactStart : Option Int) : Int :=
  oldestXactStart.elim sampledAt (min · sampledAt) - micros createdAtFloorSecs -
    micros fenceClockMarginSecs

/-! ## Routes -/

inductive RoutePredicate where
  | bounded
  | covered (upper : Int)
  | coveredPostVerified
  | boundedOrCovered (upper : Int)
deriving DecidableEq

inductive RouteReason where
  | covered
  | fresh
deriving DecidableEq

inductive ReadRequest where
  | window (channelId : Uuid) (limit : Nat) (cursor : Option (Int × List UInt8))
      (kinds : Option (List Nat))
  | query (q : EventQuery)
  | thread (root : EventId) (depthLimit : Option Nat) (limit : Nat)
      (cursor : Option (List UInt8))
deriving DecidableEq

/-- `from_channel_cursor`, `for_query` and the match of `get_thread_replies`.
The query seams stay dark without a read budget. -/
def ReadRequest.predicate (routingEnabled : Bool) : ReadRequest → RoutePredicate
  | .window _ _ (some (ts, _)) _ => .covered ts
  | .window _ _ none _ => .bounded
  | .query q =>
      if routingEnabled then
        match q.channelId, q.until' with
        | some _, some upper => .boundedOrCovered (micros upper)
        | _, _ => .bounded
      else .bounded
  | .thread _ _ _ (some _) => .coveredPostVerified
  | .thread _ _ _ none => .bounded

/-- The post-check of `get_thread_replies`: a full page, none of it above the
proved wall. A page that fails it is read again from the writer. -/
def ReadRequest.postVerified (entry : TokenEntry) (t : Tables) : ReadRequest → Bool
  | .thread root depthLimit limit cursor =>
      match getThreadRepliesOn t root depthLimit limit cursor with
      | .ok replies =>
          limit ≤ replies.length &&
            replies.getLast?.any (micros ·.createdAt ≤ entry.fenceWall)
      | .error _ => false
  | _ => true

/-- What a session that has these tables answers. -/
def ReadRequest.answer (t : Tables) : ReadRequest → Except DbError (List StoredEvent)
  | .window channelId limit cursor kinds =>
      .ok (getChannelWindowOn t channelId limit cursor kinds)
  | .query q => queryEventsOn q t
  | .thread root depthLimit limit cursor =>
      (getThreadRepliesOn t root depthLimit limit cursor).map fun replies =>
        replies.filterMap fun row => rowToStoredEvent row.stored.columns

/-- The arms of a predicate against an entry: the shared newest one for the
precheck, the proved one for the verdict. -/
def boundedHolds (budget : Option Nat) (entry : TokenEntry) (now : Nat) : Bool :=
  budget.any (now - entry.committedAt ≤ ·)

def RoutePredicate.verdict (predicate : RoutePredicate) (budget : Option Nat)
    (entry : TokenEntry) (now : Nat) : Option RouteReason :=
  match predicate with
  | .bounded => if boundedHolds budget entry now then some .fresh else none
  | .covered upper => if upper ≤ entry.fenceWall then some .covered else none
  | .coveredPostVerified => some .covered
  | .boundedOrCovered upper =>
      if upper ≤ entry.fenceWall then some .covered
      else if boundedHolds budget entry now then some .fresh else none

/-- The precheck passes where the verdict on the newest entry would. -/
def RoutePredicate.precheck (predicate : RoutePredicate) (budget : Option Nat)
    (newest : TokenEntry) (now : Nat) : Bool :=
  (predicate.verdict budget newest now).isSome

/-! ## The writer, the pods and the replicas -/

inductive TxnPhase where
  | active
  /-- Commit processing: how many writes the deferred guard has passed. -/
  | committing (checked : Nat)
  | done
deriving DecidableEq

structure Txn where
  xactStart : Int
  /-- `buzz.created_at_floor`. -/
  floorSecs : Option Nat
  writes : List Write := []
  phase : TxnPhase := .active

/-- Where a `probe_once` call stands. The fields gather what it has read; the
last three are ghosts. -/
inductive ProbePhase where
  | idle
  | begun (xactStart : Int)
  | locked (xactStart : Int)
  | sampled (xactStart sampledAt : Int)
  | scanned (xactStart wall : Int) (since : Nat)
  /-- The heartbeat row is updated and locked. -/
  | updated (xactStart wall : Int) (since : Nat) (beat : Beat) (committedAt : Nat)
  | committed (wall : Int) (since : Nat) (beat : Beat) (committedAt : Nat)
      (upto : List Commit)
  /-- The token went backwards; the epoch is to be rotated. -/
  | regressed (wall : Int) (since : Nat)
  | rotated (wall : Int) (since : Nat) (beat : Beat) (committedAt : Nat)
      (upto : List Commit)
  /-- The writer it was connected to is gone. -/
  | broken

/-- The start of the probe's open transaction, if it has one. -/
def ProbePhase.xactStart : ProbePhase → Option Int
  | .begun x | .locked x | .sampled x _ | .scanned x _ _ | .updated x _ _ _ _ => some x
  | _ => none

def ProbePhase.holdsLock : ProbePhase → Bool
  | .locked _ | .sampled _ _ | .scanned _ _ _ | .updated _ _ _ _ _ => true
  | _ => false

def ProbePhase.holdsRow : ProbePhase → Bool
  | .updated .. => true
  | _ => false

structure RelayPod where
  fence : ReplicaFence := {}
  probe : ProbePhase := .idle
  /-- `replica_read_max_age`, in microseconds. -/
  budget : Option Nat

inductive ReadPhase where
  | prechecked
  /-- The reader transaction is open, its snapshot fixed and its heartbeat row
  read. -/
  | observed (snapshot : List Commit)
  | replica (snapshot : List Commit) (entry : TokenEntry) (reason : RouteReason)
  | writer

structure RoutedRead where
  pod : Nat
  request : ReadRequest
  predicate : RoutePredicate
  phase : ReadPhase
  /-- Ghost: how many restores had been made when the read was routed. -/
  routedIn : Nat := 0

structure FenceState where
  clock : Int
  history : List Commit := []
  abandoned : List (List Commit) := []
  serials : Nat := 0
  epochs : Nat := 1
  txns : List Txn := []
  pods : List RelayPod
  replicas : List (List Commit)
  reads : List RoutedRead := []

/-- How many restores there were. -/
def FenceState.restores (s : FenceState) : Nat := s.abandoned.length

inductive FenceMove where
  | tick (micros : Nat)
  | openTxn (floorSecs : Option Nat)
  | write (txn : Nat) (w : Write)
  | prepare (txn : Nat)
  /-- The guard of the next write. -/
  | check (txn : Nat)
  | commit (txn : Nat)
  | rollback (txn : Nat)
  | beginProbe (pod : Nat)
  | lock (pod : Nat)
  | sample (pod : Nat)
  /-- `others` is the oldest start the scan sees beside the model's own
  transactions. -/
  | scan (pod : Nat) (others : Option Int)
  | update (pod : Nat) (now : Nat)
  | commitProbe (pod : Nat)
  /-- The commit happened, its answer was lost. -/
  | commitLost (pod : Nat)
  | record (pod : Nat)
  | rotate (pod : Nat) (now : Nat)
  | failProbe (pod : Nat)
  | replay (replica : Nat) (timeline : Option Nat)
  | route (pod : Nat) (request : ReadRequest) (now : Nat)
  | observe (read : Nat) (replica : Nat)
  | resolve (read : Nat) (now : Nat)
  /-- Acquiring, beginning, observing or the proof's deadline failed. -/
  | failRead (read : Nat)
  | restore (commits : Nat)

namespace FenceState

variable (s : FenceState)

def appendCommit (writes : List Write) (beat : Option Beat) : FenceState :=
  { s with
      history := s.history ++ [{ serial := s.serials, writes, beat }]
      serials := s.serials + 1 }

def setTxn (i : Nat) (t : Txn) : FenceState :=
  { s with txns := s.txns.set i t }

def setPod (i : Nat) (p : RelayPod) : FenceState :=
  { s with pods := s.pods.set i p }

def setRead (i : Nat) (r : RoutedRead) : FenceState :=
  { s with reads := s.reads.set i r }

/-- `events_created_at_floor_guard`: whether it raises. -/
def guardRaises (t : Txn) (clock : Int) : Write → Bool
  | .insert row =>
      t.floorSecs.any (fun f => 0 < f && row.stored.channelId.isSome &&
        micros row.createdAt < clock - micros f)
  | _ => false

/-- What `pg_stat_activity` shows another pod's probe: the starts of all open
transactions but its own. -/
def openStarts (pod : Nat) : List Int :=
  (s.txns.filter (·.phase ≠ .done)).map (·.xactStart) ++
    (s.pods.eraseIdx pod).filterMap (·.probe.xactStart)

def oldestStart (pod : Nat) (others : Option Int) : Option Int :=
  (s.openStarts pod ++ others.toList).min?

def lockHeld : Bool := s.pods.any (·.probe.holdsLock)

def rowHeld : Bool := s.pods.any (·.probe.holdsRow)

def onTxn (i : Nat) (f : Txn → FenceState) : FenceState :=
  match s.txns[i]? with
  | none => s
  | some t => f t

/-- The deferred guard of one write. -/
def checkWrite (i : Nat) (t : Txn) : FenceState :=
  match t.phase with
  | .committing k =>
      match t.writes[k]? with
      | none => s
      | some w =>
          if guardRaises t s.clock w then s.setTxn i { t with phase := .done }
          else s.setTxn i { t with phase := .committing (k + 1) }
  | _ => s

def commitTxn (i : Nat) (t : Txn) : FenceState :=
  if t.phase = .committing t.writes.length then
    (s.appendCommit t.writes none).setTxn i { t with phase := .done }
  else s

def onPod (i : Nat) (f : RelayPod → FenceState) : FenceState :=
  match s.pods[i]? with
  | none => s
  | some p => f p

def setProbe (i : Nat) (p : RelayPod) (probe : ProbePhase) : FenceState :=
  s.setPod i { p with probe }

/-- `run_probe` closes the fence on any error. -/
def closePod (i : Nat) (p : RelayPod) : FenceState :=
  s.setPod i { p with probe := .idle, fence := p.fence.close }

/-- `UPDATE replica_heartbeat SET token = token + 1`. -/
def nextBeat : Beat :=
  { heartbeat s.history with token := (heartbeat s.history).token + 1 }

/-- The same update with a fresh epoch. -/
def rotatedBeat : Beat := { s.nextBeat with epoch := s.epochs }

/-- The transaction of `sample_writer`, one statement a move. -/
def sampleWriter (i : Nat) (p : RelayPod) : FenceMove → FenceState
  | .beginProbe _ =>
      match p.probe with
      | .idle => s.setProbe i p (.begun s.clock)
      | _ => s
  | .lock _ =>
      match p.probe with
      | .begun x => if s.lockHeld then s else s.setProbe i p (.locked x)
      | _ => s
  | .sample _ =>
      match p.probe with
      | .locked x => s.setProbe i p (.sampled x s.clock)
      | _ => s
  | .scan _ others =>
      match p.probe with
      | .sampled x sampledAt =>
          let wall := fenceWall sampledAt (s.oldestStart i others)
          s.setProbe i p (.scanned x wall s.history.length)
      | _ => s
  | .update _ now =>
      match p.probe with
      | .scanned x wall since =>
          if s.rowHeld then s else s.setProbe i p (.updated x wall since s.nextBeat now)
      | _ => s
  | _ => s

/-- The commit of the heartbeat, with whether its answer arrives. -/
def commitProbe (i : Nat) (p : RelayPod) (answered : Bool) : FenceState :=
  match p.probe with
  | .updated _ wall since beat committedAt =>
      let s' := s.appendCommit [] (some beat)
      if answered then s'.setProbe i p (.committed wall since beat committedAt s'.history)
      else s'.closePod i p
  | _ => s

/-- The entry a sample makes. -/
def entryOf (wall : Int) (since : Nat) (beat : Beat) (committedAt : Nat)
    (upto : List Commit) : TokenEntry :=
  { token := beat.token, committedAt, fenceWall := wall, upto, since
    recordedIn := s.restores }

/-- The two calls of `record` in `probe_once`. The second one's outcome is not
looked at. -/
def recordProbe (i : Nat) (p : RelayPod) : FenceState :=
  match p.probe with
  | .committed wall since beat committedAt upto =>
      match p.fence.record beat.epoch (s.entryOf wall since beat committedAt upto) with
      | (fence, .recorded) => s.setPod i { p with fence, probe := .idle }
      | (fence, .tokenRegression) =>
          s.setPod i { p with fence, probe := .regressed wall since }
  | .rotated wall since beat committedAt upto =>
      let fence := (p.fence.record beat.epoch (s.entryOf wall since beat committedAt upto)).1
      s.setPod i { p with fence, probe := .idle }
  | _ => s

/-- The rotation, outside the handshake's transaction. -/
def rotateEpoch (i : Nat) (p : RelayPod) (now : Nat) : FenceState :=
  match p.probe with
  | .regressed wall since =>
      if s.rowHeld then s
      else
        let s' := { s.appendCommit [] (some s.rotatedBeat) with epochs := s.epochs + 1 }
        s'.setProbe i p (.rotated wall since s.rotatedBeat now s'.history)
  | _ => s

/-- `route_read` up to its precheck. -/
def routeRead (i : Nat) (request : ReadRequest) (now : Nat) : FenceState :=
  match s.pods[i]? with
  | none => s
  | some p =>
      let predicate := request.predicate p.budget.isSome
      let passes := (p.fence.newest now).any (predicate.precheck p.budget · now)
      let phase : ReadPhase := if passes then .prechecked else .writer
      let read : RoutedRead := { pod := i, request, predicate, phase }
      { s with reads := s.reads ++ [read] }

/-- The rest of `proved_reader` and the verdict, on a fixed snapshot. -/
def resolveRead (j : Nat) (now : Nat) : FenceState :=
  match s.reads[j]? with
  | none => s
  | some r =>
      match r.phase, s.pods[r.pod]? with
      | .observed snapshot, some p =>
          let phase : ReadPhase :=
            match p.fence.resolve (heartbeat snapshot) with
            | .proved entry =>
                match r.predicate.verdict p.budget entry now with
                | some reason => .replica snapshot entry reason
                | none => .writer
            | .epochMismatch => .writer
            | .tokenBehind => .writer
          s.setRead j { r with phase, routedIn := s.restores }
      | _, _ => s

/-- The timelines a replica can follow: the writer's, and the abandoned ones. -/
def timeline : Option Nat → Option (List Commit)
  | none => some s.history
  | some k => s.abandoned[k]?

/-- Replay the next commit, of a timeline the replica is on. -/
def replayOne (k : Nat) (t : Option Nat) : FenceState :=
  match s.replicas[k]?, s.timeline t with
  | some applied, some commits =>
      match commits[applied.length]? with
      | none => s
      | some c =>
          if commits.take applied.length = applied then
            { s with replicas := s.replicas.set k (applied ++ [c]) }
          else s
  | _, _ => s

def observeOn (j k : Nat) : FenceState :=
  match s.reads[j]?, s.replicas[k]? with
  | some r, some snapshot =>
      match r.phase with
      | .prechecked => s.setRead j { r with phase := .observed snapshot }
      | _ => s
  | _, _ => s

def failRead (j : Nat) : FenceState :=
  match s.reads[j]? with
  | none => s
  | some r =>
      match r.phase with
      | .prechecked | .observed _ => s.setRead j { r with phase := .writer }
      | _ => s

/-- The writer goes back to an earlier state of its own. Its connections
break. -/
def restore (n : Nat) : FenceState :=
  { s with
      history := s.history.take n
      abandoned := s.abandoned ++ [s.history]
      txns := s.txns.map ({ · with phase := .done })
      pods := s.pods.map fun p =>
        if p.probe.xactStart.isSome then { p with probe := .broken } else p }

def step : FenceMove → FenceState
  | .tick d => { s with clock := s.clock + d }
  | .openTxn floorSecs =>
      let txn : Txn := { xactStart := s.clock, floorSecs }
      { s with txns := s.txns ++ [txn] }
  | .write i w =>
      s.onTxn i fun t =>
        if t.phase = .active then s.setTxn i { t with writes := t.writes ++ [w] } else s
  | .prepare i =>
      s.onTxn i fun t =>
        if t.phase = .active then s.setTxn i { t with phase := .committing 0 } else s
  | .check i => s.onTxn i (s.checkWrite i)
  | .commit i => s.onTxn i (s.commitTxn i)
  | .rollback i => s.onTxn i fun t => s.setTxn i { t with phase := .done }
  | .beginProbe i => s.onPod i (s.sampleWriter i · (.beginProbe i))
  | .lock i => s.onPod i (s.sampleWriter i · (.lock i))
  | .sample i => s.onPod i (s.sampleWriter i · (.sample i))
  | .scan i others => s.onPod i (s.sampleWriter i · (.scan i others))
  | .update i now => s.onPod i (s.sampleWriter i · (.update i now))
  | .commitProbe i => s.onPod i (s.commitProbe i · true)
  | .commitLost i => s.onPod i (s.commitProbe i · false)
  | .record i => s.onPod i (s.recordProbe i)
  | .rotate i now => s.onPod i (s.rotateEpoch i · now)
  | .failProbe i => s.onPod i (s.closePod i)
  | .replay k t => s.replayOne k t
  | .route i request now => s.routeRead i request now
  | .observe j k => s.observeOn j k
  | .resolve j now => s.resolveRead j now
  | .failRead j => s.failRead j
  | .restore n => s.restore n

end FenceState

/-- A deployment: the clock it starts at, its pods' read budgets, and how many
replicas it has. -/
structure FenceDeployment where
  clock : Int
  budgets : List (Option Nat)
  replicas : Nat

def FenceDeployment.init (d : FenceDeployment) : FenceState where
  clock := d.clock
  pods := d.budgets.map fun budget => { budget }
  replicas := List.replicate d.replicas []

def FenceDeployment.machine (d : FenceDeployment) : Machine FenceState FenceMove where
  init := d.init
  step := FenceState.step

end Buzz.Db
