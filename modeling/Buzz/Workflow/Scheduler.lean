import Buzz.Core.Artifact
import Buzz.Core.Text
import Buzz.Lib.HashMap
import Buzz.Lib.Machine

/-!
# Scheduled workflows

`cron_tick` of `buzz-workflow/src/lib.rs`. Any number of processes tick, each by
its own clock. A tick looks at every enabled workflow in turn and stops at its
database calls, which are the steps here; between them the other processes go
on. A process may restart at any step, and loses its `last_fired` map then.

An instant is in nanoseconds. `chrono`'s range and the `cron` crate are
parameters. The calls that only log are left out, and so is the execution of a
run.
-/

namespace Buzz.Workflow

open Buzz.Lib

/-! ## Durations -/

/-- `str::trim`. -/
def trimText (text : List Char) : List Char :=
  ((text.dropWhile Core.isWhitespace).reverse.dropWhile Core.isWhitespace).reverse

/-- `hours.checked_mul(unit)` of what stands before the unit. -/
def parseUnit (digits : List Char) (unit : Nat) : Option Nat :=
  ((parseU64 (trimText digits)).map (· * unit)).filter (· < 2 ^ 64)

def parseDurationSecs (duration : String) : Option Nat :=
  let text := trimText duration.toList
  match text.getLast? with
  | some 'h' => parseUnit text.dropLast 3600
  | some 'm' => parseUnit text.dropLast 60
  | some 's' => parseUnit text.dropLast 1
  | _ => parseU64 text

/-! ## Instants -/

def nanosPerSec : Int := 1000000000

/-- `TimeDelta::num_seconds`, towards zero. -/
def numSeconds (span : Int) : Int := span.tdiv nanosPerSec

/-- `DateTime::timestamp`, downwards. -/
def timestamp (t : Int) : Int := t / nanosPerSec

/-- `as i64`. -/
def wrapI64 (n : Nat) : Int := if n < 2 ^ 63 then n else n - 2 ^ 64

/-- What other crates decide: which seconds `chrono` can represent, and when a
`cron` expression fired in the window before an instant. -/
structure Calendar where
  inRange : Int → Bool
  cronFireInstant : String → Int → Option Int

variable (cal : Calendar)

/-- `DateTime::from_timestamp(secs, 0)`. -/
def Calendar.fromTimestamp (secs : Int) : Option Int :=
  if cal.inRange secs then some (secs * nanosPerSec) else none

def intervalFireInstant (dur : String) (now : Int) : Option Int :=
  match parseDurationSecs dur with
  | some intervalSecs =>
      if 0 < intervalSecs then
        let secs := wrapI64 intervalSecs
        cal.fromTimestamp (timestamp now / secs * secs)
      else none
  | none => none

def intervalShouldFire (dur : String) (lastFired : Option Int) (now : Int) : Bool :=
  match parseDurationSecs dur with
  | some intervalSecs => intervalSecs ≤ (numSeconds (now - lastFired.getD now)).natAbs
  | none => false

/-! ## Workflows -/

abbrev WorkflowKey := CommunityId × Uuid

inductive TriggerDef where
  | schedule (cron interval : Option String)
  | other
deriving DecidableEq

structure WorkflowDef where
  enabled : Bool
  trigger : TriggerDef
deriving DecidableEq

/-- A row of `list_all_enabled_workflows`; a definition that does not parse is
`none`. -/
structure WorkflowRow where
  communityId : CommunityId
  id : Uuid
  channelId : Option Uuid
  definition : Option WorkflowDef
deriving DecidableEq

def WorkflowRow.key (row : WorkflowRow) : WorkflowKey := (row.communityId, row.id)

/-- The durable side. -/
structure FireClaim where
  key : WorkflowKey
  scheduledFor : Int
deriving DecidableEq

/-- A row of `workflow_runs`, with the claim it was created for. -/
structure WorkflowRun where
  key : WorkflowKey
  scheduledFor : Int
  /-- The `now` of the tick. -/
  firedAt : Int
deriving DecidableEq

def WorkflowRun.claim (run : WorkflowRun) : FireClaim := ⟨run.key, run.scheduledFor⟩

structure FireDb where
  claims : List FireClaim := []
  runs : List WorkflowRun := []

/-- `SELECT MAX(scheduled_for)`. -/
def FireDb.latestScheduledWorkflowFire (db : FireDb) (key : WorkflowKey) : Option Int :=
  ((db.claims.filter (·.key = key)).map (·.scheduledFor)).max?

/-! ## A tick -/

/-- The call a tick waits for, about the first of the workflows left. -/
inductive FireCall where
  | latestFire (dur : String)
  | checkOwner (scheduledFor : Int) (interval : Bool)
  | claim (scheduledFor : Int) (interval : Bool)
  | createRun (scheduledFor : Int) (interval : Bool)
  | attachRun (interval : Bool)
deriving DecidableEq

structure CronTick where
  now : Int
  workflows : List WorkflowRow
  row : WorkflowRow
  left : List WorkflowRow
  call : FireCall
deriving DecidableEq

abbrev LastFired := HMap WorkflowKey Int

/-- `interval_prefilter_should_fire`. -/
def intervalPrefilterShouldFire (lastFired : LastFired) (key : WorkflowKey) (dur : String)
    (last : Option Int) (now : Int) : LastFired × Bool :=
  if intervalShouldFire dur last now then (lastFired, true)
  else if last.isNone then (lastFired.insert key now, false)
  else (lastFired, false)

/-- An interval workflow, from its anchor to the claim. -/
def intervalDue (lastFired : LastFired) (key : WorkflowKey) (dur : String) (last : Option Int)
    (now : Int) : LastFired × Option FireCall :=
  match intervalPrefilterShouldFire lastFired key dur last now with
  | (lastFired, false) => (lastFired, none)
  | (lastFired, true) =>
      (lastFired, (intervalFireInstant cal dur now).map fun instant => .checkOwner instant true)

/-- A workflow up to its first call, if it comes to one. -/
def beginRow (now : Int) (lastFired : LastFired) (row : WorkflowRow) :
    LastFired × Option FireCall :=
  match row.definition with
  | none => (lastFired, none)
  | some definition =>
      if !definition.enabled then (lastFired, none)
      else if row.channelId.isNone then (lastFired, none)
      else
        match definition.trigger with
        | .schedule (some expr) none =>
            (lastFired, (cal.cronFireInstant expr now).map fun instant => .checkOwner instant false)
        | .schedule none (some dur) =>
            match lastFired.lookup row.key with
            | some last => intervalDue cal lastFired row.key dur (some last) now
            | none => (lastFired, some (.latestFire dur))
        | _ => (lastFired, none)

/-- The rest of the tick, up to its next call or to its end, where the map is
pruned. -/
def scanRows (now : Int) (workflows : List WorkflowRow) (lastFired : LastFired) :
    List WorkflowRow → LastFired × Option CronTick
  | [] => (lastFired.retain fun key _ => decide (key ∈ workflows.map (·.key)), none)
  | row :: left =>
      match beginRow cal now lastFired row with
      | (lastFired, none) => scanRows now workflows lastFired left
      | (lastFired, some call) => (lastFired, some ⟨now, workflows, row, left, call⟩)

/-! ## Processes -/

structure EngineProcess where
  lastFired : LastFired := ∅
  tick : Option CronTick := none

/-- How a call ends. -/
inductive DbAnswer where
  | ok
  | failed
  /-- The answer was lost, and the write is there. -/
  | failedLate
  /-- The workflow is gone, or its owner's authority. -/
  | refused
deriving DecidableEq

inductive EngineMove where
  /-- A tick of a process, with the workflows it loads or none. -/
  | cronTick (p : Nat) (now : Int) (workflows : Option (List WorkflowRow))
  | answer (p : Nat) (answer : DbAnswer)
  | restart (p : Nat)
deriving DecidableEq

structure Engines where
  db : FireDb := {}
  processes : HMap Nat EngineProcess := ∅

/-- A process that never ticked has an empty map. -/
def Engines.process (s : Engines) (p : Nat) : EngineProcess := (s.processes.lookup p).getD {}

/-- The tick goes on to the next workflows. -/
def CronTick.next (tick : CronTick) (lastFired : LastFired) : EngineProcess :=
  let (lastFired, tick) := scanRows cal tick.now tick.workflows lastFired tick.left
  ⟨lastFired, tick⟩

/-- The tick waits for another call about the same workflow. -/
def CronTick.await (tick : CronTick) (lastFired : LastFired) (call : FireCall) : EngineProcess :=
  ⟨lastFired, some { tick with call := call }⟩

/-- `last_fired.insert`, for interval triggers. -/
def CronTick.advanceClock (tick : CronTick) (lastFired : LastFired) (interval : Bool) : LastFired :=
  if interval then lastFired.insert tick.row.key tick.now else lastFired

/-- The awaited call returns. -/
def CronTick.resume (tick : CronTick) (lastFired : LastFired) (db : FireDb) (answer : DbAnswer) :
    FireDb × EngineProcess :=
  match tick.call with
  | .latestFire dur =>
      let last := if answer = .ok then db.latestScheduledWorkflowFire tick.row.key else none
      match intervalDue cal lastFired tick.row.key dur last tick.now with
      | (lastFired, none) => (db, tick.next cal lastFired)
      | (lastFired, some call) => (db, tick.await lastFired call)
  | .checkOwner scheduledFor interval =>
      if answer = .ok then (db, tick.await lastFired (.claim scheduledFor interval))
      else (db, tick.next cal lastFired)
  | .claim scheduledFor interval =>
      let claim : FireClaim := ⟨tick.row.key, scheduledFor⟩
      match answer with
      | .ok =>
          if claim ∈ db.claims then (db, tick.next cal (tick.advanceClock lastFired interval))
          else
            ({ db with claims := db.claims ++ [claim] },
              tick.await lastFired (.createRun scheduledFor interval))
      | .refused => (db, tick.next cal (tick.advanceClock lastFired interval))
      | .failed => (db, tick.next cal lastFired)
      | .failedLate =>
          (if claim ∈ db.claims then db else { db with claims := db.claims ++ [claim] },
            tick.next cal lastFired)
  | .createRun scheduledFor interval =>
      let created := { db with runs := db.runs ++ [⟨tick.row.key, scheduledFor, tick.now⟩] }
      match answer with
      | .ok => (created, tick.await lastFired (.attachRun interval))
      | .failedLate => (created, tick.next cal lastFired)
      | _ => (db, tick.next cal lastFired)
  | .attachRun interval => (db, tick.next cal (tick.advanceClock lastFired interval))

namespace Engines

variable (s : Engines)

def set (p : Nat) (process : EngineProcess) : Engines :=
  { s with processes := s.processes.insert p process }

def step : EngineMove → Engines
  | .cronTick p now workflows =>
      match (s.process p).tick, workflows with
      | none, some workflows =>
          let (lastFired, tick) := scanRows cal now workflows (s.process p).lastFired workflows
          s.set p ⟨lastFired, tick⟩
      | _, _ => s
  | .answer p answer =>
      match (s.process p).tick with
      | none => s
      | some tick =>
          let (db, process) := tick.resume cal (s.process p).lastFired s.db answer
          { s with db := db }.set p process
  | .restart p => s.set p {}

end Engines

def engines : Machine Engines EngineMove := ⟨{}, Engines.step cal⟩

end Buzz.Workflow
