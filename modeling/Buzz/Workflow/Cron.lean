import Buzz.Workflow.Scheduler

/-!
# Cron expressions

`cron_fire_instant`, and the part of the `cron` crate it calls: a schedule is a set of
instants, and `after` gives the first of them after an instant. Instants are in
nanoseconds, as in the scheduler.
-/

namespace Buzz.Workflow

/-- The `cron` crate: what it parses, at which instants a schedule fires, and
`Schedule::after(..).next()`. -/
structure CronCrate where
  Schedule : Type
  parse : String → Option Schedule
  fires : Schedule → Int → Prop
  after : Schedule → Int → Option Int
  after_eq_some_iff : ∀ sched start instant, after sched start = some instant ↔
    fires sched instant ∧ start < instant ∧ ∀ other, fires sched other → start < other →
      instant ≤ other

/-- `split_whitespace().count()`. -/
def fieldCount (expr : String) : Nat :=
  ((expr.toList.splitOnP Core.isWhitespace).filter (· ≠ [])).length

/-- To the seven fields the crate takes. -/
def normalizeCron (expr : String) : String :=
  match fieldCount expr with
  | 5 => "0 " ++ expr ++ " *"
  | 6 => expr ++ " *"
  | _ => expr

def cronFireInstant (crate : CronCrate) (expr : String) (now windowSecs : Int) : Option Int :=
  match crate.parse (normalizeCron expr) with
  | some sched =>
      let windowStart := now - windowSecs * nanosPerSec
      (crate.after sched windowStart).filter fun t => t ≤ now
  | none => none

/-- The calendar of the scheduler, with the window `cron_tick` passes. -/
def CronCrate.calendar (crate : CronCrate) (inRange : Int → Bool) : Calendar where
  inRange := inRange
  cronFireInstant expr now := Workflow.cronFireInstant crate expr now 60

end Buzz.Workflow
