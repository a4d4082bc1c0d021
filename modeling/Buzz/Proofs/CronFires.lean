import Buzz.Proofs.IntervalFires
import Buzz.Workflow.Cron

/-!
# When cron workflows fire

On a schedule that fires on the minute, a tick returns the one instant of the sixty seconds
that end with it: the instant at the tick counts, the one sixty seconds before does
not. So an instant is returned by the ticks of the minute that starts with it, and it is
missed when there is no such tick. Ticks at most sixty seconds apart leave no minute out;
ticks sixty-one seconds apart do.
-/

namespace Buzz.Workflow

open Buzz.Lib

def minute : Int := 60 * nanosPerSec

variable {crate : CronCrate} {expr : String} {sched : crate.Schedule} {now instant first : Int}
  {rest : List Int}

/-- The schedule fires on the minute. -/
def CronCrate.MinuteGranular (crate : CronCrate) (sched : crate.Schedule) : Prop :=
  ∀ instant, crate.fires sched instant → instant % minute = 0

/-- A tick returns the instant of the last sixty seconds. -/
theorem cronFireInstant_eq_some_iff (hparse : crate.parse (normalizeCron expr) = some sched)
    (hminute : crate.MinuteGranular sched) : cronFireInstant crate expr now 60 = some instant ↔
      crate.fires sched instant ∧ instant ≤ now ∧ now < instant + minute := by
  unfold cronFireInstant
  rw [hparse]
  dsimp only
  rw [Option.filter_eq_some_iff, crate.after_eq_some_iff, decide_eq_true_eq]
  constructor
  · rintro ⟨⟨hfires, hafter, -⟩, hle⟩
    refine ⟨hfires, hle, ?_⟩
    unfold minute
    omega
  · rintro ⟨hfires, hle, hlt⟩
    refine ⟨⟨hfires, ?_, fun other hother hafter => ?_⟩, hle⟩
    · unfold minute at hlt
      omega
    · -- Both are on the minute, and less than a minute apart.
      have hmod := hminute instant hfires
      have hmod' := hminute other hother
      unfold minute nanosPerSec at *
      omega

/-- Some tick falls into the minute that starts with the instant. -/
def Covered (ticks : List Int) (instant : Int) : Prop :=
  ∃ t ∈ ticks, instant ≤ t ∧ t < instant + minute

/-- The last of some ticks. -/
def lastTick (first : Int) (rest : List Int) : Int := rest.getLastD first

/-- Every instant between the first tick and the last is returned, and none has two runs. -/
structure CompleteAndOnce (crate : CronCrate) (expr : String) (sched : crate.Schedule)
    (first : Int) (rest : List Int) : Prop where
  complete : ∀ instant, crate.fires sched instant → first < instant →
    instant ≤ lastTick first rest →
      ∃ t ∈ first :: rest, cronFireInstant crate expr t 60 = some instant
  once : ∀ inRange ms,
    (((engines (crate.calendar inRange)).run ms).db.runs.map (·.claim)).Nodup

/-- Ticks at most a minute apart leave no instant out. -/
theorem covered_of_gaps (hgaps : (first :: rest).IsChain fun t t' => t' ≤ t + minute)
    (hfirst : first < instant) (hlast : instant ≤ lastTick first rest) :
    Covered (first :: rest) instant := by
  induction rest generalizing first with
  | nil => exact absurd hlast (Int.not_le.2 hfirst)
  | cons next rest ih =>
      rw [List.isChain_cons_cons] at hgaps
      by_cases hnext : instant ≤ next
      · refine ⟨next, List.mem_cons_of_mem _ List.mem_cons_self, hnext, ?_⟩
        have hgap := hgaps.1
        omega
      · rw [lastTick, List.getLastD_cons] at hlast
        obtain ⟨t, ht, hcovered⟩ := ih hgaps.2 (Int.not_le.1 hnext) hlast
        exact ⟨t, List.mem_cons_of_mem _ ht, hcovered⟩

theorem completeAndOnce_iff (hparse : crate.parse (normalizeCron expr) = some sched)
    (hminute : crate.MinuteGranular sched) : CompleteAndOnce crate expr sched first rest ↔
      ∀ instant, crate.fires sched instant → first < instant → instant ≤ lastTick first rest →
        Covered (first :: rest) instant := by
  constructor
  · intro h instant hfires hfirst hlast
    obtain ⟨t, ht, hreturned⟩ := h.complete instant hfires hfirst hlast
    exact ⟨t, ht, ((cronFireInstant_eq_some_iff hparse hminute).1 hreturned).2⟩
  · intro h
    refine ⟨fun instant hfires hfirst hlast => ?_, fun inRange ms => oncePerClaim_run.once⟩
    obtain ⟨t, ht, hcovered⟩ := h instant hfires hfirst hlast
    exact ⟨t, ht, (cronFireInstant_eq_some_iff hparse hminute).2 ⟨hfires, hcovered⟩⟩

/-- Cron workflows are complete, and fire once, if and only if each scheduled instant between the
first tick and the last has a tick in the minute that starts with it; which is so for
ticks at most sixty seconds apart. -/
theorem cron_complete_iff_covered (crate : CronCrate) (expr : String) (sched : crate.Schedule)
    (hparse : crate.parse (normalizeCron expr) = some sched) (hminute : crate.MinuteGranular sched)
    (first : Int) (rest : List Int) :
    (CompleteAndOnce crate expr sched first rest ↔
      ∀ instant, crate.fires sched instant → first < instant → instant ≤ lastTick first rest →
        Covered (first :: rest) instant) ∧
    (((first :: rest).IsChain fun t t' => t' ≤ t + minute) →
      CompleteAndOnce crate expr sched first rest) := by
  refine ⟨completeAndOnce_iff hparse hminute, fun hgaps => ?_⟩
  exact (completeAndOnce_iff hparse hminute).2 fun _ _ hfirst hlast =>
    covered_of_gaps hgaps hfirst hlast

/-- Every minute. -/
def everyMinute : CronCrate where
  Schedule := Unit
  parse text := if text = "0 * * * * * *" then some () else none
  fires _ instant := instant % minute = 0
  after _ start := some ((start / minute + 1) * minute)
  after_eq_some_iff := by
    intro _ start instant
    rw [Option.some.injEq]
    unfold minute nanosPerSec
    constructor
    · rintro rfl
      exact ⟨by omega, by omega, fun other hother hlt => by omega⟩
    · rintro ⟨hfires, hlt, hleast⟩
      have hle := hleast ((start / 60000000000 + 1) * 60000000000) (by omega) (by omega)
      omega

theorem parse_everyMinute :
    everyMinute.parse (normalizeCron "* * * * *") = some () := by
  have hnormal : normalizeCron "* * * * *" = "0 * * * * * *" := by decide
  rw [hnormal]
  rfl

/-- Two ticks a minute apart. -/
theorem cron_complete_on_time :
    CompleteAndOnce everyMinute "* * * * *" () 30000000000 [90000000000] :=
  (cron_complete_iff_covered everyMinute "* * * * *" () parse_everyMinute
    (fun _ h => h) 30000000000 [90000000000]).2 (by decide)

/-- Half a second before the minute and sixty-one seconds later: the minute is missed. -/
theorem cron_misses_late_tick :
    ([59500000000, 120500000000].IsChain fun t t' : Int => t ≤ t' ∧ t' ≤ t + 61 * nanosPerSec) ∧
      ¬ CompleteAndOnce everyMinute "* * * * *" () 59500000000 [120500000000] := by
  refine ⟨by decide, fun h => ?_⟩
  have hfires : everyMinute.fires () 60000000000 := by
    show (60000000000 : Int) % minute = 0
    decide
  obtain ⟨t, ht, hle, hlt⟩ := (completeAndOnce_iff parse_everyMinute fun _ h => h).1 h 60000000000
    hfires (by decide) (by decide)
  have hend : (60000000000 : Int) + minute = 120000000000 := by decide
  rcases List.mem_pair.1 ht with rfl | rfl
  · omega
  · omega

end Buzz.Workflow
