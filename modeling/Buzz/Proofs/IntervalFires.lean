import Buzz.Workflow.Scheduler

/-!
# When interval workflows fire

A claim is won once, by one process, and a process that won one creates at most
one run for it. That holds for any number of processes and any clocks.

How far apart two runs are is another matter. While `last_fired` has the
workflow it holds the instant of its last run, or a later one, and the next run
is a whole interval after that. When the entry is lost, by a restart or because
the workflow was not enabled for a tick, the anchor is read from the claims, and
that one is the start of the bucket the last run fell into: the last run may
have come at its very end. `spares` is the condition on that read.
-/

namespace Buzz.Workflow

open Buzz.Lib CronTick

variable {cal : Calendar} {s : Engines} {m : EngineMove} {ms : List EngineMove}
  {db : FireDb} {lastFired : LastFired} {tick : CronTick} {row : WorkflowRow}
  {rows workflows : List WorkflowRow} {key : WorkflowKey} {d p q : Nat} {now c : Int}
  {answer : DbAnswer} {e : EngineProcess}

theorem Engines.process_set : (s.set p e).process q = if q = p then e else s.process q := by
  unfold Engines.set Engines.process
  rw [HMap.lookup_insert_ite]
  split
  · rfl
  · rfl

/-! ## One run for a claim -/

/-- The claim a tick has won and not used yet. -/
def CronTick.won (tick : CronTick) : Option FireClaim :=
  match tick.call with
  | .createRun scheduledFor _ => some ⟨tick.row.key, scheduledFor⟩
  | _ => none

def EngineProcess.won (e : EngineProcess) : Option FireClaim := e.tick.bind (·.won)

theorem intervalDue_call {key' : WorkflowKey} {dur : String} {last : Option Int}
    {call : FireCall} (h : (intervalDue cal lastFired key' dur last now).2 = some call) :
    ∃ instant, call = .checkOwner instant true := by
  unfold intervalDue at h
  split at h
  · cases h
  · obtain ⟨instant, -, rfl⟩ := Option.map_eq_some_iff.1 h
    exact ⟨instant, rfl⟩

theorem beginRow_call {call : FireCall} (h : (beginRow cal now lastFired row).2 = some call) :
    (∃ dur, call = .latestFire dur) ∨ ∃ instant interval, call = .checkOwner instant interval := by
  unfold beginRow at h
  split at h
  · cases h
  split at h
  · cases h
  split at h
  · cases h
  split at h
  · obtain ⟨instant, -, rfl⟩ := Option.map_eq_some_iff.1 h
    exact .inr ⟨instant, false, rfl⟩
  · split at h
    · obtain ⟨instant, rfl⟩ := intervalDue_call h
      exact .inr ⟨instant, true, rfl⟩
    · cases h
      exact .inl ⟨_, rfl⟩
  · cases h

theorem scanRows_won (h : (scanRows cal now workflows lastFired rows).2 = some tick) :
    tick.won = none := by
  induction rows generalizing lastFired with
  | nil => cases h
  | cons row left ih =>
      unfold scanRows at h
      split at h
      · exact ih h
      · next hbegin =>
          cases h
          rcases beginRow_call (congrArg Prod.snd hbegin) with ⟨_, rfl⟩ | ⟨_, _, rfl⟩
          · rfl
          · rfl

theorem CronTick.next_won : (tick.next cal lastFired).won = none := by
  show (scanRows cal tick.now tick.workflows lastFired tick.left).2.bind (·.won) = none
  cases h : (scanRows cal tick.now tick.workflows lastFired tick.left).2 with
  | none => rfl
  | some tick => exact scanRows_won h

/-- What an answer does to the claims and the runs: nothing; it wins a claim;
its claim is there and nobody has won it; or it uses the claim it has won. -/
inductive Answered (db : FireDb) (tick : CronTick) : FireDb → Option FireClaim → Prop
  | same : Answered db tick db none
  | wins {claim : FireClaim} (h : claim ∉ db.claims) :
      Answered db tick { db with claims := db.claims ++ [claim] } (some claim)
  | loses {claim : FireClaim} : Answered db tick { db with claims := db.claims ++ [claim] } none
  | uses {run : WorkflowRun} (h : tick.won = some run.claim) :
      Answered db tick { db with runs := db.runs ++ [run] } none

theorem CronTick.resume_answered :
    Answered db tick (tick.resume cal lastFired db answer).1
      (tick.resume cal lastFired db answer).2.won := by
  unfold resume
  split
  · dsimp only
    split
    · rw [next_won]
      exact .same
    · next hdue =>
        obtain ⟨instant, rfl⟩ := intervalDue_call (congrArg Prod.snd hdue)
        exact .same
  · split
    · exact .same
    · rw [next_won]
      exact .same
  · dsimp only
    split
    · split
      · rw [next_won]
        exact .same
      · next hnew => exact .wins hnew
    · rw [next_won]
      exact .same
    · rw [next_won]
      exact .same
    · rw [next_won]
      split
      · exact .same
      · exact .loses
  · next scheduledFor interval hcall =>
      have hwon : tick.won = some ⟨tick.row.key, scheduledFor⟩ := by
        unfold won
        rw [hcall]
      dsimp only
      split
      · exact .uses hwon
      · rw [next_won]
        exact .uses hwon
      · rw [next_won]
        exact .same
  · rw [next_won]
    exact .same

/-- Every run has its claim, a claim that is won has no run yet, and one process
has won it. -/
structure OncePerClaim (s : Engines) : Prop where
  once : (s.db.runs.map (·.claim)).Nodup
  claimed : ∀ run ∈ s.db.runs, run.claim ∈ s.db.claims
  unused : ∀ p claim, (s.process p).won = some claim →
    claim ∈ s.db.claims ∧ claim ∉ s.db.runs.map (·.claim)
  unshared : ∀ p q claim, (s.process p).won = some claim → (s.process q).won = some claim → p = q

namespace OncePerClaim

theorem init : OncePerClaim {} where
  once := List.nodup_nil
  claimed := nofun
  unused := nofun
  unshared := nofun

section

variable (h : OncePerClaim s)
include h

/-- A process that has won nothing takes the place of one. -/
theorem set (he : e.won = none) : OncePerClaim (s.set p e) := by
  have hwon : ∀ q claim, ((s.set p e).process q).won = some claim →
      (s.process q).won = some claim := by
    intro q claim hq
    rw [Engines.process_set] at hq
    split at hq
    · rw [he] at hq
      cases hq
    · exact hq
  exact
    { once := h.once
      claimed := h.claimed
      unused := fun q claim hq => h.unused q claim (hwon q claim hq)
      unshared := fun q q' claim hq hq' =>
        h.unshared q q' claim (hwon q claim hq) (hwon q' claim hq') }

/-- A claim more. -/
theorem claims_snoc (claim : FireClaim) :
    OncePerClaim { s with db := { s.db with claims := s.db.claims ++ [claim] } } where
  once := h.once
  claimed := fun run hrun => List.mem_append_left _ (h.claimed run hrun)
  unused := fun p claim' hp =>
    ⟨List.mem_append_left _ (h.unused p claim' hp).1, (h.unused p claim' hp).2⟩
  unshared := h.unshared

theorem wins {claim : FireClaim} (hnew : claim ∉ s.db.claims)
    (he : e.won = some claim) :
    OncePerClaim ({ s with db := { s.db with claims := s.db.claims ++ [claim] } }.set p e) := by
  have hrun : claim ∉ s.db.runs.map (·.claim) := by
    intro hmem
    obtain ⟨run, hrun, rfl⟩ := List.mem_map.1 hmem
    exact hnew (h.claimed run hrun)
  have hwon : ∀ q claim', (Engines.process
      ({ s with db := { s.db with claims := s.db.claims ++ [claim] } }.set p e) q).won =
        some claim' →
      (q = p ∧ claim' = claim) ∨ (q ≠ p ∧ (s.process q).won = some claim') := by
    intro q claim' hq
    rw [Engines.process_set] at hq
    split at hq
    · next hqp =>
        rw [he] at hq
        exact .inl ⟨hqp, (Option.some.inj hq).symm⟩
    · next hqp => exact .inr ⟨hqp, hq⟩
  exact
    { once := h.once
      claimed := (h.claims_snoc claim).claimed
      unused := by
        intro q claim' hq
        rcases hwon q claim' hq with ⟨-, rfl⟩ | ⟨-, hold⟩
        · exact ⟨List.mem_append_right _ (List.mem_singleton_self _), hrun⟩
        · exact (h.claims_snoc claim).unused q claim' hold
      unshared := by
        intro q q' claim' hq hq'
        rcases hwon q claim' hq with ⟨rfl, rfl⟩ | ⟨-, hold⟩
        · rcases hwon q' claim' hq' with ⟨rfl, -⟩ | ⟨-, hold'⟩
          · rfl
          · exact absurd (h.unused q' claim' hold').1 hnew
        · rcases hwon q' claim' hq' with ⟨rfl, rfl⟩ | ⟨-, hold'⟩
          · exact absurd (h.unused q claim' hold).1 hnew
          · exact h.unshared q q' claim' hold hold' }

/-- The run of a claim that was won: nobody else has won it. -/
theorem uses {run : WorkflowRun} (hp : (s.process p).won = some run.claim)
    (he : e.won = none) :
    OncePerClaim ({ s with db := { s.db with runs := s.db.runs ++ [run] } }.set p e) := by
  have hwon : ∀ q claim, (Engines.process
      ({ s with db := { s.db with runs := s.db.runs ++ [run] } }.set p e) q).won = some claim →
      q ≠ p ∧ (s.process q).won = some claim := by
    intro q claim hq
    rw [Engines.process_set] at hq
    split at hq
    · rw [he] at hq
      cases hq
    · next hqp => exact ⟨hqp, hq⟩
  exact
    { once := by
        show ((s.db.runs ++ [run]).map (·.claim)).Nodup
        rw [List.map_append, List.map_singleton, List.nodup_append]
        refine ⟨h.once, List.nodup_singleton _, ?_⟩
        rintro claim hmem _ hnew rfl
        rw [List.mem_singleton.1 hnew] at hmem
        exact (h.unused p _ hp).2 hmem
      claimed := by
        intro run' hrun'
        rcases List.mem_append.1 hrun' with hold | hnew
        · exact h.claimed run' hold
        · rw [List.mem_singleton.1 hnew]
          exact (h.unused p _ hp).1
      unused := by
        intro q claim hq
        obtain ⟨hqp, hold⟩ := hwon q claim hq
        refine ⟨(h.unused q claim hold).1, ?_⟩
        show claim ∉ (s.db.runs ++ [run]).map (·.claim)
        rw [List.map_append, List.mem_append, List.map_singleton, List.mem_singleton]
        rintro (hmem | rfl)
        · exact (h.unused q claim hold).2 hmem
        · exact hqp (h.unshared q p _ hold hp)
      unshared := fun q q' claim hq hq' =>
        h.unshared q q' claim (hwon q claim hq).2 (hwon q' claim hq').2 }

theorem answered {claim : Option FireClaim}
    (htick : (s.process p).tick = some tick) (he : e.won = claim)
    (ha : Answered s.db tick db claim) :
    OncePerClaim ({ s with db := db }.set p e) := by
  cases ha with
  | same => exact h.set he
  | wins hnew => exact h.wins hnew he
  | loses => exact (h.claims_snoc _).set he
  | uses hwon =>
      refine h.uses ?_ he
      unfold EngineProcess.won
      rw [htick, Option.bind_some, hwon]

theorem step : OncePerClaim (s.step cal m) := by
  unfold Engines.step
  split
  · split
    · refine h.set ?_
      unfold EngineProcess.won
      dsimp only
      cases hscan : (scanRows cal _ _ _ _).2 with
      | none => rfl
      | some tick => exact scanRows_won hscan
    · exact h
  · split
    · exact h
    · next htick => exact h.answered htick rfl resume_answered
  · exact h.set rfl

end

end OncePerClaim

theorem oncePerClaim_run : OncePerClaim ((engines cal).run ms) :=
  (engines cal).stable_runFrom (fun _ _ h => h.step) .init ms

/-! ## The distance of two runs -/

/-- An interval trigger of `d` seconds. -/
def TriggerDef.isEvery (d : Nat) : TriggerDef → Bool
  | .schedule none (some dur) => parseDurationSecs dur = some d
  | _ => false

/-- Whatever definition of the workflow is loaded, it is an interval of `d`
seconds. -/
def WorkflowRow.isEvery (key : WorkflowKey) (d : Nat) (row : WorkflowRow) : Prop :=
  row.key = key → ∀ definition ∈ row.definition, definition.trigger.isEvery d

instance : Decidable (row.isEvery key d) :=
  inferInstanceAs (Decidable (row.key = key → ∀ definition ∈ row.definition, _))

def EngineMove.offers (key : WorkflowKey) (d : Nat) : EngineMove → Prop
  | .cronTick _ _ (some workflows) => ∀ row ∈ workflows, row.isEvery key d
  | _ => True

instance : Decidable (m.offers key d) :=
  match m with
  | .cronTick _ _ (some workflows) => inferInstanceAs (Decidable (∀ row ∈ workflows, _))
  | .cronTick _ _ none | .answer _ _ | .restart _ => isTrue trivial

/-- The runs of the workflow are by this instant. -/
def PastBy (key : WorkflowKey) (runs : List WorkflowRun) (t : Int) : Prop :=
  ∀ run ∈ runs, run.key = key → run.firedAt ≤ t

instance (runs : List WorkflowRun) (t : Int) : Decidable (PastBy key runs t) :=
  inferInstanceAs (Decidable (∀ run ∈ runs, _))

/-- An anchor that is read from the claims and due has the last run an interval
behind, and no run is created behind the answer that it was not. -/
def sparesCall (key : WorkflowKey) (d : Nat) (db : FireDb) (answer : DbAnswer) (now : Int) :
    FireCall → Prop
  | .latestFire dur => answer = .ok →
      ∀ anchor ∈ db.latestScheduledWorkflowFire key,
        intervalShouldFire dur (some anchor) now → PastBy key db.runs (now - d * nanosPerSec)
  | .createRun _ _ => answer ≠ .failedLate
  | _ => True

instance (call : FireCall) : Decidable (sparesCall key d db answer now call) :=
  match call with
  | .latestFire dur => inferInstanceAs (Decidable (answer = .ok →
      ∀ anchor ∈ db.latestScheduledWorkflowFire key,
        intervalShouldFire dur (some anchor) now → PastBy key db.runs (now - d * nanosPerSec)))
  | .createRun _ _ => inferInstanceAs (Decidable (answer ≠ .failedLate))
  | .checkOwner _ _ | .claim _ _ | .attachRun _ => isTrue trivial

/-- `sparesCall`, for the answers to the workflow's own ticks. -/
def spares (key : WorkflowKey) (d : Nat) (s : Engines) : EngineMove → Prop
  | .answer p answer =>
      ∀ tick ∈ (s.process p).tick, tick.row.key = key →
        sparesCall key d s.db answer tick.now tick.call
  | _ => True

instance : Decidable (spares key d s m) :=
  match m with
  | .answer p _ => inferInstanceAs (Decidable (∀ tick ∈ (s.process p).tick, _ → _))
  | .cronTick _ _ _ | .restart _ => isTrue trivial

/-- The runs of the workflow, each at least `d` seconds after the one before. -/
def Spaced (key : WorkflowKey) (d : Nat) (runs : List WorkflowRun) : Prop :=
  (runs.filter (·.key = key)).Pairwise fun run run' => run.firedAt + d * nanosPerSec ≤ run'.firedAt

/-- The anchor in memory is not before any run. -/
def Anchored (key : WorkflowKey) (runs : List WorkflowRun) (lastFired : LastFired) (now : Int) :
    Prop :=
  ∀ anchor, lastFired.lookup key = some anchor → anchor ≤ now ∧ PastBy key runs anchor

/-- What a call about the workflow has behind it. Once the run is there the
anchor is behind it, until the map is written. -/
def CallKept (key : WorkflowKey) (d : Nat) (runs : List WorkflowRun) (lastFired : LastFired)
    (row : WorkflowRow) (now : Int) : FireCall → Prop
  | .latestFire dur =>
      Anchored key runs lastFired now ∧ (row.key = key → parseDurationSecs dur = some d)
  | .checkOwner _ interval | .claim _ interval | .createRun _ interval =>
      Anchored key runs lastFired now ∧
        (row.key = key → interval = true ∧ PastBy key runs (now - d * nanosPerSec))
  | .attachRun interval =>
      (row.key ≠ key → Anchored key runs lastFired now) ∧ (row.key = key → interval = true)

/-- A tick under way keeps the interval of the workflow. -/
structure TickKept (key : WorkflowKey) (d : Nat) (runs : List WorkflowRun) (lastFired : LastFired)
    (tick : CronTick) : Prop where
  past : PastBy key runs tick.now
  rows : ∀ row ∈ tick.left, row.isEvery key d
  call : CallKept key d runs lastFired tick.row tick.now tick.call

/-- The state of the process, its clock at `c`. -/
def ProcessKept (key : WorkflowKey) (d : Nat) (runs : List WorkflowRun) (c : Int)
    (e : EngineProcess) : Prop :=
  match e.tick with
  | none => PastBy key runs c ∧ Anchored key runs e.lastFired c
  | some tick => tick.now ≤ c ∧ TickKept key d runs e.lastFired tick

variable {runs : List WorkflowRun} {dur : String} {last : Option Int} {call : FireCall} {t t' : Int}
  {run : WorkflowRun}

theorem PastBy.mono (h : PastBy key runs t) (ht : t ≤ t') : PastBy key runs t' :=
  fun run hrun hkey => (h run hrun hkey).trans ht

namespace Anchored

theorem mono (h : Anchored key runs lastFired t) (ht : t ≤ t') : Anchored key runs lastFired t' :=
  fun anchor ha => ⟨(h anchor ha).1.trans ht, (h anchor ha).2⟩

theorem empty : Anchored key runs ∅ now := nofun

theorem insert {key' : WorkflowKey} (h : key' ≠ key → Anchored key runs lastFired now)
    (hpast : PastBy key runs now) : Anchored key runs (lastFired.insert key' now) now := by
  intro anchor ha
  rcases HMap.lookup_insert_cases ha with ⟨rfl, rfl⟩ | ⟨hne, hold⟩
  · exact ⟨le_refl _, hpast⟩
  · exact h hne.symm anchor hold

theorem retain {kept : WorkflowKey → Int → Bool} (h : Anchored key runs lastFired now) :
    Anchored key runs (lastFired.retain kept) now := by
  intro anchor ha
  rw [HMap.lookup_retain] at ha
  exact h anchor (Option.filter_eq_some_iff.1 ha).1

end Anchored

/-- A whole interval went by since the anchor. -/
theorem le_of_intervalShouldFire (hparse : parseDurationSecs dur = some d) {anchor : Int}
    (hle : anchor ≤ now) (h : intervalShouldFire dur (some anchor) now) :
    anchor ≤ now - d * nanosPerSec := by
  unfold intervalShouldFire at h
  rw [hparse] at h
  have helapsed : d ≤ (numSeconds (now - anchor)).natAbs := of_decide_eq_true h
  unfold numSeconds nanosPerSec at helapsed
  rw [Int.tdiv_eq_ediv_of_nonneg (by omega)] at helapsed
  unfold nanosPerSec
  omega

/-- Without an anchor nothing is due. -/
theorem not_intervalShouldFire_none (hd : 0 < d) (hparse : parseDurationSecs dur = some d) :
    ¬ intervalShouldFire dur none now := by
  unfold intervalShouldFire
  rw [hparse, Option.getD_none, sub_self]
  intro h
  have hle : d ≤ 0 := of_decide_eq_true h
  omega

/-- What a workflow leaves, whether the tick goes on or waits for a call. -/
def RowKept (key : WorkflowKey) (d : Nat) (runs : List WorkflowRun) (row : WorkflowRow) (now : Int)
    (r : LastFired × Option FireCall) : Prop :=
  Anchored key runs r.1 now ∧ ∀ call, r.2 = some call → CallKept key d runs r.1 row now call

theorem rowKept_none (h : Anchored key runs lastFired now) :
    RowKept key d runs row now (lastFired, none) :=
  ⟨h, nofun⟩

theorem intervalDue_kept (hd : 0 < d) (hpast : PastBy key runs now)
    (h : Anchored key runs lastFired now)
    (hparse : row.key = key → parseDurationSecs dur = some d)
    (hdue : row.key = key → ∀ anchor, last = some anchor → intervalShouldFire dur last now →
      PastBy key runs (now - d * nanosPerSec)) :
    RowKept key d runs row now (intervalDue cal lastFired row.key dur last now) := by
  unfold intervalDue intervalPrefilterShouldFire
  split
  · next hpre =>
      split at hpre
      · cases hpre
      · split at hpre
        · cases hpre
          exact rowKept_none (.insert (fun _ => h) hpast)
        · cases hpre
          exact rowKept_none h
  · next hpre =>
      split at hpre
      · next hfire =>
          cases hpre
          refine ⟨h, fun call hcall => ?_⟩
          obtain ⟨instant, -, rfl⟩ := Option.map_eq_some_iff.1 hcall
          refine ⟨h, fun hkey => ⟨rfl, ?_⟩⟩
          cases hlast : last with
          | none =>
              rw [hlast] at hfire
              exact absurd hfire (not_intervalShouldFire_none hd (hparse hkey))
          | some anchor => exact hdue hkey anchor hlast hfire
      · split at hpre
        · cases hpre
        · cases hpre

theorem parse_of_isEvery {definition : WorkflowDef} (h : row.isEvery key d) (hkey : row.key = key)
    (hdef : row.definition = some definition)
    (htrigger : definition.trigger = .schedule none (some dur)) :
    parseDurationSecs dur = some d := by
  have hevery := h hkey definition hdef
  rw [htrigger] at hevery
  exact of_decide_eq_true hevery

theorem beginRow_kept (hd : 0 < d) (hpast : PastBy key runs now)
    (h : Anchored key runs lastFired now) (hrow : row.isEvery key d) :
    RowKept key d runs row now (beginRow cal now lastFired row) := by
  unfold beginRow
  split
  · exact rowKept_none h
  next definition hdef =>
  split
  · exact rowKept_none h
  split
  · exact rowKept_none h
  split
  · next expr htrigger =>
      refine ⟨h, fun call hcall => ?_⟩
      obtain ⟨instant, -, rfl⟩ := Option.map_eq_some_iff.1 hcall
      refine ⟨h, fun hkey => ?_⟩
      have hevery := hrow hkey definition hdef
      rw [htrigger] at hevery
      cases hevery
  · next dur htrigger =>
      split
      · next anchor hlast =>
          refine intervalDue_kept hd hpast h
            (fun hkey => parse_of_isEvery hrow hkey hdef htrigger) ?_
          intro hkey _ _ hfire
          rw [hkey] at hlast
          obtain ⟨hle, hruns⟩ := h anchor hlast
          exact hruns.mono
            (le_of_intervalShouldFire (parse_of_isEvery hrow hkey hdef htrigger) hle hfire)
      · refine ⟨h, fun call hcall => ?_⟩
        cases hcall
        exact ⟨h, fun hkey => parse_of_isEvery hrow hkey hdef htrigger⟩
  · exact rowKept_none h

theorem scanRows_kept (hd : 0 < d) (hpast : PastBy key runs now) (hc : now ≤ c)
    (h : Anchored key runs lastFired now) (hrows : ∀ row ∈ rows, row.isEvery key d) :
    ProcessKept key d runs c
      ⟨(scanRows cal now workflows lastFired rows).1,
        (scanRows cal now workflows lastFired rows).2⟩ := by
  induction rows generalizing lastFired with
  | nil => exact ⟨hpast.mono hc, h.retain.mono hc⟩
  | cons row left ih =>
      have hleft : ∀ row ∈ left, row.isEvery key d := fun row hmem =>
        hrows row (List.mem_cons_of_mem _ hmem)
      have hbegin : RowKept key d runs row now (beginRow cal now lastFired row) :=
        beginRow_kept hd hpast h (hrows row List.mem_cons_self)
      unfold scanRows
      cases hrow : beginRow cal now lastFired row with
      | mk lastFired' call =>
          rw [hrow] at hbegin
          cases call with
          | none => exact ih hbegin.1 hleft
          | some call => exact ⟨hc, hpast, hleft, hbegin.2 call rfl⟩

namespace TickKept

theorem next (hd : 0 < d) (hc : tick.now ≤ c) (h : TickKept key d runs lastFired tick)
    {lastFired' : LastFired} (hanchored : Anchored key runs lastFired' tick.now) :
    ProcessKept key d runs c (tick.next cal lastFired') :=
  scanRows_kept hd h.past hc hanchored h.rows

theorem await (hc : tick.now ≤ c) (h : TickKept key d runs lastFired tick)
    {lastFired' : LastFired} (hcall : CallKept key d runs lastFired' tick.row tick.now call) :
    ProcessKept key d runs c (tick.await lastFired' call) :=
  ⟨hc, h.past, h.rows, hcall⟩

/-- The clock of an interval is advanced once its claim is settled. -/
theorem advanceClock (h : TickKept key d runs lastFired tick) {interval : Bool}
    (hother : tick.row.key ≠ key → Anchored key runs lastFired tick.now)
    (hinterval : tick.row.key = key → interval = true) :
    Anchored key runs (tick.advanceClock lastFired interval) tick.now := by
  unfold CronTick.advanceClock
  split
  · exact .insert hother h.past
  · next hno => exact hother fun hkey => hno (hinterval hkey)

end TickKept

/-- The run of a tick that is due: a whole interval after the others. -/
theorem spaced_snoc (h : Spaced key d runs)
    (hdue : run.key = key → PastBy key runs (run.firedAt - d * nanosPerSec)) :
    Spaced key d (runs ++ [run]) := by
  unfold Spaced at h ⊢
  rw [List.filter_append, List.pairwise_append]
  refine ⟨h, ?_, ?_⟩
  · exact (List.pairwise_singleton _ run).sublist List.filter_sublist
  · intro old hold new hnew
    obtain ⟨hold, hkey⟩ := List.mem_filter.1 hold
    obtain ⟨hnew, hkey'⟩ := List.mem_filter.1 hnew
    rw [List.mem_singleton.1 hnew] at hkey' ⊢
    have hbefore := hdue (of_decide_eq_true hkey') old hold (of_decide_eq_true hkey)
    omega

/-- A run of another workflow, or one at this very instant. -/
theorem PastBy.snoc (h : PastBy key runs t)
    (hrun : run.key = key → run.firedAt ≤ t) :
    PastBy key (runs ++ [run]) t := by
  intro run' hrun' hkey
  rcases List.mem_append.1 hrun' with hold | hnew
  · exact h run' hold hkey
  · rw [List.mem_singleton.1 hnew] at hkey ⊢
    exact hrun hkey

theorem Anchored.snoc_other (h : Anchored key runs lastFired now)
    (hrun : run.key ≠ key) : Anchored key (runs ++ [run]) lastFired now :=
  fun anchor ha => ⟨(h anchor ha).1, (h anchor ha).2.snoc fun hkey => absurd hkey hrun⟩

/-- One answer, by the condition on it. -/
theorem resume_kept (hd : 0 < d) (hc : tick.now ≤ c)
    (h : TickKept key d db.runs lastFired tick) (hspaced : Spaced key d db.runs)
    (hread : tick.row.key = key → answer = .ok → ∀ dur, tick.call = .latestFire dur →
      ∀ anchor, db.latestScheduledWorkflowFire key = some anchor →
        intervalShouldFire dur (some anchor) tick.now →
          PastBy key db.runs (tick.now - d * nanosPerSec))
    (hlate : tick.row.key = key → ∀ scheduledFor interval,
      tick.call = .createRun scheduledFor interval → answer ≠ .failedLate) :
    Spaced key d (tick.resume cal lastFired db answer).1.runs ∧
      ProcessKept key d (tick.resume cal lastFired db answer).1.runs c
        (tick.resume cal lastFired db answer).2 := by
  have hcall := h.call
  unfold resume
  cases htick : tick.call with
  | latestFire dur =>
      rw [htick] at hcall
      have hdue : RowKept key d db.runs tick.row tick.now
          (intervalDue cal lastFired tick.row.key dur
            (if answer = .ok then db.latestScheduledWorkflowFire tick.row.key else none)
            tick.now) := by
        refine intervalDue_kept hd h.past hcall.1 hcall.2 ?_
        intro hkey anchor hlast hfire
        split at hlast
        · next hok =>
            rw [if_pos hok, hlast] at hfire
            rw [hkey] at hlast
            exact hread hkey hok dur htick anchor hlast hfire
        · cases hlast
      dsimp only
      split
      · next hnone =>
          rw [hnone] at hdue
          exact ⟨hspaced, h.next hd hc hdue.1⟩
      · next hsome =>
          rw [hsome] at hdue
          exact ⟨hspaced, h.await hc (hdue.2 _ rfl)⟩
  | checkOwner scheduledFor interval =>
      rw [htick] at hcall
      dsimp only
      split
      · exact ⟨hspaced, h.await hc hcall⟩
      · exact ⟨hspaced, h.next hd hc hcall.1⟩
  | claim scheduledFor interval =>
      rw [htick] at hcall
      have hadvanced : Anchored key db.runs (tick.advanceClock lastFired interval) tick.now :=
        h.advanceClock (fun _ => hcall.1) fun hkey => (hcall.2 hkey).1
      dsimp only
      split
      · split
        · exact ⟨hspaced, h.next hd hc hadvanced⟩
        · exact ⟨hspaced, h.await hc hcall⟩
      · exact ⟨hspaced, h.next hd hc hadvanced⟩
      · exact ⟨hspaced, h.next hd hc hcall.1⟩
      · split
        · exact ⟨hspaced, h.next hd hc hcall.1⟩
        · exact ⟨hspaced, h.next hd hc hcall.1⟩
  | createRun scheduledFor interval =>
      rw [htick] at hcall
      have hspaced' : Spaced key d
          (db.runs ++ [(⟨tick.row.key, scheduledFor, tick.now⟩ : WorkflowRun)]) :=
        spaced_snoc hspaced fun hkey => (hcall.2 hkey).2
      have hother : tick.row.key ≠ key → Anchored key
          (db.runs ++ [(⟨tick.row.key, scheduledFor, tick.now⟩ : WorkflowRun)]) lastFired
          tick.now :=
        fun hne => hcall.1.snoc_other hne
      have hkept : TickKept key d
          (db.runs ++ [(⟨tick.row.key, scheduledFor, tick.now⟩ : WorkflowRun)]) lastFired
          { tick with call := .attachRun interval } :=
        ⟨h.past.snoc fun _ => le_refl _, h.rows, hother, fun hkey => (hcall.2 hkey).1⟩
      dsimp only
      split
      · exact ⟨hspaced', hc, hkept⟩
      · have hne : tick.row.key ≠ key := fun hkey => hlate hkey scheduledFor interval htick rfl
        exact ⟨hspaced', scanRows_kept hd hkept.past hc (hother hne) h.rows⟩
      · exact ⟨hspaced, h.next hd hc hcall.1⟩
  | attachRun interval =>
      rw [htick] at hcall
      exact ⟨hspaced, h.next hd hc (h.advanceClock hcall.1 hcall.2)⟩

/-! ## Runs of one process -/

def EngineMove.process : EngineMove → Nat
  | .cronTick p _ _ | .answer p _ | .restart p => p

def EngineMove.tickTime : EngineMove → Option Int
  | .cronTick _ now _ => some now
  | _ => none

/-- The times of the ticks. -/
def tickTimes (ms : List EngineMove) : List Int := ms.filterMap (·.tickTime)

/-- The state of the one process and of its runs, the clock at `c`. -/
def Kept (key : WorkflowKey) (d p : Nat) (c : Int) (s : Engines) : Prop :=
  Spaced key d s.db.runs ∧ ProcessKept key d s.db.runs c (s.process p)

theorem ProcessKept.mono {c' : Int} (h : ProcessKept key d runs c e) (hc : c ≤ c') :
    ProcessKept key d runs c' e := by
  unfold ProcessKept at h ⊢
  split
  · next hnone =>
      rw [hnone] at h
      exact ⟨h.1.mono hc, h.2.mono hc⟩
  · next hsome =>
      rw [hsome] at h
      exact ⟨h.1.trans hc, h.2⟩

/-- A process that starts again knows nothing. -/
theorem ProcessKept.restart (h : ProcessKept key d runs c e) : ProcessKept key d runs c {} := by
  unfold ProcessKept at h
  split at h
  · exact ⟨h.1, .empty⟩
  · exact ⟨h.2.past.mono h.1, .empty⟩

theorem Kept.mono {c' : Int} (h : Kept key d p c s) (hc : c ≤ c') : Kept key d p c' s :=
  ⟨h.1, h.2.mono hc⟩

theorem Kept.set (h : Spaced key d s.db.runs) (he : ProcessKept key d s.db.runs c e) :
    Kept key d p c (s.set p e) := by
  refine ⟨h, ?_⟩
  rw [Engines.process_set, if_pos rfl]
  exact he

theorem Kept.cronTick (hd : 0 < d) (h : Kept key d p c s) (hc : c ≤ now)
    {loaded : Option (List WorkflowRow)}
    (hoffers : (EngineMove.cronTick p now loaded).offers key d) :
    Kept key d p now (s.step cal (.cronTick p now loaded)) := by
  unfold Engines.step
  dsimp only
  split
  · next workflows htick =>
      have hidle := h.2
      unfold ProcessKept at hidle
      rw [htick] at hidle
      exact Kept.set h.1
        (scanRows_kept hd (hidle.1.mono hc) (le_refl _) (hidle.2.mono hc) hoffers)
  · exact h.mono hc

theorem Kept.answered (hd : 0 < d) (h : Kept key d p c s)
    (hspares : spares key d s (.answer p answer)) :
    Kept key d p c (s.step cal (.answer p answer)) := by
  unfold Engines.step
  dsimp only
  split
  · exact h
  · next tick htick =>
      have hkept := h.2
      unfold ProcessKept at hkept
      rw [htick] at hkept
      have hresume : Spaced key d (tick.resume cal (s.process p).lastFired s.db answer).1.runs ∧
          ProcessKept key d (tick.resume cal (s.process p).lastFired s.db answer).1.runs c
            (tick.resume cal (s.process p).lastFired s.db answer).2 := by
        refine resume_kept hd hkept.1 hkept.2 h.1 ?_ ?_
        · intro hkey hok dur hcall anchor hanchor hfire
          have hread := hspares tick htick hkey
          rw [hcall] at hread
          exact hread hok anchor hanchor hfire
        · intro hkey scheduledFor interval hcall
          have hlate := hspares tick htick hkey
          rw [hcall] at hlate
          exact hlate
      exact Kept.set hresume.1 hresume.2

/-- One move of the process, and where its clock is then. -/
theorem Kept.step (hd : 0 < d) (h : Kept key d p c s) (hp : m.process = p)
    (hoffers : m.offers key d) (hspares : spares key d s m) (hc : ∀ now ∈ m.tickTime, c ≤ now) :
    Kept key d p (m.tickTime.getD c) (s.step cal m) := by
  cases m with
  | cronTick p' now loaded =>
      cases hp
      exact h.cronTick hd (hc now rfl) hoffers
  | answer p' answer =>
      cases hp
      exact h.answered hd hspares
  | restart p' =>
      cases hp
      exact Kept.set h.1 h.2.restart

theorem kept_runFrom (hd : 0 < d) (h : Kept key d p c s) (hp : ∀ m ∈ ms, m.process = p)
    (hoffers : ∀ m ∈ ms, m.offers key d) (hclock : (c :: tickTimes ms).Pairwise (· ≤ ·))
    (hspares : (engines cal).Meets (spares key d) s ms) :
    Spaced key d ((engines cal).runFrom s ms).db.runs := by
  induction ms generalizing s c with
  | nil => exact h.1
  | cons m ms ih =>
      have hm : (∀ now ∈ m.tickTime, c ≤ now) →
          Kept key d p (m.tickTime.getD c) (s.step cal m) :=
        h.step hd (hp m List.mem_cons_self) (hoffers m List.mem_cons_self) hspares.1
      have hp' : ∀ m ∈ ms, m.process = p := fun m hm => hp m (List.mem_cons_of_mem _ hm)
      have hoffers' : ∀ m ∈ ms, m.offers key d := fun m hm => hoffers m (List.mem_cons_of_mem _ hm)
      cases htime : m.tickTime with
      | none =>
          rw [tickTimes, List.filterMap_cons_none htime] at hclock
          rw [htime] at hm
          exact ih (hm nofun) hp' hoffers' hclock hspares.2
      | some now =>
          rw [tickTimes, List.filterMap_cons_some htime] at hclock
          obtain ⟨hle, hclock⟩ := List.pairwise_cons.1 hclock
          rw [htime] at hm
          exact ih (hm fun t ht => Option.some.inj ht ▸ hle now List.mem_cons_self)
            hp' hoffers' hclock hspares.2

theorem kept_init : Kept key d p c {} := ⟨.nil, nofun, .empty⟩

theorem pairwise_cons_headD {ts : List Int} (h : ts.Pairwise (· ≤ ·)) :
    (ts.headD 0 :: ts).Pairwise (· ≤ ·) := by
  cases ts with
  | nil => exact List.pairwise_singleton _ _
  | cons t ts =>
      refine List.pairwise_cons.2 ⟨fun t' ht' => ?_, h⟩
      rcases List.mem_cons.1 ht' with rfl | hmem
      · exact le_refl _
      · exact (List.pairwise_cons.1 h).1 t' hmem

/-- The runs of an interval workflow. For any number of processes, by any
clocks, no two of them are for the same instant. And the runs of one process
whose clock does not go back are a whole interval apart, if every anchor read
from the claims was spared. -/
theorem interval_runs_spaced (cal : Calendar) (key : WorkflowKey) (d : Nat) (hd : 0 < d)
    (ms : List EngineMove) :
    (((engines cal).run ms).db.runs.map (·.claim)).Nodup ∧
      ∀ p, (∀ m ∈ ms, m.process = p) → (∀ m ∈ ms, m.offers key d) →
        (tickTimes ms).Pairwise (· ≤ ·) → (engines cal).Meets (spares key d) {} ms →
          Spaced key d ((engines cal).run ms).db.runs := by
  refine ⟨oncePerClaim_run.once, ?_⟩
  intro p hp hoffers hclock hspares
  exact kept_runFrom hd kept_init hp hoffers (pairwise_cons_headD hclock) hspares

/-! An hourly workflow. It is seeded at 00:59:59 and runs at 01:59:59, an hour
later. -/

/-- The seconds `chrono` can represent. -/
def chronoCalendar : Calendar where
  inRange secs := -8334601228800 ≤ secs ∧ secs ≤ 8210266876799
  cronFireInstant _ _ := none

def hourlyRow : WorkflowRow :=
  ⟨⟨.ofByte 1⟩, .ofByte 1, some (.ofByte 2), some ⟨true, .schedule none (some "1h")⟩⟩

def hourlyTick (secs : Int) : EngineMove := .cronTick 0 (secs * nanosPerSec) (some [hourlyRow])

/-- The calls of a tick that fires, all of them answered. -/
def firing : List EngineMove := List.replicate 4 (.answer 0 .ok)

/-- Seeded, run, and a restart. The first tick after it reads the claims. -/
def hourlyRestart (secs : Int) : List EngineMove :=
  [hourlyTick 3599, .answer 0 .ok, hourlyTick 7199] ++ firing ++
    [.restart 0, hourlyTick secs, .answer 0 .ok] ++ firing

/-- Restarted, the engine ticks an hour after the run, and runs again. -/
theorem hourlyRestart_spaced :
    ((engines chronoCalendar).run (hourlyRestart 10799)).db.runs.length = 2 ∧
      Spaced hourlyRow.key 3600
        ((engines chronoCalendar).run (hourlyRestart 10799)).db.runs :=
  ⟨by decide +kernel,
    (interval_runs_spaced chronoCalendar hourlyRow.key 3600 (by decide) (hourlyRestart 10799)).2 0
      (by decide +kernel) (by decide +kernel) (by decide +kernel) (by decide +kernel)⟩

/-- Restarted, the engine ticks a minute after the run. The claim of that run is
for 01:00:00, so the next one is due. -/
theorem restart_fires_a_minute_later :
    ¬ ∀ (cal : Calendar) (key : WorkflowKey) (d : Nat) (ms : List EngineMove) (p : Nat), 0 < d →
      (∀ m ∈ ms, m.process = p) → (∀ m ∈ ms, m.offers key d) →
        (tickTimes ms).Pairwise (· ≤ ·) → Spaced key d ((engines cal).run ms).db.runs := by
  intro h
  have hspaced := h chronoCalendar hourlyRow.key 3600 (hourlyRestart 7259) 0 (by decide)
    (by decide +kernel) (by decide +kernel) (by decide +kernel)
  unfold Spaced at hspaced
  revert hspaced
  decide +kernel

end Buzz.Workflow
