import Buzz.Proofs.WakeJobs
import Buzz.Proofs.WakeTriggers

/-!
# What becomes of a trigger

A first job that was joined either decided, or counts on the owner it was
collapsed behind, or its trigger is held, was re-driven or was evicted. As long
as no eviction takes a trigger with a follower, an owner that others count on
is never among the evicted, and so it decides or is re-driven.
-/

namespace Buzz.Waker

open Buzz.Lib

variable {jobs jobs' : List Job} {stranded stranded' : List StrandedTrigger}
  {evicted evicted' : List Eviction} {completed completed' : List Nat} {job owner : Job}
  {report : AttemptReport} {event : TriggerEvent} {held : StrandedTrigger} {j k x : Nat}

/-! ## Followers -/

/-- Woken, AlreadyLive, AuthorRejected or AuthorUnverified. -/
def WakeOutcome.isDecision : WakeOutcome → Bool
  | .woken | .alreadyLive | .authorRejected | .authorUnverified => true
  | .debounced | .inFlight | .presenceUnavailable | .deployFailed | .wakeUnconfirmed
  | .cancelled => false

/-- A first attempt of the same author whose replay floor is early enough. -/
def Job.covers (owner job : Job) : Bool :=
  !owner.retried && normalizePubkey owner.event.author == normalizePubkey job.event.author &&
    isCoveredByReplayFloor job.event.createdAt owner.event.createdAt

/-- A first job was collapsed behind the trigger, and counts on it. -/
def isFollowed (jobs : List Job) (claim : Nat) : Bool :=
  jobs.any fun job => !job.retried && (job.behind.bind fun o => jobs[o]?).any fun owner =>
    owner.event.claim == claim && owner.covers job

theorem Job.covers_eq {owner' job' : Job} (hevent : owner.event = owner'.event)
    (hkind : owner.retried = owner'.retried) (hjob : job.event = job'.event) :
    owner.covers job = owner'.covers job' := by
  unfold Job.covers
  rw [hevent, hkind, hjob]

theorem inFlightOwnerCovers_eq (hevent : report.event = job.event)
    (howner : report.inFlightOwner = some owner.claiming) :
    inFlightOwnerCovers report = owner.covers job := by
  unfold inFlightOwnerCovers Job.covers
  rw [howner, hevent]
  rfl

theorem isFollowed_eq_true :
    isFollowed jobs x = true ↔ ∃ (k : Nat) (job : Job) (o : Nat) (owner : Job),
      jobs[k]? = some job ∧ job.retried = false ∧ job.behind = some o ∧ jobs[o]? = some owner ∧
      owner.event.claim = x ∧ owner.covers job = true := by
  unfold isFollowed
  rw [List.any_eq_true]
  constructor
  · rintro ⟨job, hmem, h⟩
    obtain ⟨k, hk⟩ := List.mem_iff_getElem?.1 hmem
    obtain ⟨hfirst, h⟩ := Bool.and_eq_true_iff.1 h
    obtain ⟨owner, howner, h⟩ := (Option.any_eq_true _ _).1 h
    obtain ⟨o, ho, howner⟩ := Option.bind_eq_some_iff.1 howner
    obtain ⟨hclaim, hcovers⟩ := Bool.and_eq_true_iff.1 h
    exact ⟨k, job, o, owner, hk, (Bool.not_eq_true' _).mp hfirst, ho, howner, beq_iff_eq.1 hclaim,
      hcovers⟩
  · rintro ⟨k, job, o, owner, hk, hfirst, ho, howner, hclaim, hcovers⟩
    refine ⟨job, List.mem_of_getElem? hk, ?_⟩
    rw [hfirst, ho, Option.bind_some, howner, Option.any_some, hclaim, hcovers, beq_self_eq_true]
    rfl

/-! ## Fates -/

def Kept (stranded : List StrandedTrigger) (x : Nat) : Prop :=
  ∃ held ∈ stranded, held.event.claim = x

def Redriven (jobs : List Job) (x : Nat) : Prop :=
  ∃ (k : Nat) (job : Job), jobs[k]? = some job ∧ job.event.claim = x ∧ job.retried = true

def Evicted (evicted : List Eviction) (x : Nat) : Prop :=
  ∃ e ∈ evicted, e.trigger.event.claim = x

/-- What a first job's report has led to. -/
inductive Fate (jobs : List Job) (stranded : List StrandedTrigger) (evicted : List Eviction)
    (x : Nat) (report : AttemptReport) : Prop where
  | decided (h : report.outcome.isDecision = true)
  | collapsed (h : report.outcome = .inFlight) (hcovers : inFlightOwnerCovers report = true)
  | held (h : Kept stranded x)
  | redriven (h : Redriven jobs x)
  | evicted (h : Evicted evicted x)

/-- Why a claim was completed. -/
inductive Cause (jobs : List Job) (evicted : List Eviction) (x : Nat) : Prop where
  | decided (k : Nat) (job : Job) (report : AttemptReport) (hget : jobs[k]? = some job)
      (hclaim : job.event.claim = x) (hjoined : job.joined = some report)
      (h : report.outcome.isDecision = true)
  | collapsed (k : Nat) (job : Job) (report : AttemptReport) (hget : jobs[k]? = some job)
      (hclaim : job.event.claim = x) (hfirst : job.retried = false)
      (hjoined : job.joined = some report) (h : report.outcome = .inFlight)
      (hcovers : inFlightOwnerCovers report = true)
  | redriven (k : Nat) (job : Job) (hget : jobs[k]? = some job) (hclaim : job.event.claim = x)
      (hretried : job.retried = true) (hjoined : job.joined.isSome = true)
  | evicted (h : Evicted evicted x)

/-- An evicted trigger was the oldest of too many; all its jobs are over, and
nobody counts on it. -/
structure Gone (jobs : List Job) (stranded : List StrandedTrigger) (e : Eviction) : Prop where
  mem : e.trigger ∈ e.held
  crowded : strandedTriggerLimit < e.held.length
  oldest : ∀ h ∈ e.held, e.trigger.event.createdAt ≤ h.event.createdAt
  known : ∃ (k : Nat) (job : Job), jobs[k]? = some job ∧
    job.event.claim = e.trigger.event.claim
  joined : ∀ (k : Nat) (job : Job), jobs[k]? = some job →
    job.event.claim = e.trigger.event.claim → job.joined.isSome = true
  unheld : ¬Kept stranded e.trigger.event.claim
  unfollowed : isFollowed jobs e.trigger.event.claim = false

structure Fated (jobs : List Job) (stranded : List StrandedTrigger) (evicted : List Eviction)
    (completed : List Nat) : Prop where
  fate : ∀ (k : Nat) (job : Job) (report : AttemptReport), jobs[k]? = some job →
    job.retried = false → job.joined = some report →
    Fate jobs stranded evicted job.event.claim report
  gone : ∀ e ∈ evicted, Gone jobs stranded e
  cause : ∀ x ∈ completed, Cause jobs evicted x

/-! ## Jobs go on -/

/-- A job keeps its trigger, and its report once it has one. -/
def Outgrows (jobs jobs' : List Job) : Prop :=
  ∀ (k : Nat) (job : Job), jobs[k]? = some job → ∃ job', jobs'[k]? = some job' ∧
    job'.event = job.event ∧ job'.retried = job.retried ∧
    (job.attempt.isSome = true → job'.attempt = job.attempt ∧ job'.behind = job.behind) ∧
    ∀ report, job.joined = some report → job'.joined = some report

theorem Outgrows.refl (jobs : List Job) : Outgrows jobs jobs :=
  fun _ job hget => ⟨job, hget, rfl, rfl, fun _ => ⟨rfl, rfl⟩, fun _ => id⟩

theorem outgrows_spawn (jobs : List Job) (event : TriggerEvent) (retried : Bool) :
    Outgrows jobs (spawnAttempt jobs event retried) :=
  fun _ job hget => ⟨job, spawned_keeps hget, rfl, rfl, fun _ => ⟨rfl, rfl⟩, fun _ => id⟩

theorem outgrows_poll (hget : jobs[j]? = some job) (hnew : job.attempt = none) (i : Nat)
    (behind : Option Nat) :
    Outgrows jobs (jobs.set j { job with attempt := some i, behind := behind }) := by
  intro k y hy
  obtain ⟨y', hy', ⟨-, rfl, rfl⟩ | ⟨-, rfl⟩⟩ :=
    getElem?_set_keeps hget { job with attempt := some i, behind := behind } hy
  · refine ⟨_, hy', rfl, rfl, fun hsome => ?_, fun _ => id⟩
    rw [hnew] at hsome
    cases hsome
  · exact ⟨_, hy', rfl, rfl, fun _ => ⟨rfl, rfl⟩, fun _ => id⟩

theorem outgrows_join (hget : jobs[j]? = some job) (hjoined : job.joined = none)
    (report : AttemptReport) : Outgrows jobs (jobs.set j { job with joined := some report }) := by
  intro k y hy
  obtain ⟨y', hy', ⟨-, rfl, rfl⟩ | ⟨-, rfl⟩⟩ :=
    getElem?_set_keeps hget { job with joined := some report } hy
  · refine ⟨_, hy', rfl, rfl, fun _ => ⟨rfl, rfl⟩, fun r hr => ?_⟩
    rw [hjoined] at hr
    cases hr
  · exact ⟨_, hy', rfl, rfl, fun _ => ⟨rfl, rfl⟩, fun _ => id⟩

theorem Redriven.outgrows (h : Redriven jobs x) (hgrow : Outgrows jobs jobs') :
    Redriven jobs' x := by
  obtain ⟨k, job, hget, hclaim, hretried⟩ := h
  obtain ⟨job', hget', hevent, hkind, -⟩ := hgrow k job hget
  exact ⟨k, job', hget', by rw [hevent, hclaim], hkind.trans hretried⟩

theorem Cause.outgrows (h : Cause jobs evicted x) (hgrow : Outgrows jobs jobs')
    (hevicted : ∀ x, Evicted evicted x → Evicted evicted' x) : Cause jobs' evicted' x := by
  cases h with
  | decided k job report hget hclaim hjoined h =>
      obtain ⟨job', hget', hevent, -, -, hkept⟩ := hgrow k job hget
      exact .decided k job' report hget' (by rw [hevent, hclaim]) (hkept report hjoined) h
  | collapsed k job report hget hclaim hfirst hjoined h hcovers =>
      obtain ⟨job', hget', hevent, hkind, -, hkept⟩ := hgrow k job hget
      exact .collapsed k job' report hget' (by rw [hevent, hclaim]) (hkind.trans hfirst)
        (hkept report hjoined) h hcovers
  | redriven k job hget hclaim hretried hjoined =>
      obtain ⟨report, hreport⟩ := Option.isSome_iff_exists.1 hjoined
      obtain ⟨job', hget', hevent, hkind, -, hkept⟩ := hgrow k job hget
      exact .redriven k job' hget' (by rw [hevent, hclaim]) (hkind.trans hretried)
        (Option.isSome_iff_exists.2 ⟨report, hkept report hreport⟩)
  | evicted h => exact .evicted (hevicted x h)

/-- One move of the loop. -/
theorem Fated.update (h : Fated jobs stranded evicted completed) (hgrow : Outgrows jobs jobs')
    (hfate : ∀ (k : Nat) (job' : Job) (report : AttemptReport), jobs'[k]? = some job' →
      job'.retried = false → job'.joined = some report →
      (∃ job, jobs[k]? = some job ∧ job.event = job'.event ∧ job.retried = false ∧
        job.joined = some report) ∨
      Fate jobs' stranded' evicted' job'.event.claim report)
    (hheld : ∀ x, Kept stranded x → Kept stranded' x ∨ Redriven jobs' x ∨ Evicted evicted' x)
    (hevicted : ∀ x, Evicted evicted x → Evicted evicted' x)
    (hgone : ∀ e ∈ evicted', Gone jobs' stranded' e)
    (hcause : ∀ x ∈ completed', x ∈ completed ∨ Cause jobs' evicted' x) :
    Fated jobs' stranded' evicted' completed' where
  fate k job' report hget' hfirst' hjoined' := by
    rcases hfate k job' report hget' hfirst' hjoined' with
      ⟨job, hget, hevent, hfirst, hjoined⟩ | hnew
    · have hold := h.fate k job report hget hfirst hjoined
      rw [hevent] at hold
      cases hold with
      | decided h => exact .decided h
      | collapsed h hcovers => exact .collapsed h hcovers
      | held h =>
          rcases hheld _ h with h | h | h
          · exact .held h
          · exact .redriven h
          · exact .evicted h
      | redriven h => exact .redriven (h.outgrows hgrow)
      | evicted h => exact .evicted (hevicted _ h)
    · exact hnew
  gone := hgone
  cause x hx := by
    rcases hcause x hx with hx | hnew
    · exact (h.cause x hx).outgrows hgrow hevicted
    · exact hnew

/-! ## Moves -/

/-- Evicted triggers stay as they are while the jobs go on. -/
theorem Gone.outgrows {e : Eviction} (h : Gone jobs stranded e) (hgrow : Outgrows jobs jobs')
    (hjoined : ∀ (k : Nat) (job' : Job), jobs'[k]? = some job' →
      job'.event.claim = e.trigger.event.claim → ∃ job, jobs[k]? = some job ∧
        job.event = job'.event)
    (hunheld : ¬Kept stranded' e.trigger.event.claim)
    (hunfollowed : isFollowed jobs' e.trigger.event.claim = true →
      isFollowed jobs e.trigger.event.claim = true) : Gone jobs' stranded' e where
  mem := h.mem
  crowded := h.crowded
  oldest := h.oldest
  known := by
    obtain ⟨k, job, hget, hclaim⟩ := h.known
    obtain ⟨job', hget', hevent, -⟩ := hgrow k job hget
    exact ⟨k, job', hget', by rw [hevent, hclaim]⟩
  joined k job' hget' hclaim := by
    obtain ⟨job, hget, hevent⟩ := hjoined k job' hget' hclaim
    have hdone := h.joined k job hget (by rw [hevent, hclaim])
    obtain ⟨report, hreport⟩ := Option.isSome_iff_exists.1 hdone
    obtain ⟨x, hx, -, -, -, hkept⟩ := hgrow k job hget
    obtain rfl : job' = x := Option.some.inj (hget'.symm.trans hx)
    exact Option.isSome_iff_exists.2 ⟨report, hkept report hreport⟩
  unheld := hunheld
  unfollowed := by
    cases hfollowed : isFollowed jobs' e.trigger.event.claim with
    | false => rfl
    | true =>
        have hold := hunfollowed hfollowed
        rw [h.unfollowed] at hold
        cases hold

/-- A new job follows nobody. -/
theorem isFollowed_spawn {retried : Bool}
    (h : isFollowed (spawnAttempt jobs event retried) x = true)
    (hne : event.claim ≠ x) : isFollowed jobs x = true := by
  obtain ⟨k, job, o, owner, hk, hfirst, ho, howner, hclaim, hcovers⟩ := isFollowed_eq_true.1 h
  rcases spawned_cases hk with ⟨-, rfl⟩ | hk
  · cases ho
  · rcases spawned_cases howner with ⟨-, rfl⟩ | howner
    · exact absurd hclaim hne
    · exact isFollowed_eq_true.2 ⟨k, job, o, owner, hk, hfirst, ho, howner, hclaim, hcovers⟩

theorem Fated.spawn (h : Fated jobs stranded evicted completed) (retried : Bool)
    (hnew : ¬Evicted evicted event.claim)
    (hsub : ∀ g ∈ stranded', g ∈ stranded)
    (hheld : ∀ x, Kept stranded x → Kept stranded' x ∨ retried = true ∧ event.claim = x) :
    Fated (spawnAttempt jobs event retried) stranded' evicted completed := by
  have hgrow := outgrows_spawn jobs event retried
  refine h.update hgrow (fun k job' report hget _ hjoined => ?_) (fun x hx => ?_) (fun _ => id)
    (fun e he => ?_) fun x hx => .inl hx
  · rcases spawned_cases hget with ⟨-, rfl⟩ | hget
    · cases hjoined
    · exact .inl ⟨job', hget, rfl, ‹_›, hjoined⟩
  · rcases hheld x hx with hx | ⟨rfl, hclaim⟩
    · exact .inl hx
    · exact .inr (.inl ⟨jobs.length, _, List.getElem?_concat_length, hclaim, rfl⟩)
  · have hne : event.claim ≠ e.trigger.event.claim := fun heq => hnew ⟨e, he, heq.symm⟩
    refine (h.gone e he).outgrows hgrow (fun k job' hget hclaim => ?_) ?_
      fun hfollowed => isFollowed_spawn hfollowed hne
    · rcases spawned_cases hget with ⟨-, rfl⟩ | hget
      · exact absurd hclaim hne
      · exact ⟨job', hget, rfl⟩
    · rintro ⟨g, hg, hclaim⟩
      exact (h.gone e he).unheld ⟨g, hsub g hg, hclaim⟩

/-- A polled job is put behind a job that has not been joined. -/
theorem Fated.poll (h : Fated jobs stranded evicted completed) (hget : jobs[j]? = some job)
    (hnew : job.attempt = none) (i : Nat) {behind : Option Nat}
    (hbehind : ∀ o owner, behind = some o → jobs[o]? = some owner → owner.joined = none) :
    Fated (jobs.set j { job with attempt := some i, behind := behind }) stranded evicted
      completed := by
  have hgrow := outgrows_poll hget hnew i behind
  have hback : ∀ {k : Nat} {x' : Job},
      (jobs.set j { job with attempt := some i, behind := behind })[k]? = some x' →
      ∃ x, jobs[k]? = some x ∧ x.event = x'.event ∧ x.retried = x'.retried ∧
        x.joined = x'.joined ∧ (x'.behind = x.behind ∨ x'.behind = behind) := by
    intro k x' hx'
    rcases getElem?_set_cases hx' with ⟨rfl, rfl, -⟩ | ⟨-, hold⟩
    · exact ⟨job, hget, rfl, rfl, rfl, .inr rfl⟩
    · exact ⟨x', hold, rfl, rfl, rfl, .inl rfl⟩
  refine h.update hgrow (fun k job' report hget' hfirst hjoined => ?_) (fun x hx => .inl hx)
    (fun _ => id) (fun e he => ?_) fun x hx => .inl hx
  · obtain ⟨x, hx, hevent, hkind, hsame, -⟩ := hback hget'
    exact .inl ⟨x, hx, hevent, hkind.trans hfirst, hsame.trans hjoined⟩
  · refine (h.gone e he).outgrows hgrow (fun k job' hget' _ => ?_) (h.gone e he).unheld
      fun hfollowed => ?_
    · obtain ⟨x, hx, hevent, -⟩ := hback hget'
      exact ⟨x, hx, hevent⟩
    · obtain ⟨k, y', o, owner', hk, hfirst, ho, howner', hclaim, hcovers⟩ :=
        isFollowed_eq_true.1 hfollowed
      obtain ⟨y, hy, hye, hyr, -, hyb⟩ := hback hk
      obtain ⟨owner, howner, hoe, hor, -⟩ := hback howner'
      rcases hyb with hyb | hyb
      · refine isFollowed_eq_true.2 ⟨k, y, o, owner, hy, hyr.trans hfirst, hyb.symm.trans ho,
          howner, by rw [hoe, hclaim], (Job.covers_eq hoe hor hye).trans hcovers⟩
      · -- The trigger it is behind has a job that is not joined.
        have hdone := (h.gone e he).joined o owner howner (by rw [hoe, hclaim])
        rw [hbehind o owner (hyb.symm.trans ho) howner] at hdone
        cases hdone

theorem isFollowed_join (hget : jobs[j]? = some job)
    (h : isFollowed (jobs.set j { job with joined := some report }) x = true) :
    isFollowed jobs x = true := by
  have hback : ∀ {k : Nat} {y' : Job},
      (jobs.set j { job with joined := some report })[k]? = some y' →
      ∃ y, jobs[k]? = some y ∧ y.event = y'.event ∧ y.retried = y'.retried ∧
        y.behind = y'.behind := by
    intro k y' hy'
    rcases getElem?_set_cases hy' with ⟨rfl, rfl, -⟩ | ⟨-, hold⟩
    · exact ⟨job, hget, rfl, rfl, rfl⟩
    · exact ⟨y', hold, rfl, rfl, rfl⟩
  obtain ⟨k, y', o, owner', hk, hfirst, ho, howner', hclaim, hcovers⟩ := isFollowed_eq_true.1 h
  obtain ⟨y, hy, hye, hyr, hyb⟩ := hback hk
  obtain ⟨owner, howner, hoe, hor, -⟩ := hback howner'
  exact isFollowed_eq_true.2 ⟨k, y, o, owner, hy, hyr.trans hfirst, hyb.trans ho, howner,
    by rw [hoe, hclaim], (Job.covers_eq hoe hor hye).trans hcovers⟩

/-- A job is joined: what its report leads to is there. -/
theorem Fated.join (h : Fated jobs stranded evicted completed) (hget : jobs[j]? = some job)
    (hjoined : job.joined = none) (hsub : ∀ g ∈ stranded, g ∈ stranded')
    (hnew : ∀ g ∈ stranded', g ∈ stranded ∨ g.event = job.event)
    (hfate : job.retried = false → Fate (jobs.set j { job with joined := some report }) stranded'
      evicted job.event.claim report)
    (hcause : ∀ x ∈ completed', x ∈ completed ∨
      Cause (jobs.set j { job with joined := some report }) evicted x) :
    Fated (jobs.set j { job with joined := some report }) stranded' evicted completed' := by
  have hgrow := outgrows_join hget hjoined report
  refine h.update hgrow (fun k job' rep hget' hfirst hrep => ?_) (fun x hx => .inl ?_)
    (fun _ => id) (fun e he => ?_) hcause
  · rcases getElem?_set_cases hget' with ⟨rfl, rfl, -⟩ | ⟨-, hold⟩
    · obtain rfl : report = rep := Option.some.inj hrep
      exact .inr (hfate hfirst)
    · exact .inl ⟨job', hold, rfl, hfirst, hrep⟩
  · obtain ⟨g, hg, hclaim⟩ := hx
    exact ⟨g, hsub g hg, hclaim⟩
  · have hopen : job.event.claim ≠ e.trigger.event.claim := by
      intro heq
      have hdone := (h.gone e he).joined j job hget heq
      rw [hjoined] at hdone
      cases hdone
    refine (h.gone e he).outgrows hgrow (fun k job' hget' _ => ?_) ?_ fun hfollowed =>
      isFollowed_join hget hfollowed
    · obtain ⟨y, hy, hevent, -⟩ := joined_cases hget hget'
      exact ⟨y, hy, hevent.symm⟩
    · rintro ⟨g, hg, hclaim⟩
      rcases hnew g hg with hg | hg
      · exact (h.gone e he).unheld ⟨g, hg, hclaim⟩
      · exact hopen (by rw [← hg, hclaim])

/-- A held trigger is evicted. -/
theorem Fated.evict (h : Fated jobs stranded evicted completed) {e : Eviction}
    (hk : stranded[k]? = some e.trigger) (hgone : Gone jobs (stranded.eraseIdx k) e)
    (hcompleted : ∀ x ∈ completed', x ∈ completed ∨ x = e.trigger.event.claim) :
    Fated jobs (stranded.eraseIdx k) (evicted ++ [e]) completed' := by
  have hself : Evicted (evicted ++ [e]) e.trigger.event.claim :=
    ⟨e, List.mem_append_right _ List.mem_cons_self, rfl⟩
  refine h.update (.refl jobs) (fun k job report hget hfirst hjoined => ?_) (fun x hx => ?_)
    (fun x hx => ?_) (fun e' he' => ?_) fun x hx => ?_
  · exact .inl ⟨job, hget, rfl, hfirst, hjoined⟩
  · obtain ⟨g, hg, rfl⟩ := hx
    rcases mem_eraseIdx_or_eq hk hg with hg | rfl
    · exact .inl ⟨g, hg, rfl⟩
    · exact .inr (.inr hself)
  · obtain ⟨e', he', hclaim⟩ := hx
    exact ⟨e', List.mem_append_left _ he', hclaim⟩
  · rcases List.mem_append.1 he' with he' | he'
    · refine (h.gone e' he').outgrows (.refl jobs) (fun k job hget _ => ⟨job, hget, rfl⟩) ?_ id
      rintro ⟨g, hg, hclaim⟩
      exact (h.gone e' he').unheld ⟨g, List.mem_of_mem_eraseIdx hg, hclaim⟩
    · rw [List.mem_singleton.1 he']
      exact hgone
  · rcases hcompleted x hx with hx | rfl
    · exact .inl hx
    · exact .inr (.evicted hself)

end Buzz.Waker
