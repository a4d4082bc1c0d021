import Buzz.Proofs.WakeAttempts
import Buzz.Waker.Loop

/-!
# The attempts of the wake loop

What the loop relies on of its attempts: a report stays what it is, no attempt
of an uncancelled loop reports a cancellation, and an attempt refused by the
claim names the trigger of a job that has it and will not itself report a
refusal.
-/

namespace Buzz.Waker

open Buzz.Lib

variable {ε : Type} {c now : Nat} {b book : AttemptBook} {t : ClaimingTrigger} {held : Bool}
  {a a' : Attempt ε} {v v' : Wakes ε} {w w' : WakeLoop ε} {i : Nat}
  {ran : AttemptBook × Attempt ε}

/-! ## The attempts -/

/-- What became of an attempt that had the claim. -/
def Acted (a : Attempt ε) : Prop :=
  a.holds = true ∨ ∃ r, a.task = .done r ∧ r.outcome ≠ .inFlight

/-- An attempt that found the book like this. -/
def Refusable (b : AttemptBook) (a : Attempt ε) : Prop :=
  Acted a ∨ ∃ r, a.task = .done r ∧ r.inFlightOwner = b.inFlight ∧ b.inFlight.isSome = true

theorem Lands.trigger_eq (h : Lands c b t now held ran) :
    ran.2.trigger = t := by
  cases h with
  | refused => rfl
  | ended => rfl
  | waits => rfl

theorem Lands.refusable (h : Lands c b t now held ran) :
    Refusable b ran.2 := by
  cases h with
  | refused s r _ _ hended =>
      rcases eq_or_ne r.outcome .inFlight with hout | hout
      · exact .inr ⟨r, rfl, (hended.collapsed hout).2⟩
      · exact .inl (.inr ⟨r, rfl, hout⟩)
  | ended s r _ hholds hended =>
      refine .inl (.inr ⟨r, rfl, fun hout => ?_⟩)
      rw [(hended.collapsed hout).1] at hholds
      cases hholds
  | waits => exact .inl (.inl rfl)

theorem Lands.acted (h : Lands c b t now true ran) :
    Acted ran.2 := by
  cases h with
  | refused s r hheld => cases hheld
  | ended s r _ hholds hended =>
      refine .inr ⟨r, rfl, fun hout => ?_⟩
      rw [(hended.collapsed hout).1] at hholds
      cases hholds
  | waits => exact .inl rfl

/-- An attempt that saw no cancellation reports none. -/
theorem Lands.uncancelled (h : Lands c b t now held ran)
    (hquiet : .cancelled true ∉ ran.2.log) {r : WakeAttemptResult ε}
    (hr : ran.2.task = .done r) :
    r.outcome ≠ .cancelled := by
  intro hout
  cases h with
  | refused s r' _ _ hended =>
      obtain rfl : r' = r := Async.done.inj hr
      exact hquiet (hended.cancelled hout)
  | ended s r' _ _ hended =>
      obtain rfl : r' = r := Async.done.inj hr
      exact hquiet (hended.cancelled hout)
  | waits => cases hr

/-- Where nothing says so, no cancellation is seen. -/
theorem advance_quiet (task : WakeTask ε) (beats : List (Option HeartbeatObservation))
    (book : AttemptBook) (holds : Bool) (log : List WakeEntry) (h : .cancelled true ∉ log) :
    .cancelled true ∉ (advance now t task { beats := beats } book holds log).2.log := by
  have hnote : ∀ {log : List WakeEntry} (e : WakeEntry), .cancelled true ∉ log →
      e ≠ .cancelled true → .cancelled true ∉ log ++ [e] := by
    intro log e hlog he hmem
    rcases List.mem_append.1 hmem with hmem | hmem
    · exact hlog hmem
    · exact he (List.mem_singleton.1 hmem).symm
  induction task generalizing beats book holds log with
  | done r => exact h
  | call op next ih =>
      cases op with
      | nowMs => exact ih _ _ _ _ _ (hnote _ h nofun)
      | isCancelled => exact ih _ beats _ _ _ (hnote _ h nofun)
      | heartbeat => exact ih _ beats.tail _ _ _ (hnote _ h nofun)
      | onDeployed => exact ih _ _ _ _ _ h
      | claim claiming nowMs aborted => exact ih _ _ _ _ _ h
      | stamp atMs => exact ih _ _ _ _ _ h
      | refreshStamp stampedAt settledAt => exact ih _ _ _ _ _ h
      | releaseStamp stampedAt => exact ih _ _ _ _ _ h
      | delay ms => exact h
      | presence => exact h
      | confirmAuthorNotKnownAgent => exact h
      | startManagedAgent => exact hnote _ h nofun

theorem reply_quiet (a : Attempt ε) (answer : WakeReply ε)
    (beats : List (Option HeartbeatObservation)) (book : AttemptBook)
    (h : .cancelled true ∉ a.log) :
    .cancelled true ∉ (a.reply now { beats := beats } book answer).2.log := by
  have hnote : ∀ e : WakeEntry, e ≠ .cancelled true → .cancelled true ∉ a.log ++ [e] := by
    intro e he hmem
    rcases List.mem_append.1 hmem with hmem | hmem
    · exact h hmem
    · exact he (List.mem_singleton.1 hmem).symm
  unfold Attempt.reply
  split
  · split
    · split
      · exact advance_quiet _ beats book _ _ h
      · exact h
    · exact h
  · split
    · exact advance_quiet _ beats book _ _ h
    · exact h
  · split
    · exact advance_quiet _ beats book _ _ (hnote _ nofun)
    · exact h
  · split
    · exact advance_quiet _ beats book _ _ (hnote _ nofun)
    · exact h

/-- No attempt saw or reports a cancellation. -/
def Uncancelled (v : Wakes ε) : Prop :=
  ∀ a ∈ v.attempts, .cancelled true ∉ a.log ∧ ∀ r, a.task = .done r → r.outcome ≠ .cancelled

/-- What a move leaves of the attempts there were. -/
def Grows (v v' : Wakes ε) : Prop :=
  ∀ (i : Nat) (a : Attempt ε), v.attempts[i]? = some a → ∃ a', v'.attempts[i]? = some a' ∧
    a'.trigger = a.trigger ∧ (a.isOver = true → a' = a) ∧ (Acted a → Acted a')

theorem Grows.refl (v : Wakes ε) : Grows v v := fun _ a ha => ⟨a, ha, rfl, fun _ => rfl, id⟩

/-- The book names the trigger of the attempt that has the claim. -/
theorem Paced.owner (h : Paced v) (hget : v.attempts[i]? = some a) (hholds : a.holds = true) :
    v.book.inFlight = some a.trigger := by
  have hover := (h.truthful a (List.mem_of_getElem? hget)).isOver_eq
  rw [hholds] at hover
  cases h.holder hget hover with
  | intro c b t s op next hop hkeeps hnow hbook hothers =>
      obtain ⟨hscene, hrest⟩ := hkeeps.needs hop
      have hclaimed := (hrest.claimed ((shown_holds s op).trans hscene)).2
      rw [shown_book, ← hbook] at hclaimed
      exact hclaimed

/-- A new attempt. -/
theorem call_spec (hquiet : Uncancelled v) (trigger : ClaimingTrigger)
    (beats : List (Option HeartbeatObservation)) :
    ∃ a, (v.call trigger { beats := beats }).attempts = v.attempts ++ [a] ∧
      a.trigger = trigger ∧ Refusable v.book a ∧ Uncancelled (v.call trigger { beats := beats }) ∧
      Grows v (v.call trigger { beats := beats }) := by
  have hland : Lands v.now v.book trigger v.now false
      (advance v.now trigger (runWakeAttempt trigger : WakeTask ε) { beats := beats } v.book
        false []) :=
    lands_advance (runWakeAttempt trigger) { beats := beats } ⟨v.now, v.book, false, []⟩ nofun
      (keeps_runWakeAttempt trigger v.now v.book)
  have hlog : .cancelled true ∉ (advance v.now trigger (runWakeAttempt trigger : WakeTask ε)
      { beats := beats } v.book false []).2.log :=
    advance_quiet _ beats v.book false [] nofun
  refine ⟨_, rfl, hland.trigger_eq, hland.refusable, fun a ha => ?_, fun i a ha => ?_⟩
  · rcases List.mem_append.1 ha with ha | ha
    · exact hquiet a ha
    · rw [List.mem_singleton.1 ha]
      exact ⟨hlog, fun r hr => hland.uncancelled hlog hr⟩
  · refine ⟨a, ?_, rfl, fun _ => rfl, id⟩
    exact (List.getElem?_append_left (List.getElem?_eq_some_iff.1 ha).1).trans ha

/-- An answer to an attempt. -/
theorem Paced.reply_spec (h : Paced v) (hquiet : Uncancelled v) (i : Nat) (answer : WakeReply ε)
    (beats : List (Option HeartbeatObservation)) :
    (v.reply i answer { beats := beats }).attempts.length = v.attempts.length ∧
      Uncancelled (v.reply i answer { beats := beats }) ∧
      Grows v (v.reply i answer { beats := beats }) := by
  unfold Wakes.reply
  split
  · exact ⟨rfl, hquiet, .refl v⟩
  · next a hget =>
      split
      · exact ⟨rfl, hquiet, .refl v⟩
      · next hover =>
          have hholder := h.holder hget (Bool.eq_false_iff.2 hover)
          have hmem := List.mem_of_getElem? hget
          have hlog : .cancelled true ∉ (a.reply v.now { beats := beats } v.book answer).2.log :=
            reply_quiet a answer beats v.book (hquiet a hmem).1
          have hspec : (a.reply v.now { beats := beats } v.book answer).2.trigger = a.trigger ∧
              Acted (a.reply v.now { beats := beats } v.book answer).2 ∧
              ∀ r, (a.reply v.now { beats := beats } v.book answer).2.task = .done r →
                r.outcome ≠ .cancelled := by
            cases hholder with
            | intro c b t s op next hop hkeeps hnow hbook hothers =>
                have hland := lands_reply answer { beats := beats } hop hkeeps hnow rfl
                rw [hbook] at hlog ⊢
                rcases hland with hsame | hland
                · rw [hsame]
                  exact ⟨rfl, .inl rfl, nofun⟩
                · exact ⟨hland.trigger_eq, hland.acted, fun r hr => hland.uncancelled hlog hr⟩
          refine ⟨List.length_set .., fun x hx => ?_, fun k x hk => ?_⟩
          · rcases List.mem_or_eq_of_mem_set hx with hx | rfl
            · exact hquiet x hx
            · exact ⟨hlog, hspec.2.2⟩
          · rcases Nat.decEq k i with hne | rfl
            · exact ⟨x, (List.getElem?_set_ne (Ne.symm hne)).trans hk, rfl, fun _ => rfl, id⟩
            · obtain rfl : a = x := Option.some.inj (hget.symm.trans hk)
              refine ⟨_, List.getElem?_set_self (List.getElem?_eq_some_iff.1 hk).1, hspec.1,
                fun hsome => absurd hsome hover, fun _ => hspec.2.1⟩

/-! ## The jobs -/

variable {jobs jobs' : List Job} {job job' : Job} {report : AttemptReport} {j : Nat}

theorem report_eq_some :
    job.report v = some report ↔ ∃ i a r, job.attempt = some i ∧ v.attempts[i]? = some a ∧
      a.task = .done r ∧ report = ⟨job.event, r.outcome, job.retried, r.inFlightOwner⟩ := by
  unfold Job.report
  constructor
  · intro h
    split at h
    · cases h
    · next a ha =>
        obtain ⟨i, hi, ha⟩ := Option.bind_eq_some_iff.1 ha
        split at h
        · next r hr => exact ⟨i, a, r, hi, ha, hr, (Option.some.inj h).symm⟩
        · cases h
  · rintro ⟨i, a, r, hi, ha, hr, rfl⟩
    rw [hi, Option.bind_some, ha]
    dsimp only
    rw [hr]

/-- The jobs and the attempts they run. -/
structure Linked (v : Wakes ε) (jobs : List Job) : Prop where
  paced : Paced v
  quiet : Uncancelled v
  attempt : ∀ (j : Nat) (job : Job) (i : Nat), jobs[j]? = some job → job.attempt = some i →
    ∃ a, v.attempts[i]? = some a ∧ a.trigger = job.claiming
  attempted : ∀ (i : Nat) (a : Attempt ε), v.attempts[i]? = some a →
    ∃ (j : Nat) (job : Job), jobs[j]? = some job ∧ job.attempt = some i
  collapse : ∀ (k : Nat) (job : Job) (o : Nat), jobs[k]? = some job → job.behind = some o →
    ∃ owner i a, jobs[o]? = some owner ∧ owner.attempt = some i ∧ v.attempts[i]? = some a ∧ Acted a
  refused : ∀ (k : Nat) (job : Job) (report : AttemptReport), jobs[k]? = some job →
    job.report v = some report → report.outcome = .inFlight →
    ∃ o owner, job.behind = some o ∧ jobs[o]? = some owner ∧
      report.inFlightOwner = some owner.claiming
  reported : ∀ (k : Nat) (job : Job) (report : AttemptReport), jobs[k]? = some job →
    job.joined = some report → job.report v = some report

theorem isOver_of_done {r : WakeAttemptResult ε} (h : a.task = .done r) : a.isOver = true := by
  unfold Attempt.isOver
  rw [h]

/-- A report is final. -/
theorem Grows.keeps_report (hg : Grows v v') (h : job.report v = some report) :
    job.report v' = some report := by
  obtain ⟨i, a, r, hi, ha, hr, hreport⟩ := report_eq_some.1 h
  obtain ⟨a', ha', -, hsame, -⟩ := hg i a ha
  exact report_eq_some.2 ⟨i, a, r, hi, hsame (isOver_of_done hr) ▸ ha', hr, hreport⟩

/-- Attempts go on. -/
theorem Linked.wakes (h : Linked v jobs) (hpaced : Paced v') (hquiet : Uncancelled v')
    (hg : Grows v v') (hlength : v'.attempts.length = v.attempts.length) : Linked v' jobs where
  paced := hpaced
  quiet := hquiet
  attempt j job i hget hi := by
    obtain ⟨a, ha, htrigger⟩ := h.attempt j job i hget hi
    obtain ⟨a', ha', htrigger', -⟩ := hg i a ha
    exact ⟨a', ha', htrigger'.trans htrigger⟩
  attempted i a' ha' := by
    have hlt : i < v.attempts.length := hlength ▸ (List.getElem?_eq_some_iff.1 ha').1
    exact h.attempted i _ (List.getElem?_eq_getElem hlt)
  collapse k job o hget hbehind := by
    obtain ⟨owner, i, a, howner, hi, ha, hacted⟩ := h.collapse k job o hget hbehind
    obtain ⟨a', ha', -, -, hacted'⟩ := hg i a ha
    exact ⟨owner, i, a', howner, hi, ha', hacted' hacted⟩
  refused k job report hget hreport hout := by
    obtain ⟨i, a', r, hi, ha', hr, rfl⟩ := report_eq_some.1 hreport
    obtain ⟨a, ha, -⟩ := h.attempt k job i hget hi
    obtain ⟨x, hx, -, hsame, hacted⟩ := hg i a ha
    obtain rfl : a' = x := Option.some.inj (ha'.symm.trans hx)
    cases hover : a.isOver with
    | true =>
        rw [hsame hover] at hr
        exact h.refused k job _ hget (report_eq_some.2 ⟨i, a, r, hi, ha, hr, rfl⟩) hout
    | false =>
        -- A report that is new comes from the attempt that had the claim.
        have hholds : a.holds = true := by
          rw [(h.paced.truthful a (List.mem_of_getElem? ha)).isOver_eq, Bool.not_eq_false'] at hover
          exact hover
        rcases hacted (.inl hholds) with hstill | ⟨r', hr', hne⟩
        · have hlive := (hpaced.truthful a' (List.mem_of_getElem? ha')).isOver_eq
          rw [isOver_of_done hr, hstill] at hlive
          cases hlive
        · obtain rfl : r' = r := Async.done.inj (hr'.symm.trans hr)
          exact absurd hout hne
  reported k job report hget hjoined := hg.keeps_report (h.reported k job report hget hjoined)

/-- A new job has no attempt yet. -/
theorem Linked.spawn (h : Linked v jobs) (event : TriggerEvent) (retried : Bool) :
    Linked v (spawnAttempt jobs event retried) := by
  have hkeep : ∀ {j : Nat} {job : Job}, jobs[j]? = some job →
      (spawnAttempt jobs event retried)[j]? = some job := by
    intro j job hget
    exact (List.getElem?_append_left (List.getElem?_eq_some_iff.1 hget).1).trans hget
  refine ⟨h.paced, h.quiet, fun j job i hget hi => ?_, fun i a ha => ?_, fun k job o hget ho => ?_,
    fun k job report hget hreport hout => ?_, fun k job report hget hjoined => ?_⟩
  · rcases getElem?_snoc_cases hget with ⟨-, rfl⟩ | ⟨-, hold⟩
    · cases hi
    · exact h.attempt j job i hold hi
  · obtain ⟨j, job, hget, hi⟩ := h.attempted i a ha
    exact ⟨j, job, hkeep hget, hi⟩
  · rcases getElem?_snoc_cases hget with ⟨-, rfl⟩ | ⟨-, hold⟩
    · cases ho
    · obtain ⟨owner, i, a, howner, hrest⟩ := h.collapse k job o hold ho
      exact ⟨owner, i, a, hkeep howner, hrest⟩
  · rcases getElem?_snoc_cases hget with ⟨-, rfl⟩ | ⟨-, hold⟩
    · obtain ⟨i, -, -, hi, -⟩ := report_eq_some.1 hreport
      cases hi
    · obtain ⟨o, owner, ho, howner, hsame⟩ := h.refused k job report hold hreport hout
      exact ⟨o, owner, ho, hkeep howner, hsame⟩
  · rcases getElem?_snoc_cases hget with ⟨-, rfl⟩ | ⟨-, hold⟩
    · cases hjoined
    · exact h.reported k job report hold hjoined

/-- A job before and after one of them changed: its event and its attempt are
still there. -/
theorem getElem?_set_keeps (hget : jobs[j]? = some job) (job' : Job) {k : Nat} {x : Job}
    (hx : jobs[k]? = some x) : ∃ x', (jobs.set j job')[k]? = some x' ∧
      ((k = j ∧ x = job ∧ x' = job') ∨ (k ≠ j ∧ x' = x)) := by
  rcases Nat.decEq k j with hne | rfl
  · exact ⟨x, (List.getElem?_set_ne (Ne.symm hne)).trans hx, .inr ⟨hne, rfl⟩⟩
  · obtain rfl : job = x := Option.some.inj (hget.symm.trans hx)
    exact ⟨job', List.getElem?_set_self (List.getElem?_eq_some_iff.1 hx).1, .inl ⟨rfl, rfl, rfl⟩⟩

/-- The loop has a job's report. -/
theorem Linked.join (h : Linked v jobs) (hget : jobs[j]? = some job)
    (hreport : job.report v = some report) :
    Linked v (jobs.set j { job with joined := some report }) := by
  have hkeep : ∀ {k : Nat} {x : Job}, jobs[k]? = some x → ∃ x',
      (jobs.set j { job with joined := some report })[k]? = some x' ∧ x'.attempt = x.attempt ∧
      x'.claiming = x.claiming := by
    intro k x hx
    obtain ⟨x', hx', ⟨-, rfl, rfl⟩ | ⟨-, rfl⟩⟩ :=
      getElem?_set_keeps hget { job with joined := some report } hx
    · exact ⟨_, hx', rfl, rfl⟩
    · exact ⟨_, hx', rfl, rfl⟩
  have hback : ∀ {k : Nat} {x' : Job},
      (jobs.set j { job with joined := some report })[k]? = some x' → ∃ x, jobs[k]? = some x ∧
      x'.attempt = x.attempt ∧ x'.behind = x.behind ∧ x'.claiming = x.claiming ∧
      x'.report v = x.report v ∧ (x'.joined = x.joined ∨ x'.joined = some report ∧ x = job) := by
    intro k x' hx'
    rcases getElem?_set_cases hx' with ⟨rfl, rfl, -⟩ | ⟨-, hold⟩
    · exact ⟨job, hget, rfl, rfl, rfl, rfl, .inr ⟨rfl, rfl⟩⟩
    · exact ⟨x', hold, rfl, rfl, rfl, rfl, .inl rfl⟩
  refine ⟨h.paced, h.quiet, fun k x' i hx' hi => ?_, fun i a ha => ?_, fun k x' o hx' ho => ?_,
    fun k x' rep hx' hrep hout => ?_, fun k x' rep hx' hjoined => ?_⟩
  · obtain ⟨x, hx, hattempt, -, hclaiming, -⟩ := hback hx'
    rw [hclaiming]
    exact h.attempt k x i hx (hattempt ▸ hi)
  · obtain ⟨k, x, hx, hi⟩ := h.attempted i a ha
    obtain ⟨x', hx', hattempt, -⟩ := hkeep hx
    exact ⟨k, x', hx', hattempt.trans hi⟩
  · obtain ⟨x, hx, -, hbehind, -⟩ := hback hx'
    obtain ⟨owner, i, a, howner, hi, hrest⟩ := h.collapse k x o hx (hbehind ▸ ho)
    obtain ⟨owner', howner', hattempt, -⟩ := hkeep howner
    exact ⟨owner', i, a, howner', hattempt.trans hi, hrest⟩
  · obtain ⟨x, hx, -, hbehind, -, hsame, -⟩ := hback hx'
    obtain ⟨o, owner, ho, howner, hnamed⟩ := h.refused k x rep hx (hsame ▸ hrep) hout
    obtain ⟨owner', howner', -, hclaiming⟩ := hkeep howner
    exact ⟨o, owner', hbehind.trans ho, howner', by rw [hnamed, hclaiming]⟩
  · obtain ⟨x, hx, -, -, -, hsame, hsrc⟩ := hback hx'
    rw [hsame]
    rcases hsrc with heq | ⟨heq, rfl⟩
    · exact h.reported k x rep hx (heq ▸ hjoined)
    · rw [heq] at hjoined
      exact hreport.trans hjoined

theorem holder_eq_some {o : Nat} (h : holder v jobs = some o) :
    ∃ owner i a, jobs[o]? = some owner ∧ owner.attempt = some i ∧ v.attempts[i]? = some a ∧
      a.holds = true := by
  obtain ⟨hlt, hpred, -⟩ := List.findIdx?_eq_some_iff_getElem.1 h
  obtain ⟨i, hi, hany⟩ := (Option.any_eq_true _ _).1 hpred
  obtain ⟨a, ha, hholds⟩ := (Option.any_eq_true _ _).1 hany
  exact ⟨_, i, a, List.getElem?_eq_getElem hlt, hi, ha, hholds⟩

/-- Whoever the book names is the trigger of a job. -/
theorem Linked.holder_of_inFlight (h : Linked v jobs) (hsome : v.book.inFlight.isSome = true) :
    ∃ o owner, holder v jobs = some o ∧ jobs[o]? = some owner ∧
      v.book.inFlight = some owner.claiming := by
  obtain ⟨i, a, ha, hholder⟩ := h.paced.owned hsome
  have hholds : a.holds = true := by
    cases hholder
    rfl
  obtain ⟨k, job, hk, hi⟩ := h.attempted i a ha
  cases hfound : holder v jobs with
  | none =>
      have hnone := List.findIdx?_eq_none_iff.1 hfound job (List.mem_of_getElem? hk)
      rw [hi, Option.any_some, ha, Option.any_some, hholds] at hnone
      cases hnone
  | some o =>
      obtain ⟨owner, i', a', howner, hi', ha', hholds'⟩ := holder_eq_some hfound
      obtain ⟨x, hx, htrigger⟩ := h.attempt o owner i' howner hi'
      obtain rfl : a' = x := Option.some.inj (ha'.symm.trans hx)
      exact ⟨o, owner, rfl, howner, by rw [h.paced.owner ha' hholds', htrigger]⟩

/-- The first poll of a job. An attempt that is refused was refused by the
attempt of the job it is put behind. -/
theorem Linked.poll (h : Linked v jobs) (hget : jobs[j]? = some job)
    (hnew : job.attempt = none) (beats : List (Option HeartbeatObservation)) :
    Linked (v.call job.claiming { beats := beats })
      (jobs.set j { job with
        attempt := some v.attempts.length, behind := holder v jobs }) := by
  obtain ⟨a, hattempts, htrigger, hrefusable, hquiet, hg⟩ :=
    call_spec h.quiet job.claiming beats
  have hpaced := h.paced.call job.claiming { beats := beats }
  have hlast : (v.call job.claiming { beats := beats }).attempts[v.attempts.length]? = some a := by
    rw [hattempts]
    exact List.getElem?_concat_length
  -- A job that has an attempt is not the one that is polled.
  have hkeep : ∀ {k i : Nat} {x : Job}, jobs[k]? = some x → x.attempt = some i →
      (jobs.set j { job with
        attempt := some v.attempts.length, behind := holder v jobs })[k]? = some x := by
    intro k i x hx hi
    have hne : j ≠ k := by
      rintro rfl
      obtain rfl : job = x := Option.some.inj (hget.symm.trans hx)
      rw [hnew] at hi
      cases hi
    exact (List.getElem?_set_ne hne).trans hx
  refine ⟨hpaced, hquiet, fun k x i hx hi => ?_, fun i y hy => ?_, fun k x o hx ho => ?_,
    fun k x rep hx hrep hout => ?_, fun k x rep hx hjoined => ?_⟩
  · rcases getElem?_set_cases hx with ⟨rfl, rfl, -⟩ | ⟨-, hold⟩
    · obtain rfl : v.attempts.length = i := Option.some.inj hi
      exact ⟨a, hlast, htrigger⟩
    · obtain ⟨y, hy, hyt⟩ := h.attempt k x i hold hi
      obtain ⟨y', hy', hyt', -⟩ := hg i y hy
      exact ⟨y', hy', hyt'.trans hyt⟩
  · rw [hattempts] at hy
    rcases getElem?_snoc_cases hy with ⟨rfl, -⟩ | ⟨-, hy⟩
    · exact ⟨j, _, List.getElem?_set_self (List.getElem?_eq_some_iff.1 hget).1, rfl⟩
    · obtain ⟨k, x, hx, hi⟩ := h.attempted i y hy
      exact ⟨k, x, hkeep hx hi, hi⟩
  · have hold : ∃ owner i y, jobs[o]? = some owner ∧ owner.attempt = some i ∧
        v.attempts[i]? = some y ∧ Acted y := by
      rcases getElem?_set_cases hx with ⟨rfl, rfl, -⟩ | ⟨-, hold⟩
      · obtain ⟨owner, i, y, howner, hi, hy, hholds⟩ := holder_eq_some ho
        exact ⟨owner, i, y, howner, hi, hy, .inl hholds⟩
      · exact h.collapse k x o hold ho
    obtain ⟨owner, i, y, howner, hi, hy, hacted⟩ := hold
    obtain ⟨y', hy', -, -, hacted'⟩ := hg i y hy
    exact ⟨owner, i, y', hkeep howner hi, hi, hy', hacted' hacted⟩
  · obtain ⟨i, y, r, hi, hy, hr, rfl⟩ := report_eq_some.1 hrep
    rcases getElem?_set_cases hx with ⟨rfl, rfl, -⟩ | ⟨-, hold⟩
    · obtain rfl : v.attempts.length = i := Option.some.inj hi
      obtain rfl : a = y := Option.some.inj (hlast.symm.trans hy)
      rcases hrefusable with (hholds | ⟨r', hr', hne⟩) | ⟨r', hr', hnamed, hsome⟩
      · have hlive := (hpaced.truthful a (List.mem_of_getElem? hlast)).isOver_eq
        rw [isOver_of_done hr, hholds] at hlive
        cases hlive
      · obtain rfl : r' = r := Async.done.inj (hr'.symm.trans hr)
        exact absurd hout hne
      · obtain rfl : r' = r := Async.done.inj (hr'.symm.trans hr)
        obtain ⟨o, owner, hfound, howner, hbook⟩ := h.holder_of_inFlight hsome
        obtain ⟨x, i, -, hx', hi', -⟩ := holder_eq_some hfound
        obtain rfl : owner = x := Option.some.inj (howner.symm.trans hx')
        exact ⟨o, owner, hfound, hkeep howner hi', hnamed.trans hbook⟩
    · obtain ⟨z, hz, -⟩ := h.attempt k x i hold hi
      rw [hattempts, List.getElem?_append_left (List.getElem?_eq_some_iff.1 hz).1] at hy
      obtain ⟨o, owner, ho, howner, hnamed⟩ :=
        h.refused k x _ hold (report_eq_some.2 ⟨i, y, r, hi, hy, hr, rfl⟩) hout
      obtain ⟨x', i', -, hx', hi', -⟩ := h.collapse k x o hold ho
      obtain rfl : owner = x' := Option.some.inj (howner.symm.trans hx')
      exact ⟨o, owner, ho, hkeep howner hi', hnamed⟩
  · rcases getElem?_set_cases hx with ⟨rfl, rfl, -⟩ | ⟨-, hold⟩
    · obtain ⟨i, -, -, hi, -⟩ := report_eq_some.1 (h.reported k job rep hget hjoined)
      rw [hnew] at hi
      cases hi
    · exact hg.keeps_report (h.reported k x rep hold hjoined)

end Buzz.Waker
