import Buzz.Lib.Schedule
import Buzz.Proofs.WakeLoop

/-!
# Collapsed mentions are not lost

A claim is completed when its attempt decided, when its one re-drive ended,
when it was evicted, or on the strength of another trigger's attempt that was
still in flight. The last is a bet on that owner. It is good as long as no
eviction takes an owner a follower was collapsed behind: the owner's own report
then decides, or the owner is held until its timer re-drives it.

The rest needs time. Every trigger is open until it is settled, and a schedule
that joins what has ended and lets the timer fire settles every trigger whose
attempts end. A held trigger waits for the ones before it in the list, and they
are as many as its index.
-/

namespace Buzz.Waker

open Buzz.Lib

variable {ε : Type} {w : WakeLoop ε} {written : Prop} {held : StrandedTrigger} {j k x : Nat}

/-! ## One step -/

theorem Outgrows.trans {jobs jobs' jobs'' : List Job} (h : Outgrows jobs jobs')
    (h' : Outgrows jobs' jobs'') : Outgrows jobs jobs'' := by
  intro k job hget
  obtain ⟨job', hget', hevent', hkind', hpolled', hkept'⟩ := h k job hget
  obtain ⟨job'', hget'', hevent'', hkind'', hpolled'', hkept''⟩ := h' k job' hget'
  refine ⟨job'', hget'', hevent''.trans hevent', hkind''.trans hkind', fun hsome => ?_,
    fun report hr => hkept'' report (hkept' report hr)⟩
  obtain ⟨hattempt', hbehind'⟩ := hpolled' hsome
  obtain ⟨hattempt'', hbehind''⟩ := hpolled'' (hattempt' ▸ hsome)
  exact ⟨hattempt''.trans hattempt', hbehind''.trans hbehind'⟩

/-- All that a step can do. -/
inductive Stepped (w : WakeLoop ε) : WakeLoop ε → Prop where
  | wakes (v : Wakes ε) (cursor : CursorStore) (hgrows : Grows w.wakes v) :
      Stepped w { w with wakes := v, cursor := cursor }
  | spawned (event : TriggerEvent) (cursor : CursorStore) : Stepped w
      { w with
        cursor := cursor
        claims := w.claims + 1
        jobs := spawnAttempt w.jobs event false }
  | polled (j i : Nat) (job : Job) (v : Wakes ε) (behind : Option Nat)
      (hget : w.jobs[j]? = some job) (hnew : job.attempt = none) (hgrows : Grows w.wakes v) :
      Stepped w
      { w with
        wakes := v
        jobs := w.jobs.set j { job with attempt := some i, behind := behind } }
  | settled (j : Nat) (job : Job) (report : AttemptReport) (cursor : CursorStore)
      (completed : List Nat) (hget : w.jobs[j]? = some job) (hjoined : job.joined = none) :
      Stepped w
      { w with
        jobs := w.jobs.set j { job with joined := some report }
        cursor := cursor
        completed := completed }
  | held (j : Nat) (job : Job) (report : AttemptReport) (last : StrandedTrigger)
      (hget : w.jobs[j]? = some job) (hjoined : job.joined = none) : Stepped w
      { w with
        jobs := w.jobs.set j { job with joined := some report }
        stranded := w.stranded ++ [last] }
  | evicted (j : Nat) (job : Job) (report : AttemptReport) (last : StrandedTrigger) (index : Nat)
      (e : Eviction) (cursor : CursorStore) (completed : List Nat)
      (hget : w.jobs[j]? = some job) (hjoined : job.joined = none)
      (hold : (w.stranded ++ [last])[index]? = some e.trigger) : Stepped w
      { w with
        jobs := w.jobs.set j { job with joined := some report }
        stranded := (w.stranded ++ [last]).eraseIdx index
        cursor := cursor
        evicted := w.evicted ++ [e]
        completed := completed }
  | redriven (index : Nat) (held : StrandedTrigger) (hget : w.stranded[index]? = some held) :
      Stepped w
      { w with
        stranded := w.stranded.eraseIdx index
        jobs := spawnAttempt w.jobs held.event true }

theorem Stepped.refl (w : WakeLoop ε) : Stepped w w :=
  .wakes w.wakes w.cursor (.refl _)

theorem stepped_step (h : Coherent written w) (move : LoopMove ε) :
    Stepped w (w.step move) := by
  cases move with
  | tick ms => exact .wakes (w.wakes.step (.tick ms)) w.cursor (.refl w.wakes)
  | feed call => exact .wakes w.wakes (w.cursor.feed call) (.refl _)
  | admitTrigger id author createdAt now durable =>
      show Stepped w (w.admitTrigger id author createdAt now durable)
      rcases admitTrigger_cases w id author createdAt now durable with
        ⟨cursor, -, heq⟩ | ⟨-, cursor, -, heq⟩
      · rw [heq]
        exact .wakes w.wakes cursor (.refl _)
      · rw [heq]
        exact .spawned _ cursor
  | poll j beats =>
      show Stepped w (w.poll j beats)
      unfold WakeLoop.poll
      split
      · exact .refl w
      · next job hget =>
          split
          · exact .refl w
          · next hsome =>
              obtain ⟨-, -, -, -, -, hgrows⟩ := call_spec h.linked.quiet job.claiming beats
              exact .polled j _ job _ _ hget (Option.not_isSome_iff_eq_none.1 hsome) hgrows
  | reply j answer beats =>
      show Stepped w (w.reply j answer beats)
      unfold WakeLoop.reply
      split
      · exact .refl w
      · next i _ =>
          obtain ⟨-, -, hgrows⟩ := h.linked.paced.reply_spec h.linked.quiet i answer beats
          exact .wakes _ w.cursor hgrows
  | join j durable =>
      show Stepped w (w.join j durable)
      rcases join_cases h.linked j durable with
        heq | ⟨job, report, hget, hjoined, -, -, -, -, ⟨-, heq⟩ | ⟨-, heq⟩⟩
      · rw [heq]
        exact .refl w
      · rw [heq]
        rcases h.retain_cases hget hjoined _ durable rfl with
          ⟨-, hkept⟩ | ⟨-, oldest, hold, -, hkept⟩
        · rw [hkept]
          exact .held j job report _ hget hjoined
        · rw [hkept]
          exact .evicted j job report _ _ _ _ _ hget hjoined hold
      · rw [heq]
        exact .settled j job report _ _ hget hjoined
  | redrive =>
      show Stepped w w.redrive
      rcases redrive_cases w with ⟨heq, -⟩ | ⟨index, held, hget, -, -, heq⟩
      · rw [heq]
        exact .refl w
      · rw [heq]
        exact .redriven index held hget

variable {w' : WakeLoop ε}

theorem Stepped.grows (h : Stepped w w') : Grows w.wakes w'.wakes := by
  cases h with
  | wakes v cursor hgrows => exact hgrows
  | polled j i job v behind _ _ hgrows => exact hgrows
  | spawned | settled | held | evicted | redriven => exact .refl _

/-- Jobs are only added, polled and joined. -/
theorem Stepped.outgrows (h : Stepped w w') : Outgrows w.jobs w'.jobs := by
  cases h with
  | wakes => exact .refl _
  | spawned event cursor => exact outgrows_spawn _ _ _
  | polled j i job v behind hget hnew => exact outgrows_poll hget hnew i behind
  | settled j job report cursor completed hget hjoined => exact outgrows_join hget hjoined report
  | held j job report last hget hjoined => exact outgrows_join hget hjoined report
  | evicted j job report last index e cursor completed hget hjoined =>
      exact outgrows_join hget hjoined report
  | redriven index held hget => exact outgrows_spawn _ _ _

/-- A report stays what it is. -/
theorem Stepped.keeps_report (h : Stepped w w') {job : Job} {report : AttemptReport}
    (hget : w.jobs[j]? = some job) (hreport : job.report w.wakes = some report) :
    ∃ job', w'.jobs[j]? = some job' ∧ job'.report w'.wakes = some report := by
  obtain ⟨job', hget', hevent, hkind, hpolled, -⟩ := h.outgrows j job hget
  obtain ⟨i, a, r, hi, ha, hr, hsame⟩ := report_eq_some.1 (h.grows.keeps_report hreport)
  have hi' : job'.attempt = some i := (hpolled (hi ▸ rfl)).1.trans hi
  exact ⟨job', hget', report_eq_some.2 ⟨i, a, r, hi', ha, hr, by rw [hsame, hevent, hkind]⟩⟩

/-- What is left of an entry's place in a list after another was erased. -/
theorem getElem?_eraseIdx_of_ne {l : List StrandedTrigger} {r i : Nat} (hr : l[r]? = some held)
    (hne : i ≠ r) : ∃ r' ≤ r, (i < r → r' < r) ∧ (l.eraseIdx i)[r']? = some held ∧
      ∀ m ≤ r', ∀ g, (l.eraseIdx i)[m]? = some g → ∃ m' ≤ r, l[m']? = some g := by
  rcases Nat.lt_or_gt_of_ne hne with hlt | hgt
  · refine ⟨r - 1, Nat.sub_le r 1, fun _ => by omega, ?_, fun m hm g hg => ?_⟩
    · rw [List.getElem?_eraseIdx, if_neg (by omega), Nat.sub_add_cancel (by omega)]
      exact hr
    · rw [List.getElem?_eraseIdx] at hg
      split at hg
      · exact ⟨m, by omega, hg⟩
      · exact ⟨m + 1, by omega, hg⟩
  · refine ⟨r, Nat.le_refl r, fun hlt => absurd hlt (Nat.lt_asymm hgt), ?_, fun m hm g hg => ?_⟩
    · rw [List.getElem?_eraseIdx, if_pos hgt]
      exact hr
    · rw [List.getElem?_eraseIdx, if_pos (by omega)] at hg
      exact ⟨m, hm, hg⟩

/-! ## The timer -/

/-- The trigger is held at this place of the list, and all up to it are due by
then. -/
def Queued (x t r : Nat) (w : WakeLoop ε) : Prop :=
  ∃ held, w.stranded[r]? = some held ∧ held.event.claim = x ∧
    ∀ i ≤ r, ∀ g, w.stranded[i]? = some g → g.dueAtMs ≤ t

/-- It is out of the list. -/
def Released (x : Nat) (w : WakeLoop ε) : Prop := Redriven w.jobs x ∨ Evicted w.evicted x

/-- A step moves it nearer to the front, or takes it out. -/
theorem Queued.step {t r : Nat} (hq : Queued x t r w) (h : Stepped w w') :
    Released x w' ∨ ∃ r' ≤ r, Queued x t r' w' := by
  obtain ⟨held, hr, rfl, hdue⟩ := hq
  have happend : ∀ last : StrandedTrigger, (w.stranded ++ [last])[r]? = some held ∧
      ∀ i ≤ r, ∀ g, (w.stranded ++ [last])[i]? = some g → g.dueAtMs ≤ t := by
    intro last
    have hlt := (List.getElem?_eq_some_iff.1 hr).1
    refine ⟨(List.getElem?_append_left hlt).trans hr, fun i hi g hg => hdue i hi g ?_⟩
    rw [List.getElem?_append_left (by omega)] at hg
    exact hg
  cases h with
  | wakes | spawned | polled | settled =>
      exact .inr ⟨r, Nat.le_refl r, held, hr, rfl, hdue⟩
  | held j job report last =>
      obtain ⟨hr', hdue'⟩ := happend last
      exact .inr ⟨r, Nat.le_refl r, held, hr', rfl, hdue'⟩
  | evicted j job report last index e cursor completed _ _ hold =>
      obtain ⟨hr', hdue'⟩ := happend last
      rcases Nat.decEq index r with hne | rfl
      · obtain ⟨r', hle, -, hget', hback⟩ := getElem?_eraseIdx_of_ne hr' hne
        refine .inr ⟨r', hle, held, hget', rfl, fun i hi g hg => ?_⟩
        obtain ⟨i', hi', hg'⟩ := hback i hi g hg
        exact hdue' i' hi' g hg'
      · obtain rfl : held = e.trigger := Option.some.inj (hr'.symm.trans hold)
        exact .inl (.inr ⟨e, List.mem_append_right _ List.mem_cons_self, rfl⟩)
  | redriven index other hget =>
      rcases Nat.decEq index r with hne | rfl
      · obtain ⟨r', hle, -, hget', hback⟩ := getElem?_eraseIdx_of_ne hr hne
        refine .inr ⟨r', hle, held, hget', rfl, fun i hi g hg => ?_⟩
        obtain ⟨i', hi', hg'⟩ := hback i hi g hg
        exact hdue i' hi' g hg'
      · obtain rfl : held = other := Option.some.inj (hr.symm.trans hget)
        exact .inl (.inl ⟨w.jobs.length, _, List.getElem?_concat_length, rfl, rfl⟩)

/-- The timer takes the first of the list, since it is due. -/
theorem Queued.redrive {t r : Nat} (hq : Queued x t r w) (hnow : t ≤ w.wakes.now) :
    Released x w.redrive ∨ ∃ r' < r, Queued x t r' w.redrive := by
  obtain ⟨held, hr, rfl, hdue⟩ := hq
  have hfirst : ∃ first, w.stranded[0]? = some first ∧ first.dueAtMs ≤ w.wakes.now := by
    have hpos : 0 < w.stranded.length := Nat.zero_lt_of_lt (List.getElem?_eq_some_iff.1 hr).1
    exact ⟨_, List.getElem?_eq_getElem hpos,
      Nat.le_trans (hdue 0 (Nat.zero_le r) _ (List.getElem?_eq_getElem hpos)) hnow⟩
  obtain ⟨first, hzero, hready⟩ := hfirst
  rcases redrive_cases w with ⟨-, hlate⟩ | ⟨index, other, hget, -, hbefore, heq⟩
  · exact absurd hready (Nat.not_le.2 (hlate first (List.mem_of_getElem? hzero)))
  · obtain rfl : index = 0 := by
      rcases Nat.eq_zero_or_pos index with hindex | hindex
      · exact hindex
      · exact absurd hready (Nat.not_le.2 (hbefore 0 hindex first hzero))
    rw [heq]
    rcases Nat.eq_zero_or_pos r with rfl | hpos
    · obtain rfl : held = other := Option.some.inj (hr.symm.trans hget)
      exact .inl (.inl ⟨w.jobs.length, _, List.getElem?_concat_length, rfl, rfl⟩)
    · obtain ⟨r', -, hlt, hget', hback⟩ := getElem?_eraseIdx_of_ne hr (Nat.ne_of_lt hpos)
      refine .inr ⟨r', hlt hpos, held, hget', rfl, fun i hi g hg => ?_⟩
      obtain ⟨i', hi', hg'⟩ := hback i hi g hg
      exact hdue i' hi' g hg'

/-! ## Schedules -/

variable {M : Machine (WakeLoop ε) (LoopMove ε)} {moves : Nat → LoopMove ε} {n : Nat}

/-- What the runtime does for the loop: a task that has ended is joined, and time
passes and the timer fires for as long as something is held. -/
structure Fair (M : Machine (WakeLoop ε) (LoopMove ε)) (moves : Nat → LoopMove ε) : Prop where
  join : ∀ (n j : Nat) (job : Job), (M.after moves n).jobs[j]? = some job → job.joined = none →
    (job.report (M.after moves n).wakes).isSome = true →
    ∃ k, n ≤ k ∧ ∃ durable, moves k = .join j durable
  timer : ∀ n t, ∃ k, n ≤ k ∧ t ≤ (M.after moves k).wakes.now ∧
    (moves k = .redrive ∨ (M.after moves k).stranded = [])

/-- Every attempt at the trigger ends. -/
def Ends (M : Machine (WakeLoop ε) (LoopMove ε)) (moves : Nat → LoopMove ε) (x : Nat) : Prop :=
  ∀ (n j : Nat) (job : Job), (M.after moves n).jobs[j]? = some job → job.event.claim = x →
    ∃ k, n ≤ k ∧ ∃ job', (M.after moves k).jobs[j]? = some job' ∧
      (job'.report (M.after moves k).wakes).isSome = true

/-- A schedule of the loop that keeps to the invariant. -/
structure Course (written : Prop) (M : Machine (WakeLoop ε) (LoopMove ε))
    (moves : Nat → LoopMove ε) : Prop where
  step : M.step = WakeLoop.step
  coherent : ∀ n, Coherent written (M.after moves n)

namespace Course

variable (h : Course written M moves)

include h

theorem after_succ (n : Nat) : M.after moves (n + 1) = (M.after moves n).step (moves n) := by
  show M.step _ _ = _
  rw [h.step]

theorem stepped (n : Nat) : Stepped (M.after moves n) (M.after moves (n + 1)) := by
  rw [h.after_succ]
  exact stepped_step (h.coherent n) (moves n)

theorem outgrows (hle : n ≤ k) : Outgrows (M.after moves n).jobs (M.after moves k).jobs := by
  obtain ⟨d, rfl⟩ := Nat.exists_eq_add_of_le hle
  clear hle
  induction d with
  | zero => exact .refl _
  | succ d ih => exact ih.trans (h.stepped (n + d)).outgrows

theorem keeps_report (hle : n ≤ k) {job : Job} {report : AttemptReport}
    (hget : (M.after moves n).jobs[j]? = some job)
    (hreport : job.report (M.after moves n).wakes = some report) :
    ∃ job', (M.after moves k).jobs[j]? = some job' ∧
      job'.report (M.after moves k).wakes = some report := by
  obtain ⟨d, rfl⟩ := Nat.exists_eq_add_of_le hle
  clear hle
  induction d with
  | zero => exact ⟨job, hget, hreport⟩
  | succ d ih =>
      obtain ⟨job', hget', hreport'⟩ := ih
      exact (h.stepped (n + d)).keeps_report hget' hreport'

/-- A job whose attempt ends is joined. -/
theorem joins (hfair : Fair M moves) {job : Job} (hget : (M.after moves n).jobs[j]? = some job)
    (hends : Ends M moves job.event.claim) :
    ∃ k, n ≤ k ∧ ∃ job', (M.after moves k).jobs[j]? = some job' ∧ job'.event = job.event ∧
      job'.retried = job.retried ∧ job'.joined.isSome = true := by
  obtain ⟨k, hnk, ended, hended, hsome⟩ := hends n j job hget rfl
  obtain ⟨report, hreport⟩ := Option.isSome_iff_exists.1 hsome
  cases hjoined : ended.joined with
  | some r =>
      obtain ⟨x, hx, hevent, hkind, -⟩ := h.outgrows hnk j job hget
      obtain rfl : ended = x := Option.some.inj (hended.symm.trans hx)
      exact ⟨k, hnk, ended, hended, hevent, hkind, by rw [hjoined]; rfl⟩
  | none =>
      obtain ⟨m, hkm, durable, hmove⟩ := hfair.join k j ended hended hjoined hsome
      obtain ⟨later, hlater, hreport'⟩ := h.keeps_report hkm hended hreport
      obtain ⟨x, hx, hevent, hkind, -⟩ := h.outgrows (Nat.le_trans hnk hkm) j job hget
      obtain rfl : later = x := Option.some.inj (hlater.symm.trans hx)
      have hnext : ∃ job', (M.after moves (m + 1)).jobs[j]? = some job' ∧
          job'.joined.isSome = true := by
        rw [h.after_succ, hmove]
        show ∃ job', ((M.after moves m).join j durable).jobs[j]? = some job' ∧ _
        unfold WakeLoop.join
        rw [hlater]
        dsimp only
        split
        · next hdone => exact ⟨later, hlater, hdone⟩
        · rw [hreport']
          dsimp only
          have hself : ((M.after moves m).jobs.set j { later with joined := some report })[j]? =
              some { later with joined := some report } :=
            List.getElem?_set_self (List.getElem?_eq_some_iff.1 hlater).1
          split
          · unfold WakeLoop.recordSettled
            split
            · exact ⟨_, hself, rfl⟩
            · split
              · exact ⟨_, hself, rfl⟩
              · exact ⟨_, hself, rfl⟩
          · exact ⟨_, hself, rfl⟩
      obtain ⟨job', hget', hdone⟩ := hnext
      obtain ⟨x, hx, hevent', hkind', -⟩ := (h.stepped m).outgrows j later hlater
      obtain rfl : job' = x := Option.some.inj (hget'.symm.trans hx)
      exact ⟨m + 1, Nat.le_succ_of_le (Nat.le_trans hnk hkm), job', hget', hevent'.trans hevent,
        hkind'.trans hkind, hdone⟩

/-- A held trigger is let go. -/
theorem releases (hfair : Fair M moves) (hheld : Kept (M.after moves n).stranded x) :
    ∃ k, n ≤ k ∧ Released x (M.after moves k) := by
  have hbound : ∀ l : List StrandedTrigger, ∃ t, ∀ g ∈ l, g.dueAtMs ≤ t := by
    intro l
    induction l with
    | nil => exact ⟨0, nofun⟩
    | cons g l ih =>
        obtain ⟨t, ht⟩ := ih
        refine ⟨max g.dueAtMs t, fun g' hg' => ?_⟩
        rcases List.mem_cons.1 hg' with rfl | hg'
        · exact Nat.le_max_left ..
        · exact Nat.le_trans (ht g' hg') (Nat.le_max_right ..)
  obtain ⟨t, ht⟩ := hbound (M.after moves n).stranded
  obtain ⟨held, hmem, hclaim⟩ := hheld
  obtain ⟨r, hr⟩ := List.mem_iff_getElem?.1 hmem
  have hqueued : Queued x t r (M.after moves n) :=
    ⟨held, hr, hclaim, fun i _ g hg => ht g (List.mem_of_getElem? hg)⟩
  have hkeep : ∀ (r : Nat) (w : WakeLoop ε) (move : LoopMove ε), Queued x t r w →
      Coherent written w →
        Released x (M.step w move) ∨ ∃ r' ≤ r, Queued x t r' (M.step w move) := by
    intro r w move hq hw
    rw [h.step]
    exact hq.step (stepped_step hw move)
  have hfire : ∀ (r : Nat) (w : WakeLoop ε) (move : LoopMove ε), Queued x t r w →
      Coherent written w → t ≤ w.wakes.now ∧ (move = .redrive ∨ w.stranded = []) →
      Released x (M.step w move) ∨ ∃ r' < r, Queued x t r' (M.step w move) := by
    rintro r w move hq - ⟨hnow, rfl | hnone⟩
    · rw [h.step]
      exact hq.redrive hnow
    · obtain ⟨g, hg, -⟩ := hq
      rw [hnone] at hg
      cases hg
  exact Machine.after_eventually hkeep hfire h.coherent (hfair.timer · t) hqueued

end Course

/-! ## Every trigger is settled -/

variable {job : Job}

/-- Where the re-drive was joined, the trigger is settled. -/
theorem Coherent.settled_of_redrive (h : Coherent written w) (hwritten : written)
    (hget : w.jobs[j]? = some job) (hretried : job.retried = true)
    (hjoined : job.joined.isSome = true) :
    job.event.claim ∈ w.completed ∨ job.event.claim ∈ w.abandoned := by
  rcases h.tracked.tracked _ (h.tracked.lt j job hget) with hdone | ⟨e, hopen, hclaim⟩
  · exact hdone hwritten
  · rcases hopen with ⟨k, other, hk, hnone, rfl⟩ | ⟨held, hheld, rfl⟩
    · -- Its first job was joined before, so the open one is a second re-drive.
      have hkind : other.retried = true := by
        cases hr : other.retried with
        | true => rfl
        | false =>
            obtain ⟨l, first, hl, hfc, hff, hfj⟩ := h.tracked.first j job hget hretried
            obtain rfl := (h.tracked.once k l other first hk hl (hclaim.trans hfc.symm)).2
              (hr.trans hff.symm)
            obtain rfl : other = first := Option.some.inj (hk.symm.trans hl)
            rw [hnone] at hfj
            cases hfj
      obtain rfl := (h.tracked.once k j other job hk hget hclaim).2 (hkind.trans hretried.symm)
      obtain rfl : job = other := Option.some.inj (hget.symm.trans hk)
      rw [hnone] at hjoined
      cases hjoined
    · have hfirst := h.tracked.unretried held hheld j job hget hclaim.symm
      rw [hretried] at hfirst
      cases hfirst

/-- An evicted trigger is settled. -/
theorem Coherent.settled_of_evicted (h : Coherent written w) (hwritten : written)
    (hevicted : Evicted w.evicted x) : x ∈ w.completed ∨ x ∈ w.abandoned := by
  obtain ⟨e, he, rfl⟩ := hevicted
  have hgone := h.fated.gone e he
  obtain ⟨k, job, hget, hclaim⟩ := hgone.known
  have hlt := h.tracked.lt k job hget
  rw [hclaim] at hlt
  rcases h.tracked.tracked _ hlt with hdone | ⟨e', hopen, hsame⟩
  · exact hdone hwritten
  · rcases hopen with ⟨i, other, hi, hnone, rfl⟩ | ⟨held, hheld, rfl⟩
    · have hjoined := hgone.joined i other hi hsame
      rw [hnone] at hjoined
      cases hjoined
    · exact absurd ⟨held, hheld, hsame⟩ hgone.unheld

/-- An open trigger whose first job was joined is held or re-driven. -/
theorem Coherent.open_of_joined (h : Coherent written w) (hget : w.jobs[j]? = some job)
    (hjoined : job.joined.isSome = true) {e : TriggerEvent} (hopen : Open w.jobs w.stranded e)
    (hclaim : e.claim = job.event.claim) :
    Kept w.stranded job.event.claim ∨ Redriven w.jobs job.event.claim := by
  rcases hopen with ⟨k, other, hk, hnone, rfl⟩ | ⟨held, hheld, rfl⟩
  · right
    cases hr : other.retried with
    | true => exact ⟨k, other, hk, hclaim, hr⟩
    | false =>
        cases hr' : job.retried with
        | true => exact ⟨j, job, hget, rfl, hr'⟩
        | false =>
            obtain rfl := (h.tracked.once k j other job hk hget hclaim).2 (hr.trans hr'.symm)
            obtain rfl : job = other := Option.some.inj (hget.symm.trans hk)
            rw [hnone] at hjoined
            cases hjoined
  · exact .inl ⟨held, hheld, hclaim⟩

namespace Course

variable (h : Course written M moves) (hfair : Fair M moves)

include h hfair

/-- A trigger that was let go is settled. -/
theorem settles_of_released (hwritten : written) (hends : Ends M moves x)
    (hreleased : Released x (M.after moves n)) :
    ∃ k, n ≤ k ∧ (x ∈ (M.after moves k).completed ∨ x ∈ (M.after moves k).abandoned) := by
  rcases hreleased with ⟨j, job, hget, rfl, hretried⟩ | hevicted
  · obtain ⟨k, hnk, job', hget', hevent, hkind, hjoined⟩ := h.joins hfair hget hends
    refine ⟨k, hnk, ?_⟩
    rw [← hevent]
    exact (h.coherent k).settled_of_redrive hwritten hget' (hkind.trans hretried) hjoined
  · exact ⟨n, Nat.le_refl n, (h.coherent n).settled_of_evicted hwritten hevicted⟩

theorem settles_of_held (hwritten : written) (hends : Ends M moves x)
    (hheld : Kept (M.after moves n).stranded x) :
    ∃ k, n ≤ k ∧ (x ∈ (M.after moves k).completed ∨ x ∈ (M.after moves k).abandoned) := by
  obtain ⟨k, hnk, hreleased⟩ := h.releases hfair hheld
  obtain ⟨m, hkm, hdone⟩ := h.settles_of_released hfair hwritten hends hreleased
  exact ⟨m, Nat.le_trans hnk hkm, hdone⟩

theorem settles (hwritten : written) (hlt : x < (M.after moves n).claims)
    (hends : Ends M moves x) :
    ∃ k, n ≤ k ∧ (x ∈ (M.after moves k).completed ∨ x ∈ (M.after moves k).abandoned) := by
  rcases (h.coherent n).tracked.tracked x hlt with hdone | ⟨e, hopen, rfl⟩
  · exact ⟨n, Nat.le_refl n, hdone hwritten⟩
  · rcases hopen with ⟨j, job, hget, -, rfl⟩ | ⟨held, hheld, rfl⟩
    · obtain ⟨k, hnk, job', hget', hevent, -, hjoined⟩ := h.joins hfair hget hends
      have hk := h.coherent k
      rcases hk.tracked.tracked _ (hk.tracked.lt j job' hget') with hdone | ⟨e, hopen, hclaim⟩
      · refine ⟨k, hnk, ?_⟩
        rw [← hevent]
        exact hdone hwritten
      · rw [← hevent] at hends ⊢
        rcases hk.open_of_joined hget' hjoined hopen hclaim with hheld | hredriven
        · obtain ⟨m, hkm, hdone⟩ := h.settles_of_held hfair hwritten hends hheld
          exact ⟨m, Nat.le_trans hnk hkm, hdone⟩
        · obtain ⟨m, hkm, hdone⟩ := h.settles_of_released hfair hwritten hends (.inl hredriven)
          exact ⟨m, Nat.le_trans hnk hkm, hdone⟩
    · exact h.settles_of_held hfair hwritten hends ⟨held, hheld, rfl⟩

/-- The owner of a job that counts on it is heard of. -/
theorem answers {owner : Job} {o : Nat} (hget : (M.after moves n).jobs[j]? = some job)
    (hfirst : job.retried = false) (hbehind : job.behind = some o)
    (howner : (M.after moves n).jobs[o]? = some owner) (hcovers : owner.covers job = true)
    (hpolled : job.attempt.isSome = true) (hends : Ends M moves owner.event.claim) :
    ∃ k, n ≤ k ∧ ∃ owner', (M.after moves k).jobs[o]? = some owner' ∧
      Answered (M.after moves k).jobs owner' := by
  -- Whenever the owner has been joined it was heard of, or is held.
  have hthen : ∀ {k : Nat} {owner' : Job}, n ≤ k → (M.after moves k).jobs[o]? = some owner' →
      owner'.joined.isSome = true → Answered (M.after moves k).jobs owner' ∨
        Kept (M.after moves k).stranded owner'.event.claim := by
    intro k owner' hnk howner' hjoined
    obtain ⟨job', hget', hevent, hkind, hsame, -⟩ := h.outgrows hnk j job hget
    obtain ⟨x, hx, hoe, hor, -⟩ := h.outgrows hnk o owner howner
    obtain rfl : owner' = x := Option.some.inj (howner'.symm.trans hx)
    rcases (h.coherent k).answered_or_pending hget' (hkind.trans hfirst)
      ((hsame hpolled).2.trans hbehind) howner' ((Job.covers_eq hoe hor hevent).trans hcovers)
      with hanswered | hnone | hheld
    · exact .inl hanswered
    · rw [hnone] at hjoined
      cases hjoined
    · exact .inr hheld
  obtain ⟨k, hnk, owner', howner', hevent, -, hjoined⟩ := h.joins hfair howner hends
  rcases hthen hnk howner' hjoined with hanswered | hheld
  · exact ⟨k, hnk, owner', howner', hanswered⟩
  · obtain ⟨m, hkm, hreleased⟩ := h.releases hfair hheld
    have hnm := Nat.le_trans hnk hkm
    obtain ⟨last, hlast, hsame, -, -, hkept⟩ := h.outgrows hkm o owner' howner'
    obtain ⟨report, hreport⟩ := Option.isSome_iff_exists.1 hjoined
    refine ⟨m, hnm, last, hlast, ?_⟩
    rcases hreleased with hredriven | ⟨e, he, hclaim⟩
    · exact .inr (by rw [hsame]; exact hredriven)
    · rcases hthen hnm hlast (by rw [hkept report hreport]; rfl) with hanswered | hheld
      · exact hanswered
      · have hunheld := ((h.coherent m).fated.gone e he).unheld
        rw [hclaim, ← hsame] at hunheld
        exact absurd hheld hunheld

end Course

/-! ## The results -/

/-- What a fair schedule comes to. -/
structure LoopEnds (M : Machine (WakeLoop ε) (LoopMove ε)) (moves : Nat → LoopMove ε) : Prop where
  answered : ∀ (n j o : Nat) (job owner : Job) (report : AttemptReport),
    (M.after moves n).jobs[j]? = some job → job.retried = false → job.joined = some report →
    report.outcome = .inFlight → job.behind = some o → (M.after moves n).jobs[o]? = some owner →
    owner.covers job = true → Ends M moves owner.event.claim →
    ∃ k, n ≤ k ∧ ∃ owner', (M.after moves k).jobs[o]? = some owner' ∧
      Answered (M.after moves k).jobs owner'
  settled : (∀ n, (moves n).writes = true) → ∀ n x, x < (M.after moves n).claims →
    Ends M moves x →
    ∃ k, n ≤ k ∧ (x ∈ (M.after moves k).completed ∨ x ∈ (M.after moves k).abandoned)

theorem course_of_spares {now : Nat} {state : Cursor} {capacity : Nat}
    (hspares : ∀ n, ((wakeLoop ε now state capacity).after moves n).spares (moves n) = true)
    (hwrites : written → ∀ n, (moves n).writes = true) :
    Course written (wakeLoop ε now state capacity) moves where
  step := rfl
  coherent n := by
    have hstep : ∀ (w : WakeLoop ε) (move : LoopMove ε), Coherent written w →
        w.spares move = true ∧ (written → move.writes = true) → Coherent written (w.step move) :=
      fun w move hw hmove => hw.step move hmove.1 hmove.2
    exact Machine.inv_after (coherent_init ε now state capacity) hstep
      (fun n => ⟨hspares n, fun hw => hwrites hw n⟩) n

/-- A schedule that evicts no owner loses no follower: a completed claim has one
of the four reasons, and in the end the owner counted on is heard of and every
trigger settled. -/
theorem collapsed_mentions_are_not_lost (now : Nat) (state : Cursor) (capacity : Nat)
    (moves : Nat → LoopMove ε)
    (hspares : ∀ n, ((wakeLoop ε now state capacity).after moves n).spares (moves n) = true) :
    (∀ n, LoopHolds ((wakeLoop ε now state capacity).after moves n)) ∧
      (Fair (wakeLoop ε now state capacity) moves →
        LoopEnds (wakeLoop ε now state capacity) moves) := by
  have hcourse : Course False (wakeLoop ε now state capacity) moves :=
    course_of_spares hspares False.elim
  refine ⟨fun n => (hcourse.coherent n).holds, fun hfair => ⟨?_, fun hwrites n x hlt hends => ?_⟩⟩
  · intro n j o job owner report hget hfirst hjoined _ hbehind howner hcovers hends
    have hreport := (hcourse.coherent n).linked.reported j job report hget hjoined
    obtain ⟨i, -, -, hi, -⟩ := report_eq_some.1 hreport
    exact hcourse.answers hfair hget hfirst hbehind howner hcovers (hi ▸ rfl) hends
  · have hwritten : Course True (wakeLoop ε now state capacity) moves :=
      course_of_spares hspares fun _ => hwrites
    exact hwritten.settles hfair trivial hlt hends

/-! ## Two schedules -/

/-- The moves, and then only time. -/
def thenTicks (ms : List (LoopMove ε)) (n : Nat) : LoopMove ε := ms.getD n (.tick 1)

/-- A second mention of an author arrives while the first is in flight; the
first is then refused by the author gate. -/
def refusedOwner : List (LoopMove Unit) :=
  [.admitTrigger "o" "aa" 1000 1000 true, .poll 0 [], .admitTrigger "f" "aa" 1001 1001 true,
    .poll 1 [], .join 1 true, .reply 0 (.presence (.error ())) [],
    .reply 0 (.author (.ok false)) [], .join 0 true]

/-- The first fails to deploy, after as many triggers as may be held. -/
def evictedOwner : List (LoopMove Unit) :=
  [.admitTrigger "o" "aa" 1000 1000 true, .poll 0 [], .admitTrigger "f" "aa" 1001 1001 true,
    .poll 1 [], .join 1 true] ++
  (List.range strandedTriggerLimit).flatMap (fun n =>
    [.admitTrigger (toString n) "bb" (1002 + n) 1010 true, .poll (2 + n) [], .join (2 + n) true]) ++
  [.reply 0 (.presence (.error ())) [], .reply 0 (.author (.ok true)) [],
    .reply 0 (.deployed (.error ())) [], .join 0 true]

theorem thenTicks_of_le {ms : List (LoopMove ε)} (hle : ms.length ≤ n) :
    thenTicks ms n = .tick 1 := by
  unfold thenTicks
  rw [List.getD_eq_getElem?_getD, List.getElem?_eq_none hle]
  rfl

/-- A loop over a cursor file with nothing in it. -/
def freshLoop : Machine (WakeLoop Unit) (LoopMove Unit) :=
  wakeLoop Unit 1000000 ⟨1000, 1000, 1000, []⟩ 4096

theorem freshLoop_ticks (ms : List (LoopMove Unit)) (d : Nat) :
    freshLoop.after (thenTicks ms) (ms.length + d) =
      { freshLoop.after (thenTicks ms) ms.length with
        wakes := { (freshLoop.after (thenTicks ms) ms.length).wakes with
          now := (freshLoop.after (thenTicks ms) ms.length).wakes.now + d } } := by
  induction d with
  | zero => rfl
  | succ d ih =>
      show WakeLoop.step (freshLoop.after (thenTicks ms) (ms.length + d))
        (thenTicks ms (ms.length + d)) = _
      rw [thenTicks_of_le (Nat.le_add_right ..), ih]
      rfl

theorem refusedOwner_spares (n : Nat) :
    (freshLoop.after (thenTicks refusedOwner) n).spares (thenTicks refusedOwner n) = true := by
  rcases Nat.lt_or_ge n 8 with hlt | hge
  · have hall : ∀ n < 8, (freshLoop.after (thenTicks refusedOwner) n).spares
        (thenTicks refusedOwner n) = true := by decide +kernel
    exact hall n hlt
  · rw [thenTicks_of_le hge]
    rfl

theorem refusedOwner_jobs (n : Nat) :
    (freshLoop.after (thenTicks refusedOwner) n).jobs.length ≤ 2 ∧
      (5 ≤ n → (freshLoop.after (thenTicks refusedOwner) n).jobs[1]?.all (·.joined.isSome)) ∧
      (8 ≤ n → (freshLoop.after (thenTicks refusedOwner) n).jobs.all (·.joined.isSome) ∧
        (freshLoop.after (thenTicks refusedOwner) n).stranded = []) := by
  rcases Nat.lt_or_ge n 8 with hlt | hge
  · have hall : ∀ n < 8, (freshLoop.after (thenTicks refusedOwner) n).jobs.length ≤ 2 ∧
        (5 ≤ n → (freshLoop.after (thenTicks refusedOwner) n).jobs[1]?.all (·.joined.isSome)) := by
      decide +kernel
    exact ⟨(hall n hlt).1, (hall n hlt).2, fun hge => absurd hlt (Nat.not_lt.2 hge)⟩
  · obtain ⟨d, rfl⟩ := Nat.exists_eq_add_of_le hge
    have hlast : (freshLoop.after (thenTicks refusedOwner) 8).jobs.length ≤ 2 ∧
        (freshLoop.after (thenTicks refusedOwner) 8).jobs[1]?.all (·.joined.isSome) ∧
        (freshLoop.after (thenTicks refusedOwner) 8).jobs.all (·.joined.isSome) ∧
        (freshLoop.after (thenTicks refusedOwner) 8).stranded = [] := by decide +kernel
    have hticks := freshLoop_ticks refusedOwner d
    rw [show refusedOwner.length = 8 from rfl] at hticks
    rw [hticks]
    exact ⟨hlast.1, fun _ => hlast.2.1, fun _ => hlast.2.2⟩

theorem refusedOwner_fair : Fair freshLoop (thenTicks refusedOwner) where
  join n j job hget hnone _ := by
    obtain ⟨hlength, hsecond, hlast⟩ := refusedOwner_jobs n
    have hj := (List.getElem?_eq_some_iff.1 hget).1
    have hn : n < 8 := by
      by_contra hge
      have hall := List.all_eq_true.1 (hlast (by omega)).1 job (List.mem_of_getElem? hget)
      rw [hnone] at hall
      cases hall
    match j, hj with
    | 0, _ => exact ⟨7, by omega, true, rfl⟩
    | 1, _ =>
        refine ⟨4, ?_, true, rfl⟩
        by_contra hge
        have hall := hsecond (by omega)
        rw [hget, Option.all_some, hnone] at hall
        cases hall
    | j + 2, hj => omega
  timer n t := by
    have hticks := freshLoop_ticks refusedOwner (n + t)
    rw [show refusedOwner.length = 8 from rfl] at hticks
    refine ⟨8 + (n + t), by omega, ?_, .inr ((refusedOwner_jobs _).2.2 (by omega)).2⟩
    rw [hticks]
    show t ≤ _ + (n + t)
    omega

theorem refusedOwner_ends (x : Nat) : Ends freshLoop (thenTicks refusedOwner) x := by
  intro n j job hget _
  have hticks := freshLoop_ticks refusedOwner n
  rw [show refusedOwner.length = 8 from rfl] at hticks
  have hlast : ∀ j < 2, (freshLoop.after (thenTicks refusedOwner) 8).jobs[j]?.any fun job =>
      (job.report (freshLoop.after (thenTicks refusedOwner) 8).wakes).isSome := by decide +kernel
  have hj := Nat.lt_of_lt_of_le (List.getElem?_eq_some_iff.1 hget).1 (refusedOwner_jobs n).1
  obtain ⟨job', hget', hreport⟩ := (Option.any_eq_true _ _).1 (hlast j hj)
  refine ⟨8 + n, Nat.le_add_left .., job', ?_, ?_⟩
  · rw [hticks]
    exact hget'
  · rw [hticks]
    exact hreport

/-- The follower is completed while the owner is in flight, and the owner is
heard of. -/
theorem refused_owner_is_heard_of :
    1 ∈ (freshLoop.after (thenTicks refusedOwner) 5).completed ∧
      LoopHolds (freshLoop.after (thenTicks refusedOwner) 5) ∧
      (∃ k, 5 ≤ k ∧ ∃ owner, (freshLoop.after (thenTicks refusedOwner) k).jobs[0]? = some owner ∧
        Answered (freshLoop.after (thenTicks refusedOwner) k).jobs owner) ∧
      ∃ k, 5 ≤ k ∧ (0 ∈ (freshLoop.after (thenTicks refusedOwner) k).completed ∨
        0 ∈ (freshLoop.after (thenTicks refusedOwner) k).abandoned) := by
  obtain ⟨hholds, hends⟩ := collapsed_mentions_are_not_lost 1000000 ⟨1000, 1000, 1000, []⟩ 4096
    (thenTicks refusedOwner) refusedOwner_spares
  have hwrites : ∀ n, (thenTicks refusedOwner n).writes = true := by
    intro n
    rcases Nat.lt_or_ge n 8 with hlt | hge
    · have hall : ∀ n < 8, (thenTicks refusedOwner n).writes = true := by decide +kernel
      exact hall n hlt
    · rw [thenTicks_of_le hge]
      rfl
  refine ⟨by decide +kernel, hholds 5, ?_, ?_⟩
  · exact (hends refusedOwner_fair).answered 5 1 0
      ⟨⟨"f", "aa", 1001, 1⟩, false, some 1, some 0,
        some ⟨⟨"f", "aa", 1001, 1⟩, .inFlight, false, some ⟨1000, "aa", false⟩⟩⟩
      ⟨⟨"o", "aa", 1000, 0⟩, false, some 0, none, none⟩ _ (by decide +kernel) rfl rfl rfl rfl
      (by decide +kernel) (by decide +kernel) (refusedOwner_ends 0)
  · exact (hends refusedOwner_fair).settled hwrites 5 0 (by decide +kernel) (refusedOwner_ends 0)

/-- The follower of an owner that was evicted has nothing to count on. -/
theorem evicted_owner_loses_its_follower :
    ¬∀ n, LoopHolds (freshLoop.after (thenTicks evictedOwner) n) := by
  intro hholds
  have hjobs : (freshLoop.after (thenTicks evictedOwner) 57).jobs.all fun job => !job.retried &&
      (job.event.claim != 1 || decide (job.behind = some 0) &&
        job.joined.all fun report => decide (report.outcome = .inFlight)) := by decide +kernel
  have howner : (freshLoop.after (thenTicks evictedOwner) 57).jobs[0]? =
      some ⟨⟨"o", "aa", 1000, 0⟩, false, some 0, none,
        some ⟨⟨"o", "aa", 1000, 0⟩, .deployFailed, false, none⟩⟩ := by decide +kernel
  have hgone : (freshLoop.after (thenTicks evictedOwner) 57).stranded.all
      (·.event.claim != 0) := by decide +kernel
  have hevicted : (freshLoop.after (thenTicks evictedOwner) 57).evicted.all
      (·.trigger.event.claim != 1) := by decide +kernel
  have hfirst : ∀ {k : Nat} {job : Job},
      (freshLoop.after (thenTicks evictedOwner) 57).jobs[k]? = some job →
      job.retried = false ∧ (job.event.claim = 1 → job.behind = some 0 ∧
        ∀ report, job.joined = some report → report.outcome = .inFlight) := by
    intro k job hget
    obtain ⟨hkind, hrest⟩ :=
      Bool.and_eq_true_iff.1 (List.all_eq_true.1 hjobs job (List.mem_of_getElem? hget))
    refine ⟨(Bool.not_eq_true' _).mp hkind, fun hclaim => ?_⟩
    rw [hclaim] at hrest
    obtain ⟨hbehind, hjoined⟩ := Bool.and_eq_true_iff.1 hrest
    refine ⟨of_decide_eq_true hbehind, fun report hreport => ?_⟩
    rw [hreport] at hjoined
    exact of_decide_eq_true hjoined
  cases (hholds 57).reason 1 (by decide +kernel) with
  | decided k job report hget hclaim hjoined h =>
      rw [((hfirst hget).2 hclaim).2 report hjoined] at h
      cases h
  | redriven k job hget hclaim hretried _ =>
      rw [(hfirst hget).1] at hretried
      cases hretried
  | evicted e he hclaim =>
      have hne := List.all_eq_true.1 hevicted e he
      rw [hclaim] at hne
      cases hne
  | collapsed k job report o owner hget hclaim _ _ hbehind hget' _ h =>
      rw [((hfirst hget).2 hclaim).1] at hbehind
      obtain rfl : 0 = o := Option.some.inj hbehind
      obtain rfl := Option.some.inj (howner.symm.trans hget')
      rcases h with
        (⟨rep, hrep, hdecided⟩ | ⟨i, again, hagain, -, hretried⟩) | hnone | ⟨g, hg, hzero⟩
      · obtain rfl := Option.some.inj hrep
        cases hdecided
      · rw [(hfirst hagain).1] at hretried
        cases hretried
      · cases hnone
      · have hne := List.all_eq_true.1 hgone g hg
        rw [hzero] at hne
        cases hne

end Buzz.Waker
