import Buzz.Proofs.WakeAttempt

/-!
# Wake attempts are exclusive, debounced and truthful

Only the attempt that holds the claim is ever suspended with anything left to
do, so the book is its own while it waits. The times other attempts keep clear
of are its deploys and where they failed; an idle book covers all of them, by
a stamp no earlier or, where a stamp was released, by time gone by.

A failure that settles once the attempt is cancelled moves no stamp: the
successor generation has a book of its own.
-/

namespace Buzz.Waker

open Buzz.Lib

variable {ε : Type} {c now : Nat} {b book : AttemptBook} {t : ClaimingTrigger} {held : Bool}
  {s : Scene} {a a' : Attempt ε} {w w' : Wakes ε} {i : Nat} {op : WakeOp}
  {next : op.Answer ε → WakeTask ε}

/-! ## A stretch between two awaits -/

/-- Where a stretch of an attempt ends, and the book it leaves. -/
inductive Lands (c : Nat) (b : AttemptBook) (t : ClaimingTrigger) (now : Nat) (held : Bool) :
    AttemptBook × Attempt ε → Prop
  | refused (s : Scene) (r : WakeAttemptResult ε) (hheld : held = false)
      (hholds : s.holds = false) (h : Ended c b t s r) :
      Lands c b t now held (b, ⟨t, .done r, now, false, false, s.log⟩)
  | ended (s : Scene) (r : WakeAttemptResult ε) (hnow : s.now = now)
      (hholds : s.holds = true) (h : Ended c b t s r) :
      Lands c b t now held
        ({ s.book with inFlight := none }, ⟨t, .done r, now, false, false, s.log⟩)
  | waits (s : Scene) (op : WakeOp) (next : op.Answer ε → WakeTask ε) (hnow : s.now = now)
      (hop : op.isAwait = true) (h : Keeps c b t (.call op next) s) :
      Lands c b t now held (s.book, ⟨t, .call op next, now, true, false, (s.shown op).log⟩)

theorem Lands.of_await (hop : op.isAwait = true)
    (h : Keeps c b t (.call op next) s) :
    Lands c b t s.now held
      (s.book, ⟨t, .call op next, s.now, s.holds, false, (s.shown op).log⟩) := by
  rw [(h.needs hop).1]
  exact .waits s op next rfl hop h

theorem lands_advance (task : WakeTask ε) (told : Told) (s : Scene)
    (hheld : held = true → s.holds = true) (h : Keeps c b t task s) :
    Lands c b t s.now held (advance s.now t task told s.book s.holds s.log) := by
  induction task generalizing told s with
  | done r =>
      unfold advance
      cases hholds : s.holds with
      | true => exact .ended s r rfl hholds h
      | false =>
          have hfalse : held = false := by
            cases held with
            | true => rw [hheld rfl] at hholds; cases hholds
            | false => rfl
          show Lands c b t s.now held (s.book, ⟨t, .done r, s.now, false, false, s.log⟩)
          rw [(Ended.toRest h).refused hholds |>.1]
          exact .refused s r hfalse hholds h
  | call op next ih =>
      cases op with
      | nowMs => exact ih _ _ { s with log := s.log ++ [.now s.now] } hheld (h.answer ⟨rfl, rfl⟩)
      | isCancelled =>
          exact ih _ _ { s with log := s.log ++ [.cancelled (told.cancelled.headD false)] } hheld
            (h.answer rfl)
      | heartbeat =>
          exact ih _ _ { s with log := s.log ++ [.beat (told.beats.headD none)] } hheld
            (h.answer rfl)
      | onDeployed => exact ih _ _ s hheld (h.answer rfl)
      | claim claiming nowMs aborted =>
          refine ih _ told { s with
            book := (s.book.claim claiming nowMs aborted).1
            holds := s.holds || (s.book.claim claiming nowMs aborted).2.toBool } ?_
            (h.answer ⟨rfl, rfl⟩)
          intro ht
          show (s.holds || _) = true
          rw [hheld ht, Bool.true_or]
      | stamp atMs => exact ih _ told { s with book := s.book.stamp atMs } hheld (h.answer rfl)
      | refreshStamp stampedAt settledAt =>
          exact ih _ told { s with book := s.book.refreshStamp stampedAt settledAt } hheld
            (h.answer rfl)
      | releaseStamp stampedAt =>
          exact ih _ told { s with book := s.book.releaseStamp stampedAt } hheld (h.answer rfl)
      | delay ms => exact .of_await rfl h
      | presence => exact .of_await rfl h
      | confirmAuthorNotKnownAgent => exact .of_await rfl h
      | startManagedAgent => exact .of_await rfl h

theorem shown_book (s : Scene) (op : WakeOp) : (s.shown op).book = s.book := by
  cases op <;> rfl

theorem shown_holds (s : Scene) (op : WakeOp) : (s.shown op).holds = s.holds := by
  cases op <;> rfl

theorem shown_now (s : Scene) (op : WakeOp) : (s.shown op).now = s.now := by
  cases op <;> rfl

theorem allowed_await {a : op.Answer ε} (hop : op.isAwait = true)
    (hnow : s.now + op.wait ≤ now) :
    allowed s op a { s.shown op with now := now, log := (s.shown op).log ++ heard now op a } := by
  cases op with
  | delay ms => exact ⟨now, hnow, rfl⟩
  | presence => exact ⟨now, hnow, rfl⟩
  | confirmAuthorNotKnownAgent => exact ⟨now, hnow, rfl⟩
  | startManagedAgent => exact ⟨now, hnow, rfl⟩
  | _ => cases hop

theorem lands_answer {a : op.Answer ε} (told : Told) (hop : op.isAwait = true)
    (h : Keeps c b t (.call op next) s) (hnow : s.now + op.wait ≤ now) :
    Lands c b t now true
      (advance now t (next a) told s.book true ((s.shown op).log ++ heard now op a)) := by
  have hholds := (shown_holds s op).trans (h.needs hop).1
  have hheld : true = true → (s.shown op).holds = true := fun _ => hholds
  have hland := lands_advance (next a) told
    { s.shown op with now := now, log := (s.shown op).log ++ heard now op a }
    hheld (h.answer (allowed_await hop hnow))
  dsimp only at hland
  rw [shown_book, hholds] at hland
  exact hland

/-- The attempt goes on when the reply is the one it waits for. -/
theorem lands_reply (answer : WakeReply ε) (told : Told)
    (hop : op.isAwait = true) (h : Keeps c b t (.call op next) s)
    (hnow : s.now ≤ now)
    (ha : a = ⟨t, .call op next, s.now, true, false, (s.shown op).log⟩) :
    a.reply now told s.book answer = (s.book, a) ∨
      Lands c b t now true (a.reply now told s.book answer) := by
  subst ha
  have hempty : s.log ++ [] = s.log := List.append_nil s.log
  cases answer with
  | elapsed =>
      cases op with
      | delay ms =>
          unfold Attempt.reply
          dsimp only
          split
          · next hdone =>
              have hland := lands_answer (a := ()) told rfl h hdone
              exact .inr (hempty ▸ hland)
          · exact .inl rfl
      | _ => exact .inl rfl
  | presence answer =>
      cases op with
      | presence =>
          have hland := lands_answer (a := answer) told rfl h hnow
          exact .inr (hempty ▸ hland)
      | _ => exact .inl rfl
  | author answer =>
      cases op with
      | confirmAuthorNotKnownAgent =>
          have hland := lands_answer (a := answer) told rfl h hnow
          exact .inr hland
      | _ => exact .inl rfl
  | deployed answer =>
      cases op with
      | startManagedAgent =>
          have hland := lands_answer (a := answer) told rfl h hnow
          exact .inr hland
      | _ => exact .inl rfl

/-! ## One attempt among others -/

/-- A deploy of the attempt, or where it failed, unless the attempt was
cancelled. -/
def Attempt.Marks (a : Attempt ε) (m : Nat) : Prop :=
  m ∈ starts a.log ∨ (.settled m false ∈ a.log ∧ .cancelled true ∉ a.log)

/-- The book keeps the next attempt a debounce away from this time. -/
def Covered (book : AttemptBook) (now m : Nat) : Prop :=
  (∃ t, book.lastAttemptAt = some t ∧ m ≤ t) ∨
    (book.lastAttemptAt = none ∧ m + wakeAttemptDebounceMs ≤ now)

theorem Covered.later {later m : Nat} (h : Covered book now m) (hlater : now ≤ later) :
    Covered book later m :=
  h.imp_right fun hnone => ⟨hnone.1, Nat.le_trans hnone.2 hlater⟩

theorem Covered.past {m : Nat} (h : Covered b c m) (hclaim : Claimable c b) :
    m + wakeAttemptDebounceMs ≤ c := by
  rcases h with ⟨t, ht, hm⟩ | ⟨-, hm⟩
  · exact Nat.le_trans (Nat.add_le_add_right hm _) (hclaim.cool t ht)
  · exact hm

/-- What an attempt does to the book while it has the claim: its own times are
covered at the end, and so is what the book it found covered. -/
structure Clear (c : Nat) (b book : AttemptBook) (now : Nat) (a : Attempt ε) : Prop where
  claim : Claimable c b
  since : ∀ m, a.Marks m → c ≤ m
  own : ∀ m, a.Marks m → Covered book now m
  others : ∀ m, Covered b c m → Covered book now m

theorem Rest.clear (h : Rest c b t s) (hholds : s.holds = true) (hlog : a.log = s.log)
    (hlast : book.lastAttemptAt = s.book.lastAttemptAt) (hnow : s.now ≤ now) :
    Clear c b book now a := by
  obtain ⟨hclaim, -⟩ := h.claimed hholds
  have hsince : ∀ m ∈ starts s.log, c ≤ m ∧ Covered book now m := by
    intro m hm
    rcases h.stamp hholds with ⟨hnone, -⟩ | ⟨u, hu⟩
    · rw [hnone] at hm
      cases hm
    · rw [hu.one, List.mem_singleton] at hm
      subst hm
      refine ⟨hu.since, ?_⟩
      rw [Covered, hlast]
      exact hu.covers.imp_right fun hgone => ⟨hgone.1, Nat.le_trans hgone.2 hnow⟩
  have hmarks : ∀ m, a.Marks m → c ≤ m ∧ Covered book now m := by
    intro m hm
    rw [Attempt.Marks, hlog] at hm
    rcases hm with hstart | ⟨hfail, hquiet⟩
    · exact hsince m hstart
    · obtain ⟨hc, t, ht, hle⟩ := h.reported m hfail hquiet
      exact ⟨hc, .inl ⟨t, hlast.trans ht, hle⟩⟩
  refine ⟨hclaim, fun m hm => (hmarks m hm).1, fun m hm => (hmarks m hm).2, fun m hm => ?_⟩
  · have hpast := hm.past hclaim
    have hsame := h.since
    rw [Covered, hlast]
    rcases h.stamp hholds with ⟨-, hkept⟩ | ⟨u, hu⟩
    · rw [hkept]
      exact hm.later (Nat.le_trans h.since hnow)
    · have hu' := hu.since
      rcases hu.covers with ⟨t, ht, hle⟩ | ⟨hgone, -⟩
      · exact .inl ⟨t, ht, by omega⟩
      · exact .inr ⟨hgone, by omega⟩

theorem Ended.clear {r : WakeAttemptResult ε} (h : Ended c b t s r) (hholds : s.holds = true)
    (hnow : s.now = now) :
    Clear c b { s.book with inFlight := none } now
      (⟨t, .done r, now, false, false, s.log⟩ : Attempt ε) :=
  h.toRest.clear hholds rfl rfl (Nat.le_of_eq hnow)

/-- A waiting attempt, also when it is dropped there. -/
theorem clear_of_await (hop : op.isAwait = true)
    (h : Keeps c b t (.call op next) s) (hlog : a.log = (s.shown op).log)
    (hlast : book.lastAttemptAt = s.book.lastAttemptAt) (hnow : s.now ≤ now) :
    Clear c b book now a := by
  obtain ⟨hholds, hrest⟩ := h.needs hop
  refine hrest.clear ((shown_holds s op).trans hholds) hlog ?_ ?_
  · rw [shown_book, hlast]
  · rw [shown_now]
    exact hnow

/-- What an attempt's own record says of it. -/
structure Truthful (a : Attempt ε) : Prop where
  isOver_eq : a.isOver = !a.holds
  one : (starts a.log).length ≤ 1
  authorised : Authorised a.log
  live : ∀ r, a.task = .done r → r.outcome = .alreadyLive →
    ∃ c, a.log.head? = some (.now c) ∧ Proven c a.log
  woken : ∀ r, a.task = .done r → r.outcome = .woken → Converged a.log

theorem Rest.one (h : Rest c b t s) : (starts s.log).length ≤ 1 := by
  cases hholds : s.holds with
  | false =>
      rw [(h.refused hholds).2.1]
      exact Nat.zero_le 1
  | true =>
      rcases h.stamp hholds with ⟨hnone, -⟩ | ⟨u, hu⟩
      · rw [hnone]
        exact Nat.zero_le 1
      · rw [hu.one]
        exact Nat.le_refl 1

theorem Ended.truthful {r : WakeAttemptResult ε} (h : Ended c b t s r) :
    Truthful (⟨t, .done r, now, false, false, s.log⟩ : Attempt ε) where
  isOver_eq := rfl
  one := h.toRest.one
  authorised := h.authorised
  live r' hr' hout := by
    obtain rfl : r = r' := Async.done.inj hr'
    exact ⟨c, h.first, h.live hout⟩
  woken r' hr' hout := by
    obtain rfl : r = r' := Async.done.inj hr'
    exact h.woken hout

theorem truthful_of_await (hop : op.isAwait = true)
    (h : Keeps c b t (.call op next) s) (htask : a.task = .call op next)
    (hlog : a.log = (s.shown op).log) (hover : a.dropped = !a.holds) :
    Truthful a where
  isOver_eq := by
    unfold Attempt.isOver
    rw [htask]
    exact hover
  one := hlog ▸ (h.needs hop).2.one
  authorised := hlog ▸ (h.needs hop).2.authorised
  live r hr := by
    rw [htask] at hr
    cases hr
  woken r hr := by
    rw [htask] at hr
    cases hr

/-! ## All of them -/

/-- Attempts other than this one: none has the claim, and the book this one
found covers their times. -/
def Others (w : Wakes ε) (i c : Nat) (b : AttemptBook) : Prop :=
  ∀ j a, j ≠ i → w.attempts[j]? = some a → a.holds = false ∧ ∀ m, a.Marks m → Covered b c m

/-- The attempt that has the claim. The book is as it left it. -/
inductive Holder (w : Wakes ε) (i : Nat) : Attempt ε → Prop
  | intro (c : Nat) (b : AttemptBook) (t : ClaimingTrigger) (s : Scene) (op : WakeOp)
      (next : op.Answer ε → WakeTask ε) (hop : op.isAwait = true)
      (hkeeps : Keeps c b t (.call op next) s) (hnow : s.now ≤ w.now)
      (hbook : w.book = s.book) (hothers : Others w i c b) :
      Holder w i ⟨t, .call op next, s.now, true, false, (s.shown op).log⟩

structure Paced (w : Wakes ε) : Prop where
  truthful : ∀ a ∈ w.attempts, Truthful a
  apart : ∀ (i j : Nat) (a a' : Attempt ε) (m u : Nat), i ≠ j → w.attempts[i]? = some a →
    w.attempts[j]? = some a' → a.Marks m → u ∈ starts a'.log →
    m + wakeAttemptDebounceMs ≤ u ∨ u + wakeAttemptDebounceMs ≤ m
  idle : w.book.inFlight = none →
    ∀ a ∈ w.attempts, a.holds = false ∧ ∀ m, a.Marks m → Covered w.book w.now m
  owned : w.book.inFlight.isSome = true → ∃ i a, w.attempts[i]? = some a ∧ Holder w i a

/-- One attempt moved, or joined. -/
structure Moved (w w' : Wakes ε) (i : Nat) (a : Attempt ε) : Prop where
  now : w'.now = w.now
  self : w'.attempts[i]? = some a
  other : ∀ j, j ≠ i → w'.attempts[j]? = w.attempts[j]?

theorem Moved.cases (hm : Moved w w' i a') {j : Nat} (h : w'.attempts[j]? = some a) :
    (j = i ∧ a = a') ∨ (j ≠ i ∧ w.attempts[j]? = some a) := by
  rcases Nat.decEq j i with hne | rfl
  · exact .inr ⟨hne, hm.other j hne ▸ h⟩
  · rw [hm.self] at h
    exact .inl ⟨rfl, (Option.some.inj h).symm⟩

theorem Moved.forall_mem (hm : Moved w w' i a') {P : Attempt ε → Prop} (hself : P a')
    (hother : ∀ j a, j ≠ i → w.attempts[j]? = some a → P a) : ∀ a ∈ w'.attempts, P a := by
  intro a ha
  obtain ⟨j, hj⟩ := List.mem_iff_getElem?.1 ha
  rcases hm.cases hj with ⟨-, rfl⟩ | ⟨hne, hget⟩
  · exact hself
  · exact hother j a hne hget

section

variable (h : Paced w)
include h

/-- The attempt that had the claim is a debounce away from the others. -/
theorem Paced.apart_of_clear (hm : Moved w w' i a')
    (hclear : Clear c b book now a') (hothers : Others w i c b) (j k : Nat)
    (x y : Attempt ε) (m u : Nat) (hne : j ≠ k) (hx : w'.attempts[j]? = some x)
    (hy : w'.attempts[k]? = some y) (hmark : x.Marks m)
    (hstart : u ∈ starts y.log) :
    m + wakeAttemptDebounceMs ≤ u ∨ u + wakeAttemptDebounceMs ≤ m := by
  rcases hm.cases hx with ⟨rfl, rfl⟩ | ⟨hji, hx⟩
  · rcases hm.cases hy with ⟨rfl, -⟩ | ⟨hki, hy⟩
    · exact absurd rfl hne
    · have hcovered := (hothers k y hki hy).2 u (.inl hstart)
      exact .inr (Nat.le_trans (hcovered.past hclear.claim) (hclear.since m hmark))
  · rcases hm.cases hy with ⟨rfl, rfl⟩ | ⟨hki, hy⟩
    · have hcovered := (hothers j x hji hx).2 m hmark
      exact .inl (Nat.le_trans (hcovered.past hclear.claim) (hclear.since u (.inl hstart)))
    · exact h.apart j k x y m u hne hx hy hmark hstart

/-- The claim is given back. -/
theorem Paced.release (hm : Moved w w' i a')
    (hclear : Clear c b w'.book w.now a') (hothers : Others w i c b)
    (hfree : w'.book.inFlight = none) (htruthful : Truthful a')
    (hholds : a'.holds = false) : Paced w' where
  truthful := hm.forall_mem htruthful fun j a _ hget =>
    h.truthful a (List.mem_of_getElem? hget)
  apart := h.apart_of_clear hm hclear hothers
  idle _ := by
    rw [hm.now]
    refine hm.forall_mem ⟨hholds, hclear.own⟩ fun j a hne hget => ?_
    exact (hothers j a hne hget).imp_right fun hcovered m hmark =>
      hclear.others m (hcovered m hmark)
  owned hsome := by
    rw [hfree] at hsome
    cases hsome

/-- The attempt waits with the claim. -/
theorem Paced.hold (hm : Moved w w' i a') (hothers : Others w i c b)
    (hop : op.isAwait = true) (hkeeps : Keeps c b t (.call op next) s)
    (hnow : s.now ≤ w.now) (hbook : w'.book = s.book)
    (ha' : a' = ⟨t, .call op next, s.now, true, false, (s.shown op).log⟩) :
    Paced w' := by
  subst ha'
  have hclear : Clear c b s.book w.now
      (⟨t, .call op next, s.now, true, false, (s.shown op).log⟩ : Attempt ε) :=
    clear_of_await hop hkeeps rfl rfl hnow
  obtain ⟨hholds, hrest⟩ := hkeeps.needs hop
  refine ⟨?_, h.apart_of_clear hm hclear hothers, fun hfree => ?_, fun _ => ?_⟩
  · refine hm.forall_mem (truthful_of_await hop hkeeps rfl rfl rfl) fun j a _ hget => ?_
    exact h.truthful a (List.mem_of_getElem? hget)
  · have howned := (hrest.claimed ((shown_holds s op).trans hholds)).2
    rw [shown_book, ← hbook, hfree] at howned
    cases howned
  · refine ⟨i, _, hm.self, .intro c b t s op next hop hkeeps (hm.now ▸ hnow) hbook ?_⟩
    intro j a hne hget
    exact hothers j a hne (hm.other j hne ▸ hget)

/-- A refused attempt joins. -/
theorem Paced.join (hm : Moved w w' i a') (hnew : w.attempts[i]? = none)
    (hbook : w'.book = w.book) (htruthful : Truthful a')
    (hholds : a'.holds = false) (hmarks : ∀ m, ¬ a'.Marks m) : Paced w' where
  truthful := hm.forall_mem htruthful fun j a _ hget =>
    h.truthful a (List.mem_of_getElem? hget)
  apart j k x y m u hne hx hy hmark hstart := by
    rcases hm.cases hx with ⟨-, rfl⟩ | ⟨-, hx⟩
    · exact absurd hmark (hmarks m)
    · rcases hm.cases hy with ⟨-, rfl⟩ | ⟨-, hy⟩
      · exact absurd (.inl hstart) (hmarks u)
      · exact h.apart j k x y m u hne hx hy hmark hstart
  idle hfree := by
    rw [hbook, hm.now]
    refine hm.forall_mem ⟨hholds, fun m hmark => absurd hmark (hmarks m)⟩ fun j a _ hget => ?_
    exact h.idle (hbook ▸ hfree) a (List.mem_of_getElem? hget)
  owned hsome := by
    obtain ⟨k, a, hget, hholder⟩ := h.owned (hbook ▸ hsome)
    have hki : k ≠ i := by
      rintro rfl
      rw [hnew] at hget
      cases hget
    refine ⟨k, a, hm.other k hki ▸ hget, ?_⟩
    obtain ⟨c, b, t, s, op, next, hop, hkeeps, hnow, hbook', hothers⟩ := hholder
    refine .intro c b t s op next hop hkeeps (hm.now ▸ hnow) (hbook ▸ hbook') fun j x hne hx => ?_
    rcases hm.cases hx with ⟨-, rfl⟩ | ⟨-, hx⟩
    · exact ⟨hholds, fun m hmark => absurd hmark (hmarks m)⟩
    · exact hothers j x hne hx

/-! ## The moves -/

theorem Paced.tick (ms : Nat) : Paced { w with now := w.now + ms } where
  truthful := h.truthful
  apart := h.apart
  idle hfree a ha := (h.idle hfree a ha).imp_right fun hcovered m hmark =>
    (hcovered m hmark).later (Nat.le_add_right w.now ms)
  owned hsome := by
    obtain ⟨i, a, hget, c, b, t, s, op, next, hop, hkeeps, hnow, hbook, hothers⟩ := h.owned hsome
    exact ⟨i, _, hget, .intro c b t s op next hop hkeeps (Nat.le_add_right_of_le hnow) hbook
      hothers⟩

omit h in
theorem moved_snoc (w : Wakes ε) (book : AttemptBook) (a : Attempt ε) :
    Moved w { w with book := book, attempts := w.attempts ++ [a] } w.attempts.length a where
  now := rfl
  self := List.getElem?_concat_length
  other j hne := by
    rcases Nat.lt_or_gt_of_ne hne with hlt | hgt
    · exact List.getElem?_append_left hlt
    · rw [List.getElem?_eq_none (by rw [List.length_append]; exact hgt),
        List.getElem?_eq_none (Nat.le_of_lt hgt)]

omit h in
theorem moved_set (book : AttemptBook) (h : w.attempts[i]? = some a) (a' : Attempt ε) :
    Moved w { w with book := book, attempts := w.attempts.set i a' } i a' where
  now := rfl
  self := by
    rw [List.getElem?_set_self (List.getElem?_eq_some_iff.1 h).1]
  other j hne := List.getElem?_set_ne hne.symm

theorem Paced.call (trigger : ClaimingTrigger) (told : Told) :
    Paced (w.call trigger told) := by
  have hland : Lands w.now w.book trigger w.now false
      (advance w.now trigger (runWakeAttempt trigger : WakeTask ε) told w.book false []) :=
    lands_advance (runWakeAttempt trigger) told ⟨w.now, w.book, false, []⟩ nofun
      (keeps_runWakeAttempt trigger w.now w.book)
  have hothers : Claimable w.now w.book → Others w w.attempts.length w.now w.book :=
    fun hclaim j a _ hget => h.idle hclaim.free a (List.mem_of_getElem? hget)
  unfold Wakes.call
  dsimp only
  generalize advance w.now trigger (runWakeAttempt trigger) told w.book false [] = ran at hland ⊢
  have hm := moved_snoc w ran.1 ran.2
  cases hland with
  | refused s r _ hholds hended =>
      refine h.join hm (List.getElem?_eq_none (Nat.le_refl _)) rfl hended.truthful rfl ?_
      obtain ⟨-, hnone, hunsettled⟩ := hended.refused hholds
      rintro m (hstart | ⟨hfail, -⟩)
      · have hstart' : m ∈ starts s.log := hstart
        rw [hnone] at hstart'
        cases hstart'
      · exact hunsettled m hfail
  | ended s r hnow hholds hended =>
      have hclear := hended.clear hholds hnow
      exact h.release hm hclear (hothers hclear.claim) rfl hended.truthful rfl
  | waits s op next hnow hop hkeeps =>
      obtain ⟨hholds, hrest⟩ := hkeeps.needs hop
      have hclaim := (hrest.claimed ((shown_holds s op).trans hholds)).1
      exact h.hold hm (hothers hclaim) hop hkeeps (Nat.le_of_eq hnow) rfl (by rw [hnow])

/-- Only the holder of the claim has anything left to do. -/
theorem Paced.holder (hget : w.attempts[i]? = some a) (hover : a.isOver = false) :
    Holder w i a := by
  have htruthful := h.truthful a (List.mem_of_getElem? hget)
  have hholds : a.holds = true := by
    rw [htruthful.isOver_eq, Bool.not_eq_false'] at hover
    exact hover
  cases hflight : w.book.inFlight with
  | none =>
      rw [(h.idle hflight a (List.mem_of_getElem? hget)).1] at hholds
      cases hholds
  | some owner =>
      obtain ⟨k, x, hx, hholder⟩ := h.owned (by rw [hflight]; rfl)
      rcases Nat.decEq i k with hne | rfl
      · cases hholder with
        | intro c b t s op next _ _ _ _ hothers =>
            rw [(hothers i a hne hget).1] at hholds
            cases hholds
      · rw [hget] at hx
        exact Option.some.inj hx ▸ hholder

omit h in
theorem set_eq_self (h : w.attempts[i]? = some a) : w.attempts.set i a = w.attempts := by
  obtain ⟨hlt, rfl⟩ := List.getElem?_eq_some_iff.1 h
  exact List.set_getElem_self hlt

theorem Paced.reply (i : Nat) (answer : WakeReply ε) (told : Told) :
    Paced (w.reply i answer told) := by
  unfold Wakes.reply
  split
  · exact h
  · next a hget =>
      split
      · exact h
      · next hover =>
          cases h.holder hget (Bool.eq_false_iff.2 hover) with
          | intro c b t s op next hop hkeeps hnow hbook hothers =>
              have hland := lands_reply answer told hop hkeeps hnow rfl
              dsimp only
              rw [hbook]
              rcases hland with hsame | hland
              · rw [hsame, ← hbook, set_eq_self hget]
                exact h
              · generalize Attempt.reply _ w.now told s.book answer = ran at hland ⊢
                have hm := moved_set ran.1 hget ran.2
                cases hland with
                | refused s' r hheld => cases hheld
                | ended s' r hnow' hholds hended =>
                    have hclear := hended.clear hholds hnow'
                    exact h.release hm hclear hothers rfl hended.truthful rfl
                | waits s' op' next' hnow' hop' hkeeps' =>
                    exact h.hold hm hothers hop' hkeeps' (Nat.le_of_eq hnow') rfl (by rw [hnow'])

theorem Paced.drop (i : Nat) : Paced (w.drop i) := by
  unfold Wakes.drop
  split
  · exact h
  · next a hget =>
      split
      · exact h
      · next hover =>
          cases h.holder hget (Bool.eq_false_iff.2 hover) with
          | intro c b t s op next hop hkeeps hnow hbook hothers =>
              refine h.release (moved_set _ hget _) ?_ hothers rfl ?_ rfl
              · refine clear_of_await hop hkeeps rfl ?_ hnow
                rw [← hbook]
                rfl
              · exact truthful_of_await hop hkeeps rfl rfl rfl

theorem Paced.step (move : WakeMove ε) : Paced (w.step move) := by
  cases move with
  | tick ms => exact h.tick ms
  | call trigger told => exact h.call trigger told
  | reply i answer told => exact h.reply i answer told
  | drop i => exact h.drop i

omit h in
theorem paced_run (now : Nat) (ms : List (WakeMove ε)) : Paced ((wakes ε now).run ms) := by
  refine Machine.stable_runFrom _ (fun w move h => h.step move) ?_ ms
  exact ⟨nofun, nofun, nofun, nofun⟩

/-! ## The results -/

/-- A deploy that starts no sooner than another one failed starts a debounce
after it, where the failed attempts are like this. -/
def CoolsAfter (w : Wakes ε) (failed : Attempt ε → Prop) : Prop :=
  ∀ (i j : Nat) (a a' : Attempt ε) (f u : Nat), i ≠ j → w.attempts[i]? = some a →
    w.attempts[j]? = some a' → failed a → .settled f false ∈ a.log → .started u ∈ a'.log →
    f ≤ u → f + wakeAttemptDebounceMs ≤ u

/-- Two beats with different ids were delivered since `c`, this gap apart. -/
def BeatsApart (c gap : Nat) (log : List WakeEntry) : Prop :=
  ∃ b b' : HeartbeatObservation, .beat (some b) ∈ log ∧ .beat (some b') ∈ log ∧
    b.eventId ≠ b'.eventId ∧ c ≤ b.observedAtMs ∧ c ≤ b'.observedAtMs ∧
    b.observedAtMs + gap ≤ b'.observedAtMs

/-- One attempt at a time is in flight and none starts the agent twice; starts
are apart, and an attempt starts it only where it is authorised. -/
structure AttemptsHold (w : Wakes ε) : Prop where
  exclusive : ∀ (i j : Nat) (a a' : Attempt ε), w.attempts[i]? = some a →
    w.attempts[j]? = some a' → a.holds = true → a'.holds = true → i = j
  held : w.book.inFlight.isSome = true ↔ ∃ a ∈ w.attempts, a.holds = true
  released : ∀ a ∈ w.attempts, a.isOver = true → a.holds = false
  started_once : ∀ a ∈ w.attempts, (starts a.log).length ≤ 1
  starts_apart : ∀ (i j : Nat) (a a' : Attempt ε) (u v : Nat), i ≠ j →
    w.attempts[i]? = some a → w.attempts[j]? = some a' → .started u ∈ a.log →
    .started v ∈ a'.log → u + wakeAttemptDebounceMs ≤ v ∨ v + wakeAttemptDebounceMs ≤ u
  cools : CoolsAfter w fun a => .cancelled true ∉ a.log
  authorised : ∀ a ∈ w.attempts, Authorised a.log
  live : ∀ a ∈ w.attempts, ∀ r, a.task = .done r → r.outcome = .alreadyLive →
    ∃ c, a.log.head? = some (.now c) ∧ Proven c a.log
  woken : ∀ a ∈ w.attempts, ∀ r, a.task = .done r → r.outcome = .woken → Converged a.log

theorem Paced.eq_of_holds {j : Nat} (hi : w.attempts[i]? = some a)
    (hj : w.attempts[j]? = some a') (hholds : a.holds = true)
    (hholds' : a'.holds = true) :
    i = j := by
  have hover := (h.truthful a (List.mem_of_getElem? hi)).isOver_eq
  rw [hholds] at hover
  cases h.holder hi hover with
  | intro c b t s op next _ _ _ _ hothers =>
      rcases Nat.decEq j i with hne | heq
      · rw [(hothers j a' hne hj).1] at hholds'
        cases hholds'
      · exact heq.symm

theorem Paced.inFlight_iff :
    w.book.inFlight.isSome = true ↔ ∃ a ∈ w.attempts, a.holds = true := by
  constructor
  · intro hsome
    obtain ⟨i, a, hget, hholder⟩ := h.owned hsome
    refine ⟨a, List.mem_of_getElem? hget, ?_⟩
    cases hholder
    rfl
  · rintro ⟨a, ha, hholds⟩
    cases hflight : w.book.inFlight with
    | some owner => rfl
    | none =>
        rw [(h.idle hflight a ha).1] at hholds
        cases hholds

end

theorem attempts_hold (now : Nat) (ms : List (WakeMove ε)) :
    AttemptsHold ((wakes ε now).run ms) := by
  have h := paced_run now ms
  have hpositive : 0 < wakeAttemptDebounceMs := by decide
  exact {
    exclusive := fun i j a a' hi hj => h.eq_of_holds hi hj
    held := h.inFlight_iff
    released := fun a ha hover => by
      rw [(h.truthful a ha).isOver_eq, Bool.not_eq_true'] at hover
      exact hover
    started_once := fun a ha => (h.truthful a ha).one
    starts_apart := fun i j a a' u v hne hi hj hu hv =>
      h.apart i j a a' u v hne hi hj (.inl (mem_starts.2 hu)) (mem_starts.2 hv)
    cools := fun i j a a' f u hne hi hj hquiet hfail hstart hle => by
      rcases h.apart i j a a' f u hne hi hj (.inr ⟨hfail, hquiet⟩) (mem_starts.2 hstart) with
        hafter | hbefore
      · exact hafter
      · omega
    authorised := fun a ha => (h.truthful a ha).authorised
    live := fun a ha => (h.truthful a ha).live
    woken := fun a ha => (h.truthful a ha).woken }

/-- A mention of the agent. -/
def mention : ClaimingTrigger := ⟨1700000000, "f1", false⟩

/-- A deploy fails after ten minutes, its generation cancelled meanwhile; the
next attempt deploys at once. -/
def cancelledFailure : List (WakeMove Unit) :=
  [.call mention {}, .reply 0 (.presence (.error ())) {}, .reply 0 (.author (.ok true)) {},
    .tick 600000, .reply 0 (.deployed (.error ())) { cancelled := [true] },
    .call mention {}, .reply 1 (.presence (.error ())) {}, .reply 1 (.author (.ok true)) {}]

/-- Two beats in the last ten seconds the clock can show: the sum that spaces
them stays at its end. -/
def lastSeconds : List (WakeMove Unit) :=
  [.call mention {},
    .reply 0 (.presence (.ok (some .online))) { beats := [none, some ⟨"a1", 2 ^ 64 - 10001⟩] },
    .tick 10000, .reply 0 .elapsed { beats := [some ⟨"a2", 2 ^ 64 - 1⟩] }]

theorem cancelled_failure_is_not_cooled :
    ¬ CoolsAfter ((wakes Unit 0).run cancelledFailure) (fun _ => True) ∧
    ∃ a r, ((wakes Unit (2 ^ 64 - 10001)).run lastSeconds).attempts = [a] ∧ a.task = .done r ∧
      r.outcome = .alreadyLive ∧
      ¬ BeatsApart (2 ^ 64 - 10001) wakeEvidenceMinSpacingMs a.log := by
  constructor
  · intro h
    have hcools := h 0 1 _ _ 600000 600000 (by decide) rfl rfl trivial (by decide) (by decide)
      (Nat.le_refl _)
    exact absurd hcools (by decide)
  · refine ⟨_, _, rfl, rfl, rfl, ?_⟩
    rintro ⟨b, b', hb, hb', -, -, -, hgap⟩
    have hlog : ∀ o, WakeEntry.beat (some o) ∈ [WakeEntry.now (2 ^ 64 - 10001), .cancelled false,
        .cancelled false, .beat none, .beat (some ⟨"a1", 2 ^ 64 - 10001⟩), .cancelled false,
        .beat (some ⟨"a2", 2 ^ 64 - 1⟩)] →
        2 ^ 64 - 10001 ≤ o.observedAtMs ∧ o.observedAtMs ≤ 2 ^ 64 - 1 := by
      intro o ho
      simp only [List.mem_cons, reduceCtorEq, WakeEntry.beat.injEq, Option.some.injEq,
        List.not_mem_nil, or_false, false_or] at ho
      rcases ho with rfl | rfl <;> decide
    have hfirst := (hlog b hb).1
    have hsecond := (hlog b' hb').2
    unfold wakeEvidenceMinSpacingMs at hgap
    omega

end Buzz.Waker
