import Buzz.Waker.Attempt

/-!
# One wake attempt

Everything an attempt does while it has the claim is a matter of the book it
found, the time it claimed at and what it was told since. `Rest` is what that
comes to wherever the attempt stops: at an await, where its future may be
dropped, or at its end. The attempt is run through once, call by call, and
whoever plays the other attempts and the clock never looks at its text again.
-/

namespace Buzz.Waker

open Buzz.Lib Async

variable {ε : Type}

/-! ## What an attempt sees -/

/-- The clock, the book and the log, as an attempt runs. -/
structure Scene where
  now : Nat
  book : AttemptBook
  holds : Bool
  log : List WakeEntry

def WakeOp.isAwait : WakeOp → Bool
  | .delay _ | .presence | .confirmAuthorNotKnownAgent | .startManagedAgent => true
  | _ => false

/-- How long the call takes at least. -/
def WakeOp.wait : WakeOp → Nat
  | .delay ms => ms
  | _ => 0

/-- The scene while the call waits: a deploy is entered as it starts. -/
def Scene.shown (s : Scene) : WakeOp → Scene
  | .startManagedAgent => { s with log := s.log ++ [.started s.now] }
  | _ => s

/-- What the log gains from an answer that was awaited. -/
def heard (later : Nat) : (op : WakeOp) → op.Answer ε → List WakeEntry
  | .confirmAuthorNotKnownAgent, answer => [.author answer.toOption]
  | .startManagedAgent, answer => [.settled later answer.toBool]
  | _, _ => []

/-- The answers there are. The book is the attempt's alone while it has the
claim, so nothing else changes it across an await. -/
def allowed (s : Scene) : (op : WakeOp) → op.Answer ε → Scene → Prop
  | .nowMs, a, s' => a = s.now ∧ s' = { s with log := s.log ++ [.now s.now] }
  | .isCancelled, fired, s' => s' = { s with log := s.log ++ [.cancelled fired] }
  | .heartbeat, beat, s' => s' = { s with log := s.log ++ [.beat beat] }
  | .onDeployed, _, s' => s' = s
  | .claim trigger nowMs aborted, a, s' =>
      a = (s.book.claim trigger nowMs aborted).2 ∧
        s' = { s with
          book := (s.book.claim trigger nowMs aborted).1
          holds := s.holds || (s.book.claim trigger nowMs aborted).2.toBool }
  | .stamp atMs, _, s' => s' = { s with book := s.book.stamp atMs }
  | .refreshStamp stampedAt settledAt, _, s' =>
      s' = { s with book := s.book.refreshStamp stampedAt settledAt }
  | .releaseStamp stampedAt, _, s' => s' = { s with book := s.book.releaseStamp stampedAt }
  | op, a, s' => ∃ later, s.now + op.wait ≤ later ∧
      s' = { s.shown op with now := later, log := (s.shown op).log ++ heard later op a }

/-! ## What an attempt promises -/

/-- When the log has a deploy start. -/
def starts (log : List WakeEntry) : List Nat :=
  log.filterMap fun
    | .started ms => some ms
    | _ => none

/-- Every deploy in the log comes after the author was confirmed and before any
cancellation was seen. -/
def Authorised (log : List WakeEntry) : Prop :=
  ∀ before u after, log = before ++ .started u :: after →
    .author (some true) ∈ before ∧ .cancelled true ∉ before

/-- Two beats of the log prove a live process since `c`. -/
def Proven (c : Nat) (log : List WakeEntry) : Prop :=
  ∃ b b' : HeartbeatObservation, .beat (some b) ∈ log ∧ .beat (some b') ∈ log ∧
    b.eventId ≠ b'.eventId ∧ c ≤ b.observedAtMs ∧ c ≤ b'.observedAtMs ∧
    saturatingAdd b.observedAtMs wakeEvidenceMinSpacingMs ≤ b'.observedAtMs

/-- A beat of the log was delivered once the deploy was over. -/
def Converged (log : List WakeEntry) : Prop :=
  ∃ f b, .settled f true ∈ log ∧ .beat (some b) ∈ log ∧ f ≤ b.observedAtMs

/-- The stamp still keeps other attempts off what this one started. -/
structure Stamped (c : Nat) (s : Scene) (u : Nat) : Prop where
  one : starts s.log = [u]
  since : c ≤ u
  covers : (∃ t, s.book.lastAttemptAt = some t ∧ u ≤ t) ∨
    (s.book.lastAttemptAt = none ∧ u + wakeAttemptDebounceMs ≤ s.now)

/-- What was free and cool in the book when the claim was taken. -/
structure Claimable (c : Nat) (b : AttemptBook) : Prop where
  free : b.inFlight = none
  cool : ∀ t, b.lastAttemptAt = some t → t + wakeAttemptDebounceMs ≤ c

/-- The stamp keeps other attempts off a deploy that failed, unless the attempt
was cancelled by then. -/
def Reported (c : Nat) (s : Scene) : Prop :=
  ∀ f, .settled f false ∈ s.log → .cancelled true ∉ s.log →
    c ≤ f ∧ ∃ t, s.book.lastAttemptAt = some t ∧ f ≤ t

/-- An attempt that read the clock at `c` and found the book `b`, wherever it
stops. -/
structure Rest (c : Nat) (b : AttemptBook) (t : ClaimingTrigger) (s : Scene) : Prop where
  first : s.log.head? = some (.now c)
  since : c ≤ s.now
  authorised : Authorised s.log
  reported : Reported c s
  refused : s.holds = false → s.book = b ∧ starts s.log = [] ∧ ∀ f, .settled f false ∉ s.log
  claimed : s.holds = true → Claimable c b ∧ s.book.inFlight = some t
  stamp : s.holds = true →
    (starts s.log = [] ∧ s.book.lastAttemptAt = b.lastAttemptAt) ∨ ∃ u, Stamped c s u

structure Ended (c : Nat) (b : AttemptBook) (t : ClaimingTrigger) (s : Scene)
    (r : WakeAttemptResult ε) : Prop extends Rest c b t s where
  live : r.outcome = .alreadyLive → Proven c s.log
  woken : r.outcome = .woken → Converged s.log
  collapsed : r.outcome = .inFlight →
    s.holds = false ∧ r.inFlightOwner = b.inFlight ∧ b.inFlight.isSome = true
  cancelled : r.outcome = .cancelled → .cancelled true ∈ s.log

/-- An attempt waits only with the claim, and where it may stop. -/
def wakeSpec (ε : Type) (c : Nat) (b : AttemptBook) (t : ClaimingTrigger) :
    Spec (WakeOp.Answer ε) Scene where
  needs s op := op.isAwait = true → s.holds = true ∧ Rest c b t (s.shown op)
  allows := allowed

/-- The attempt keeps its promises from here on. -/
abbrev Keeps (c : Nat) (b : AttemptBook) (t : ClaimingTrigger) (task : WakeTask ε)
    (s : Scene) : Prop :=
  wp (wakeSpec ε c b t) (Ended c b t) task s

variable {c : Nat} {b : AttemptBook} {t : ClaimingTrigger} {s s' : Scene} {r : WakeAttemptResult ε}
  {e : WakeEntry} {reconcile : Bool}

/-! ## The log -/

theorem starts_append (log log' : List WakeEntry) :
    starts (log ++ log') = starts log ++ starts log' :=
  List.filterMap_append

theorem mem_starts {log : List WakeEntry} {u : Nat} : u ∈ starts log ↔ .started u ∈ log := by
  unfold starts
  rw [List.mem_filterMap]
  constructor
  · rintro ⟨e, he, hu⟩
    cases e with
    | started ms => exact Option.some.inj hu ▸ he
    | now _ => cases hu
    | cancelled _ => cases hu
    | beat _ => cases hu
    | author _ => cases hu
    | settled _ _ => cases hu
  · intro h
    exact ⟨.started u, h, rfl⟩

theorem authorised_of_starts_eq_nil {log : List WakeEntry} (h : starts log = []) :
    Authorised log := by
  rintro before u after rfl
  have hmem : u ∈ starts (before ++ .started u :: after) := mem_starts.2 (by simp)
  rw [h] at hmem
  cases hmem

/-- A log stays authorised by its next entry when that is no deploy, or one the
log allows. -/
theorem Authorised.append {log : List WakeEntry} (h : Authorised log)
    (he : ∀ u, e = .started u → .author (some true) ∈ log ∧ .cancelled true ∉ log) :
    Authorised (log ++ [e]) := by
  intro before u after heq
  rcases List.eq_nil_or_concat after with rfl | ⟨after, last, rfl⟩
  · obtain ⟨rfl, hlast⟩ := List.append_inj' heq rfl
    exact he u (List.cons.inj hlast).1
  · have hinit : log ++ [e] = before ++ .started u :: after ++ [last] := by
      rw [heq, List.concat_eq_append, List.append_assoc, List.cons_append]
    exact h before u after (List.append_inj' hinit rfl).1

/-! ## Where an attempt stops -/

/-- An entry that is neither part of a deploy. -/
def WakeEntry.isPlain : WakeEntry → Bool
  | .started _ | .settled _ _ => false
  | _ => true

theorem starts_plain (he : e.isPlain = true) : starts [e] = [] := by
  cases e with
  | started ms => cases he
  | settled _ _ => rfl
  | now _ => rfl
  | cancelled _ => rfl
  | beat _ => rfl
  | author _ => rfl

theorem settled_mem_append {log : List WakeEntry} {f : Nat} {accepted : Bool}
    (he : e.isPlain = true) (h : .settled f accepted ∈ log ++ [e]) :
    .settled f accepted ∈ log := by
  rcases List.mem_append.1 h with h | h
  · exact h
  · rw [← List.mem_singleton.1 h] at he
    cases he

/-- Such an entry changes nothing here. -/
theorem Rest.note (h : Rest c b t s) (he : e.isPlain = true) :
    Rest c b t { s with log := s.log ++ [e] } := by
  have hstarts : starts (s.log ++ [e]) = starts s.log := by
    rw [starts_append, starts_plain he, List.append_nil]
  refine ⟨?_, h.since, h.authorised.append ?_, fun f hf hquiet => ?_, fun hholds => ?_, h.claimed,
    fun hholds => ?_⟩
  · rw [List.head?_append, h.first]
    rfl
  · rintro u rfl
    cases he
  · exact h.reported f (settled_mem_append he hf) fun hmem =>
      hquiet (List.mem_append_left _ hmem)
  · obtain ⟨hbook, hnone, hunsettled⟩ := h.refused hholds
    exact ⟨hbook, hstarts.trans hnone, fun f hf => hunsettled f (settled_mem_append he hf)⟩
  · rcases h.stamp hholds with ⟨hnone, hlast⟩ | ⟨u, hu⟩
    · exact .inl ⟨hstarts.trans hnone, hlast⟩
    · exact .inr ⟨u, hstarts.trans hu.one, hu.since, hu.covers⟩

/-- The outcomes that say something of the attempt. -/
def WakeOutcome.isPromise : WakeOutcome → Bool
  | .alreadyLive | .woken | .inFlight | .cancelled => true
  | _ => false

theorem Rest.ended (h : Rest c b t s) (hr : r.outcome.isPromise = false) : Ended c b t s r := by
  refine ⟨h, fun ho => ?_, fun ho => ?_, fun ho => ?_, fun ho => ?_⟩ <;>
    (rw [ho] at hr; cases hr)

theorem keeps_unlessCancelled {next : WakeTask ε}
    (h : Rest c b t { s with log := s.log ++ [.cancelled true] })
    (hnext : Keeps c b t next { s with log := s.log ++ [.cancelled false] }) :
    Keeps c b t (unlessCancelled reconcile next) s := by
  refine wp_call nofun fun fired s' hs' => ?_
  obtain rfl : s' = { s with log := s.log ++ [.cancelled fired] } := hs'
  cases fired with
  | true =>
      have hseen : .cancelled true ∈ s.log ++ [.cancelled true] :=
        List.mem_append_right _ List.mem_cons_self
      exact wp_done ⟨h, nofun, nofun, nofun, fun _ => hseen⟩
  | false => exact hnext

/-- An entry of an attempt that goes on. -/
def WakeEntry.isReading : WakeEntry → Bool
  | .cancelled true => false
  | e => e.isPlain

theorem isPlain_of_isReading (he : e.isReading = true) : e.isPlain = true := by
  unfold WakeEntry.isReading at he
  split at he
  · cases he
  · exact he

/-! ## Deciding -/

/-- The attempt has the claim and has not deployed. -/
structure Deciding (c : Nat) (b : AttemptBook) (t : ClaimingTrigger) (s : Scene) : Prop where
  first : s.log.head? = some (.now c)
  since : c ≤ s.now
  holds : s.holds = true
  claim : Claimable c b
  owned : s.book.inFlight = some t
  stamp : s.book.lastAttemptAt = b.lastAttemptAt
  unstarted : starts s.log = []
  unsettled : ∀ f accepted, .settled f accepted ∉ s.log
  quiet : .cancelled true ∉ s.log

theorem Deciding.rest (h : Deciding c b t s) : Rest c b t s where
  first := h.first
  since := h.since
  authorised := authorised_of_starts_eq_nil h.unstarted
  reported f hf := absurd hf (h.unsettled f false)
  refused hholds := by rw [h.holds] at hholds; cases hholds
  claimed _ := ⟨h.claim, h.owned⟩
  stamp _ := .inl ⟨h.unstarted, h.stamp⟩

theorem Deciding.note (h : Deciding c b t s) (he : e.isReading = true) :
    Deciding c b t { s with log := s.log ++ [e] } where
  first := by
    rw [List.head?_append, h.first]
    rfl
  since := h.since
  holds := h.holds
  claim := h.claim
  owned := h.owned
  stamp := h.stamp
  unstarted := by
    rw [starts_append, starts_plain (isPlain_of_isReading he), h.unstarted]
    rfl
  unsettled f accepted hmem :=
    h.unsettled f accepted (settled_mem_append (isPlain_of_isReading he) hmem)
  quiet hmem := by
    rcases List.mem_append.1 hmem with hmem | hmem
    · exact h.quiet hmem
    · rw [← List.mem_singleton.1 hmem] at he
      cases he

theorem Deciding.later (h : Deciding c b t s) {later : Nat} (hlater : s.now ≤ later) :
    Deciding c b t { s with now := later } :=
  { h with since := Nat.le_trans h.since hlater }

/-- It also has a tracker, whose anchor it was shown. -/
structure Watching (c : Nat) (b : AttemptBook) (t : ClaimingTrigger)
    (tracker : LiveEvidenceTracker) (s : Scene) : Prop extends Deciding c b t s where
  fence : tracker.sinceMs = c
  spacing : tracker.minSpacingMs = wakeEvidenceMinSpacingMs
  anchored : ∀ anchor, tracker.anchor = some anchor →
    c ≤ anchor.observedAtMs ∧ .beat (some anchor) ∈ s.log

theorem Deciding.watching (h : Deciding c b t s) : Watching c b t (.new c) s :=
  ⟨h, rfl, rfl, nofun⟩

variable {tracker : LiveEvidenceTracker} {hadEntryAtStart : Bool}

section

variable (h : Watching c b t tracker s)
include h

theorem Watching.note (he : e.isReading = true) :
    Watching c b t tracker { s with log := s.log ++ [e] } :=
  ⟨h.toDeciding.note he, h.fence, h.spacing, fun anchor hanchor =>
    (h.anchored anchor hanchor).imp_right (List.mem_append_left _)⟩

theorem Watching.later {later : Nat} (hlater : s.now ≤ later) :
    Watching c b t tracker { s with now := later } :=
  ⟨h.toDeciding.later hlater, h.fence, h.spacing, h.anchored⟩

/-- The tracker moves its anchor only to a beat past the fence. -/
theorem Watching.observe {beat : Option HeartbeatObservation}
    (hbeat : .beat beat ∈ s.log) :
    Watching c b t (tracker.observe beat).1 s := by
  unfold LiveEvidenceTracker.observe
  split
  · exact h
  · next current =>
      split
      · exact h
      · next hfence =>
          split
          · refine ⟨h.toDeciding, h.fence, h.spacing, fun anchor hanchor => ?_⟩
            obtain rfl : current = anchor := Option.some.inj hanchor
            exact ⟨h.fence ▸ Nat.le_of_not_lt hfence, hbeat⟩
          · split
            · exact h
            · exact h

/-- And it is satisfied only by two spaced beats. -/
theorem Watching.proven {beat : Option HeartbeatObservation}
    (hbeat : .beat beat ∈ s.log) (hproven : (tracker.observe beat).2 = true) :
    Proven c s.log := by
  unfold LiveEvidenceTracker.observe at hproven
  split at hproven
  · cases hproven
  · next current =>
      split at hproven
      · cases hproven
      · next hfence =>
          rw [h.fence] at hfence
          split at hproven
          · cases hproven
          · next anchor hanchor =>
              obtain ⟨hsince, hmem⟩ := h.anchored anchor hanchor
              split at hproven
              · cases hproven
              · next hne =>
                  have hspaced := of_decide_eq_true hproven
                  rw [h.spacing] at hspaced
                  exact ⟨anchor, current, hmem, hbeat, fun heq => hne heq.symm, hsince,
                    Nat.le_of_not_lt hfence, hspaced⟩

end

theorem Watching.unlessProven {next : LiveEvidenceTracker → WakeTask ε}
    (h : Watching c b t tracker s)
    (hnext : ∀ tracker' s', Watching c b t tracker' s' → Keeps c b t (next tracker') s') :
    Keeps c b t (unlessProven tracker next) s := by
  refine wp_call nofun fun beat s' hs' => ?_
  obtain rfl : s' = { s with log := s.log ++ [.beat beat] } := hs'
  have hnoted := h.note (e := .beat beat) rfl
  have hbeat : .beat beat ∈ s.log ++ [.beat beat] := List.mem_append_right _ List.mem_cons_self
  split
  · next hproven =>
      exact wp_done
        ⟨hnoted.rest, fun _ => hnoted.proven hbeat hproven, nofun, nofun, nofun⟩
  · exact hnext _ _ (hnoted.observe hbeat)

theorem Watching.checkExit {next : Bool → WakeTask ε}
    (h : Watching c b t tracker s)
    (hnext : ∀ exited s', Watching c b t tracker s' → Keeps c b t (next exited) s') :
    Keeps c b t (checkExit hadEntryAtStart next) s := by
  unfold Waker.checkExit
  split
  · refine wp_call nofun fun beat s' hs' => ?_
    obtain rfl : s' = { s with log := s.log ++ [.beat beat] } := hs'
    exact hnext _ _ (h.note rfl)
  · exact hnext _ _ h

theorem Watching.unlessCancelled {next : WakeTask ε}
    (h : Watching c b t tracker s)
    (hnext : ∀ s', Watching c b t tracker s' → Keeps c b t next s') :
    Keeps c b t (unlessCancelled reconcile next) s :=
  keeps_unlessCancelled (h.rest.note rfl) (hnext _ (h.note rfl))

/-! ## Deploying -/

/-- The attempt has deployed at `u`, once, and its stamp says so. -/
structure Deployed (c : Nat) (b : AttemptBook) (t : ClaimingTrigger) (u : Nat)
    (s : Scene) : Prop where
  first : s.log.head? = some (.now c)
  authorised : Authorised s.log
  holds : s.holds = true
  claim : Claimable c b
  owned : s.book.inFlight = some t
  one : starts s.log = [u]
  since : c ≤ u
  past : u ≤ s.now
  stamp : s.book.lastAttemptAt = some u
  settled : ∀ f accepted, .settled f accepted ∈ s.log → c ≤ f ∧ f ≤ s.now

/-- And the deploy has not failed. -/
structure Unfailed (c : Nat) (b : AttemptBook) (t : ClaimingTrigger) (u : Nat) (s : Scene) : Prop
    extends Deployed c b t u s where
  accepted : ∀ f, .settled f false ∉ s.log

variable {u : Nat}

/-- The attempt stops here, with the stamp its own or at least as late, or
gone with the time it stood for. -/
theorem Deployed.rest_of {book : AttemptBook} (h : Deployed c b t u s)
    (howned : book.inFlight = s.book.inFlight)
    (hcovers : (∃ t, book.lastAttemptAt = some t ∧ u ≤ t) ∨
      (book.lastAttemptAt = none ∧ u + wakeAttemptDebounceMs ≤ s.now))
    (hreported : Reported c { s with book := book }) : Rest c b t { s with book := book } where
  first := h.first
  since := Nat.le_trans h.since h.past
  authorised := h.authorised
  reported := hreported
  refused hholds := by rw [h.holds] at hholds; cases hholds
  claimed _ := ⟨h.claim, by rw [howned, h.owned]⟩
  stamp _ := .inr ⟨u, h.one, h.since, hcovers⟩

theorem Deployed.rest (h : Deployed c b t u s) (hreported : Reported c s) : Rest c b t s :=
  h.rest_of rfl (.inl ⟨u, h.stamp, Nat.le_refl u⟩) hreported

theorem Unfailed.rest (h : Unfailed c b t u s) : Rest c b t s :=
  h.toDeployed.rest fun f hf => absurd hf (h.accepted f)

theorem Deployed.note (h : Deployed c b t u s) (he : e.isPlain = true) :
    Deployed c b t u { s with log := s.log ++ [e] } :=
  { h with
    first := by
      rw [List.head?_append, h.first]
      rfl
    authorised := h.authorised.append (by
      rintro u rfl
      cases he)
    one := by
      rw [starts_append, starts_plain he, h.one]
      rfl
    settled := fun f accepted hmem => h.settled f accepted (settled_mem_append he hmem) }

theorem Unfailed.note (h : Unfailed c b t u s) (he : e.isPlain = true) :
    Unfailed c b t u { s with log := s.log ++ [e] } :=
  ⟨h.toDeployed.note he, fun f hmem => h.accepted f (settled_mem_append he hmem)⟩

theorem Deployed.later (h : Deployed c b t u s) {later : Nat} (hlater : s.now ≤ later) :
    Deployed c b t u { s with now := later } :=
  { h with
    past := Nat.le_trans h.past hlater
    settled := fun f accepted hmem =>
      (h.settled f accepted hmem).imp_right fun hf => Nat.le_trans hf hlater }

theorem Unfailed.later (h : Unfailed c b t u s) {later : Nat} (hlater : s.now ≤ later) :
    Unfailed c b t u { s with now := later } :=
  ⟨h.toDeployed.later hlater, h.accepted⟩

theorem allowed_delay {ms : Nat} {a : Unit} (h : allowed (ε := ε) s (.delay ms) a s') :
    ∃ later, s.now + ms ≤ later ∧ s' = { s with now := later } := by
  obtain ⟨later, hlater, rfl⟩ := h
  refine ⟨later, hlater, ?_⟩
  show ({ now := later, book := s.book, holds := s.holds, log := s.log ++ [] } : Scene) = _
  rw [List.append_nil]

theorem allowed_presence {a : Except ε (Option PresenceStatus)} (h : allowed s .presence a s') :
    ∃ later, s.now ≤ later ∧ s' = { s with now := later } := by
  obtain ⟨later, hlater, rfl⟩ := h
  refine ⟨later, hlater, ?_⟩
  show ({ now := later, book := s.book, holds := s.holds, log := s.log ++ [] } : Scene) = _
  rw [List.append_nil]

/-- Every poll takes its interval, so the window has run out by the last. -/
theorem Unfailed.converge {floorAdopted : Option Bool} {deployedAt : Nat}
    (left : Nat) (h : Unfailed c b t u s)
    (hsettled : .settled deployedAt true ∈ s.log)
    (hleft : u + wakeAttemptDebounceMs ≤ s.now + left * wakeConfirmPollMs) :
    Keeps (ε := ε) c b t (converge reconcile floorAdopted u deployedAt left) s := by
  induction left generalizing s with
  | zero =>
      refine wp_call nofun fun _ s' hs' => ?_
      obtain rfl : s' = { s with book := s.book.releaseStamp u } := hs'
      have hbook : s.book.releaseStamp u = { s.book with lastAttemptAt := none } :=
        if_pos h.stamp
      have hrest : Rest c b t { s with book := s.book.releaseStamp u } := by
        rw [hbook]
        refine h.rest_of rfl (.inr ⟨rfl, ?_⟩) fun f hf => absurd hf (h.accepted f)
        rw [Nat.zero_mul, Nat.add_zero] at hleft
        exact hleft
      exact wp_done (hrest.ended rfl)
  | succ left ih =>
      refine wp_call (fun _ => ⟨h.holds, h.rest⟩) fun _ s' hs' => ?_
      obtain ⟨later, hlater, rfl⟩ := allowed_delay hs'
      have hlate := h.later (Nat.le_of_add_right_le hlater)
      refine keeps_unlessCancelled (hlate.rest.note rfl) (wp_call nofun fun beat s' hs' => ?_)
      obtain rfl := hs'
      have hnoted := (hlate.note (e := .cancelled false) rfl).note (e := .beat beat) rfl
      have hsettled' : .settled deployedAt true ∈ (s.log ++ [.cancelled false]) ++ [.beat beat] :=
        List.mem_append_left _ (List.mem_append_left _ hsettled)
      split
      · next hbeat =>
          obtain ⟨observation, rfl, hobserved⟩ := (Option.any_eq_true _ beat).1 hbeat
          refine wp_done ⟨hnoted.rest, nofun, fun _ => ?_, nofun, nofun⟩
          exact ⟨deployedAt, observation, hsettled',
            List.mem_append_right _ List.mem_cons_self, of_decide_eq_true hobserved⟩
      · refine ih hnoted hsettled' ?_
        show u + wakeAttemptDebounceMs ≤ later + left * wakeConfirmPollMs
        rw [Nat.succ_mul] at hleft
        omega

theorem Unfailed.afterDeploy {floorAdopted : Option Bool}
    (h : Unfailed c b t u s) (hsettled : .settled s.now true ∈ s.log) :
    Keeps (ε := ε) c b t (afterDeploy reconcile u floorAdopted) s := by
  refine keeps_unlessCancelled (h.rest.note rfl) ?_
  have hnoted := h.note (e := .cancelled false) rfl
  have hdeployed : Keeps (ε := ε) c b t (.call .nowMs fun deployedAt =>
      Waker.converge reconcile floorAdopted u deployedAt wakeConfirmAttempts)
      { s with log := s.log ++ [.cancelled false] } := by
    refine wp_call nofun fun deployedAt s' hs' => ?_
    obtain ⟨rfl, rfl⟩ := hs'
    refine (hnoted.note (e := .now s.now) rfl).converge wakeConfirmAttempts ?_ ?_
    · exact List.mem_append_left _ (List.mem_append_left _ hsettled)
    · exact Nat.add_le_add_right h.past _
  cases reconcile with
  | true => exact hdeployed
  | false =>
      refine wp_call nofun fun _ s' hs' => ?_
      obtain rfl : s' = _ := hs'
      exact hdeployed

/-- A refused deploy holds the debounce from where it settled. -/
theorem Deployed.failed {error : ε} (h : Deployed c b t u s) :
    Keeps c b t (unlessCancelled reconcile <| .call .nowMs fun settledAt =>
      .call (.refreshStamp u settledAt) fun _ =>
        .done { outcome := .deployFailed, reconcile := reconcile, error := some error }) s := by
  have hstops : Rest c b t { s with log := s.log ++ [.cancelled true] } :=
    (h.note rfl).rest fun f _ hquiet =>
      absurd (List.mem_append_right _ List.mem_cons_self) hquiet
  refine keeps_unlessCancelled hstops (wp_call nofun fun settledAt s' hs' => ?_)
  obtain ⟨rfl, rfl⟩ := hs'
  have hnoted := (h.note (e := .cancelled false) rfl).note (e := .now s.now) rfl
  refine wp_call nofun fun _ s' hs' => ?_
  obtain rfl := hs'
  have hlast : (s.book.refreshStamp u s.now).lastAttemptAt = some (max s.now u) := by
    unfold AttemptBook.refreshStamp
    rw [if_pos h.stamp]
  have howned : (s.book.refreshStamp u s.now).inFlight = s.book.inFlight := by
    unfold AttemptBook.refreshStamp
    rw [if_pos h.stamp]
  refine wp_done (Rest.ended (hnoted.rest_of howned ?_ ?_) rfl)
  · exact .inl ⟨_, hlast, Nat.le_max_right s.now u⟩
  · intro f hf _
    obtain ⟨hsince, hpast⟩ := hnoted.settled f false hf
    exact ⟨hsince, _, hlast, Nat.le_trans hpast (Nat.le_max_left s.now u)⟩

/-- The deploy starts, stamped. -/
theorem Deciding.started (h : Deciding c b t s) (hauthor : .author (some true) ∈ s.log) :
    Unfailed c b t s.now
      ⟨s.now, s.book.stamp s.now, s.holds, s.log ++ [.started s.now]⟩ := by
  have hunsettled : ∀ f accepted, .settled f accepted ∉ s.log ++ [.started s.now] := by
    intro f accepted hmem
    rcases List.mem_append.1 hmem with hmem | hmem
    · exact h.unsettled f accepted hmem
    · cases List.mem_singleton.1 hmem
  refine ⟨⟨?_, ?_, h.holds, h.claim, h.owned, ?_, h.since, Nat.le_refl _, rfl, ?_⟩, ?_⟩
  · rw [List.head?_append, h.first]
    rfl
  · exact h.rest.authorised.append fun _ _ => ⟨hauthor, h.quiet⟩
  · rw [starts_append, h.unstarted]
    rfl
  · exact fun f accepted hmem => absurd hmem (hunsettled f accepted)
  · exact fun f => hunsettled f false

/-- It settles, either way. -/
theorem Unfailed.settles (h : Unfailed c b t u s) (accepted : Bool) :
    Deployed c b t u { s with log := s.log ++ [.settled s.now accepted] } :=
  { h with
    first := by
      rw [List.head?_append, h.first]
      rfl
    authorised := h.authorised.append nofun
    one := by
      rw [starts_append, h.one]
      rfl
    settled := fun f accepted hmem => by
      rcases List.mem_append.1 hmem with hmem | hmem
      · exact h.settled f accepted hmem
      · cases List.mem_singleton.1 hmem
        exact ⟨Nat.le_trans h.since h.past, Nat.le_refl s.now⟩ }

theorem Deciding.deploy (h : Deciding c b t s)
    (hauthor : .author (some true) ∈ s.log) :
    Keeps (ε := ε) c b t (deploy reconcile) s := by
  refine wp_call nofun fun stampedAt s' hs' => ?_
  obtain ⟨rfl, rfl⟩ := hs'
  refine wp_call nofun fun _ s' hs' => ?_
  obtain rfl := hs'
  have hstarted := (h.note (e := .now s.now) rfl).started (List.mem_append_left _ hauthor)
  refine wp_call (fun _ => ⟨h.holds, hstarted.rest⟩) fun answer s' hs' => ?_
  obtain ⟨later, hlater, rfl⟩ := hs'
  have hlate := hstarted.later hlater
  have hsettled := hlate.settles answer.toBool
  cases answer with
  | error error => exact hsettled.failed
  | ok floorAdopted =>
      refine Unfailed.afterDeploy ⟨hsettled, fun f hf => ?_⟩
        (List.mem_append_right _ List.mem_cons_self)
      rcases List.mem_append.1 hf with hf | hf
      · exact hlate.accepted f hf
      · cases List.mem_singleton.1 hf

theorem Deciding.confirmAuthor (h : Deciding c b t s) :
    Keeps (ε := ε) c b t (confirmAuthor reconcile) s := by
  refine keeps_unlessCancelled (h.rest.note rfl) ?_
  have hnoted := h.note (e := .cancelled false) rfl
  refine wp_call (fun _ => ⟨h.holds, hnoted.rest⟩) fun answer s' hs' => ?_
  obtain ⟨later, hlater, rfl⟩ := hs'
  have hanswered := (hnoted.later hlater).note (e := .author answer.toOption) rfl
  match answer with
  | .ok true =>
      refine keeps_unlessCancelled (hanswered.rest.note rfl) ?_
      refine (hanswered.note (e := .cancelled false) rfl).deploy ?_
      exact List.mem_append_left _ (List.mem_append_right _ List.mem_cons_self)
  | .ok false => exact wp_done (hanswered.rest.ended rfl)
  | .error _ => exact wp_done (hanswered.rest.ended rfl)

/-! ## The whole attempt -/

theorem Watching.delay {ms : Nat} {next : Unit → WakeTask ε} (h : Watching c b t tracker s)
    (hnext : ∀ s', Watching c b t tracker s' → Keeps c b t (next ()) s') :
    Keeps c b t (.call (.delay ms) next) s := by
  refine wp_call (fun _ => ⟨h.holds, h.rest⟩) fun _ s' hs' => ?_
  obtain ⟨later, hlater, rfl⟩ := allowed_delay hs'
  exact hnext _ (h.later (Nat.le_of_add_right_le hlater))

theorem Watching.teardownFence (h : Watching c b t tracker s) :
    Keeps (ε := ε) c b t (teardownFence tracker) s := by
  refine h.delay fun s h => h.unlessCancelled fun s h => ?_
  refine wp_call (fun _ => ⟨h.holds, h.rest⟩) fun presence s' hs' => ?_
  obtain ⟨later, hlater, rfl⟩ := allowed_presence hs'
  exact (h.later hlater).unlessProven fun _ _ h => h.confirmAuthor

theorem Watching.afterEvidence {announcedExit : Bool}
    (h : Watching c b t tracker s) :
    Keeps (ε := ε) c b t (afterEvidence hadEntryAtStart announcedExit tracker) s := by
  refine h.unlessProven fun tracker s h => h.checkExit fun exited s h => ?_
  split
  · exact h.teardownFence
  · exact h.confirmAuthor

theorem Watching.evidence (left attempt : Nat) (h : Watching c b t tracker s) :
    Keeps (ε := ε) c b t (evidence hadEntryAtStart left attempt tracker) s := by
  induction left generalizing attempt tracker s with
  | zero => exact h.afterEvidence
  | succ left ih =>
      refine h.unlessProven fun tracker s h => h.checkExit fun exited s h => ?_
      split
      · exact h.afterEvidence
      · split
        · exact h.afterEvidence
        · exact h.delay fun s h => h.unlessCancelled fun s h => ih (attempt + 1) h

theorem Deciding.claimedAttempt (h : Deciding c b t s) :
    Keeps (ε := ε) c b t (claimedAttempt c) s := by
  refine wp_call (fun _ => ⟨h.holds, h.rest⟩) fun presence s' hs' => ?_
  obtain ⟨later, hlater, rfl⟩ := allowed_presence hs'
  refine (h.later hlater).watching.unlessCancelled fun s h => ?_
  split
  · refine wp_call nofun fun beat s' hs' => ?_
    obtain rfl := hs'
    exact (h.note rfl).evidence wakeLiveEvidenceAttempts 0
  · split
    · exact h.teardownFence
    · exact h.confirmAuthor

/-- Why a claim is refused. -/
inductive Refuses (b : AttemptBook) (aborted : Bool) : ClaimRefusal → Prop
  | inFlight (owner : ClaimingTrigger) (h : b.inFlight = some owner) :
      Refuses b aborted ⟨.inFlight, some owner⟩
  | debounced : Refuses b aborted ⟨.debounced, none⟩
  | cancelled (h : aborted = true) : Refuses b aborted ⟨.cancelled, none⟩

/-- A claim is refused and changes nothing, or is taken from a free and cool
book by an attempt that was not cancelled. -/
theorem AttemptBook.claim_cases (b : AttemptBook) (trigger : ClaimingTrigger) (nowMs : Nat)
    (aborted : Bool) :
    (∃ refusal, b.claim trigger nowMs aborted = (b, .error refusal) ∧
      Refuses b aborted refusal) ∨
    (b.claim trigger nowMs aborted = ({ b with inFlight := some trigger }, .ok ()) ∧
      Claimable nowMs b ∧ aborted = false) := by
  unfold AttemptBook.claim
  split
  · next owner howner => exact .inl ⟨_, rfl, .inFlight owner howner⟩
  · next hfree =>
      split
      · exact .inl ⟨_, rfl, .debounced⟩
      · next hcool =>
          split
          · next haborted => exact .inl ⟨_, rfl, .cancelled haborted⟩
          · next hlive =>
              refine .inr ⟨rfl, ⟨hfree, fun t ht => ?_⟩, Bool.eq_false_iff.2 hlive⟩
              unfold isWakeAttemptDebounced at hcool
              rw [ht] at hcool
              have hge := Nat.le_of_not_lt (of_decide_eq_false (Bool.eq_false_iff.2 hcool))
              have hdebounce : 0 < wakeAttemptDebounceMs := by decide
              omega

theorem keeps_runWakeAttempt (trigger : ClaimingTrigger) (c : Nat) (b : AttemptBook) :
    Keeps (ε := ε) c b trigger (runWakeAttempt trigger) ⟨c, b, false, []⟩ := by
  refine wp_call nofun fun started s' hs' => ?_
  obtain ⟨hstarted, rfl⟩ := hs'
  replace hstarted : started = c := hstarted
  subst hstarted
  refine wp_call nofun fun aborted s' hs' => ?_
  obtain rfl := hs'
  refine wp_call nofun fun answer s' hs' => ?_
  obtain ⟨rfl, rfl⟩ := hs'
  rcases b.claim_cases trigger started aborted with ⟨refusal, hclaim, hwhy⟩ | ⟨hclaim, hok, rfl⟩
  · have hrest : Rest started b trigger ⟨started, b, false, [.now started, .cancelled aborted]⟩ :=
      ⟨rfl, Nat.le_refl started, authorised_of_starts_eq_nil rfl, fun f hf => by simp at hf,
        fun _ => ⟨rfl, rfl, fun f => by simp⟩, nofun, nofun⟩
    rw [hclaim]
    cases hwhy with
    | inFlight owner howner =>
        exact wp_done ⟨hrest, nofun, nofun, fun _ => ⟨rfl, howner.symm, howner ▸ rfl⟩, nofun⟩
    | debounced => exact wp_done (hrest.ended rfl)
    | cancelled haborted =>
        exact wp_done ⟨hrest, nofun, nofun, nofun, fun _ => by simp [haborted]⟩
  · have hdeciding : Deciding started b trigger
        ⟨started, { b with inFlight := some trigger }, true, [.now started, .cancelled false]⟩ :=
      ⟨rfl, Nat.le_refl started, rfl, hok, rfl, rfl, rfl, by simp, by simp⟩
    rw [hclaim]
    exact hdeciding.claimedAttempt

end Buzz.Waker
