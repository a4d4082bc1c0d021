import Buzz.Proofs.Enforcement

/-!
# The enforcement loop ends

A row only moves on: pending, enforcing, marked, done; or failed, and cancelled
then. A driver pays for each of its calls out of a budget that others cannot
raise. A round that only waits for a lease has a price of its own, and there are
so many of them and no more. The other rounds begin with a row further on than
the last one did.

The exception is a row that was cancelled. `drive_enforcement` does not look for
that state, the lease is not given for it, and it reads the row again: a driver
without a lease of its own never leaves the loop then. That read is what
`spares` is about.
-/

namespace Buzz.Db

open Buzz.Lib

variable {t t' : AdminTables} {leaving : Leaving} {id : Nat} {a a' : ActionRow}

/-- What a transaction does to one action. -/
inductive RowStep (a a' : ActionRow) : Prop
  | same (hstate : a'.state = a.state) (hmarker : a'.stepMarker = a.stepMarker)
  | enforce (hstate : a.state = .pending) (hstate' : a'.state = .enforcing)
  | mark (hstate : a.state = .enforcing) (hmarker : a.stepMarker = none)
      (hstate' : a'.state = .enforcing)
  | fail (hstate : a.state = .enforcing) (hmarker : a.stepMarker = none)
      (hstate' : a'.state = .failed)
  | succeed (hstate' : a'.state = .succeeded)
  | cancel (hstate : a.state = .failed) (hstate' : a'.state = .cancelled)

theorem TableStep.row_step (hinv : EnforcementInv t) (hstep : TableStep t leaving t')
    (hid : t.actions.lookup id = some a) :
    ∃ a', t'.actions.lookup id = some a' ∧ RowStep a a' := by
  have hnew : id ≠ t.nextAction := Nat.ne_of_lt (hinv.fresh id a hid)
  have hsame : RowStep a a := .same rfl rfl
  -- A step writes the row of one action.
  have hrow : ∀ (j : Nat) (b b' : ActionRow), t.actions.lookup j = some b → RowStep b b' →
      ∃ a', (t.actions.insert j b').lookup id = some a' ∧ RowStep a a' := by
    intro j b b' hj hb
    rw [HMap.lookup_insert_ite]
    split
    · next heq =>
        subst heq
        rw [hid] at hj
        cases hj
        exact ⟨b', rfl, hb⟩
    · exact ⟨a, hid, hsame⟩
  have hinsert : ∀ b : ActionRow,
      ∃ a', (t.actions.insert t.nextAction b).lookup id = some a' ∧ RowStep a a' := by
    intro b
    rw [HMap.lookup_insert_ite, if_neg hnew]
    exact ⟨a, hid, hsame⟩
  cases hstep with
  | refl => exact ⟨a, hid, hsame⟩
  | file => exact ⟨a, hid, hsame⟩
  | resolve => exact ⟨a, hid, hsame⟩
  | claim => exact hinsert _
  | direct => exact hinsert _
  | reopen => exact hinsert _
  | lease hj _ _ hstate hmarker => exact hrow _ _ _ hj (.same hstate hmarker)
  | enforce hj hstate => exact hrow _ _ _ hj (.enforce hstate rfl)
  | mark hj hstate hmarker => exact hrow _ _ _ hj (.mark hstate hmarker hstate)
  | fail hj hstate hmarker => exact hrow _ _ _ hj (.fail hstate hmarker rfl)
  | finalizeDirect hj => exact hrow _ _ _ hj (.succeed rfl)
  | finalize hj => exact hrow _ _ _ hj (.succeed rfl)
  | cancel hj hstate => exact hrow _ _ _ hj (.cancel hstate rfl)

/-- A row that is no longer pending does not become so again. -/
theorem RowStep.not_pending (h : RowStep a a') (ha : a.state ≠ .pending) :
    a'.state ≠ .pending := by
  cases h with
  | same hstate => rw [hstate]; exact ha
  | enforce hstate => exact absurd hstate ha
  | mark _ _ hstate' => rw [hstate']; decide
  | fail _ _ hstate' => rw [hstate']; decide
  | succeed hstate' => rw [hstate']; decide
  | cancel _ hstate' => rw [hstate']; decide

/-! ## Marked rows -/

/-- The marker is set by an enforcing driver. -/
def MarkedRows (t : AdminTables) : Prop :=
  ∀ (id : Nat) (a : ActionRow), t.actions.lookup id = some a → a.stepMarker.isSome →
    a.state = .enforcing ∨ a.state = .succeeded

theorem MarkedRows.step (h : MarkedRows t) (hstep : TableStep t leaving t') : MarkedRows t' := by
  have hrow : ∀ (j : Nat) (b' : ActionRow),
      (b'.stepMarker.isSome → b'.state = .enforcing ∨ b'.state = .succeeded) →
      ∀ (id : Nat) (a : ActionRow), (t.actions.insert j b').lookup id = some a →
        a.stepMarker.isSome → a.state = .enforcing ∨ a.state = .succeeded := by
    intro j b' hb id a hid hmarked
    rcases HMap.lookup_insert_cases hid with ⟨-, rfl⟩ | ⟨-, hold⟩
    · exact hb hmarked
    · exact h id a hold hmarked
  have hnone : ∀ {b : ActionRow}, b.stepMarker = none →
      b.stepMarker.isSome → b.state = .enforcing ∨ b.state = .succeeded := by
    intro b hb hmarked
    rw [hb] at hmarked
    cases hmarked
  cases hstep with
  | refl => exact h
  | file => exact h
  | resolve => exact h
  | claim _ _ _ _ hmarker => exact hrow _ _ (hnone hmarker)
  | direct _ _ hmarker => exact hrow _ _ (hnone hmarker)
  | reopen _ _ _ hmarker => exact hrow _ _ (hnone hmarker)
  | lease hj _ _ hstate hmarker =>
      refine hrow _ _ fun hmarked => ?_
      rw [hmarker] at hmarked
      rw [hstate]
      exact h _ _ hj hmarked
  | enforce => exact hrow _ _ fun _ => .inl rfl
  | mark _ hstate => exact hrow _ _ fun _ => .inl hstate
  | fail _ _ hmarker => exact hrow _ _ fun hmarked => by rw [hmarker] at hmarked; cases hmarked
  | finalizeDirect => exact hrow _ _ fun _ => .inr rfl
  | finalize => exact hrow _ _ fun _ => .inr rfl
  | cancel _ _ hmarker =>
      exact hrow _ _ fun hmarked => by rw [hmarker] at hmarked; cases hmarked

end Buzz.Db

namespace Buzz.Relay

open Buzz.Db Buzz.Lib Driver

variable {s s' : AdminStore} {d d' : Driver} {a : ActionRow}
  {outcome : MutationOutcome} {token : Nat}

/-! ## The budget -/

/-- The waits a driver has left. -/
def Driver.waits (d : Driver) : Nat := maxContentionAttempts - d.contentionAttempts

/-- The calls of a round that begins with this row, and of those after it. -/
def Driver.rowCalls (d : Driver) (a : ActionRow) : Nat :=
  match a.state with
  | .pending => 13
  | .enforcing => if a.stepMarker.isSome then 3 else if d.args.heldLease.isSome then 8 else 11
  | .succeeded => 0
  | .failed | .cancelled => if d.args.heldLease.isSome then 8 else 0

/-- The row of the driver's action, as it is in the table. -/
def Driver.row (d : Driver) (s : AdminStore) : Option ActionRow := s.actions.lookup d.args.actionId

/-- How many calls are left at most, if no lease has to be waited for. -/
def Driver.calls (d : Driver) (s : AdminStore) : Nat :=
  match d.phase with
  | .begin => 13
  | .reload .head => 1 + ((d.row s).map d.rowCalls).getD 0
  | .reload .body => 12
  | .reload .last => 1
  | .acquire => 11
  | .contended => 10
  | .own _ => 8
  | .mutate _ => 7
  | .classify _ => 6
  | .recordFailure _ => 2
  | .release _ .committed => 4
  | .release _ .alreadyCommitted => 2 + ((d.row s).map d.rowCalls).getD 0
  | .release _ .leaseLost => 1
  | .release _ .error => 1
  | .sideEffects => 3
  | .finalize => 2
  | .done => 0

/-- A wait is a round of three calls. -/
def Driver.budget (d : Driver) (s : AdminStore) : Nat := d.calls s + 3 * d.waits

/-- Nobody else can make a round longer. -/
theorem Driver.rowCalls_le {a' : ActionRow} (h : RowStep a a') :
    d.rowCalls a' ≤ d.rowCalls a := by
  unfold rowCalls
  cases h with
  | same hstate hmarker => rw [hstate, hmarker]
  | enforce hstate hstate' =>
      rw [hstate, hstate']
      dsimp only
      split
      · omega
      · split <;> omega
  | mark hstate hmarker hstate' =>
      rw [hstate, hstate', hmarker]
      dsimp only
      split
      · simp only [Option.isSome_none, Bool.false_eq_true, if_false]
        split <;> omega
      · simp
  | fail hstate hmarker hstate' =>
      rw [hstate, hstate', hmarker]
      simp only [Option.isSome_none, Bool.false_eq_true, if_false]
      split <;> omega
  | succeed hstate' =>
      rw [hstate']
      exact Nat.zero_le _
  | cancel hstate hstate' => rw [hstate, hstate']

theorem Driver.calls_le {leaving : Leaving} (hinv : EnforcementInv s.tables)
    (hstep : TableStep s.tables leaving s'.tables) (hmatches : d.Matches s.tables) :
    d.calls s' ≤ d.calls s := by
  obtain ⟨a, ha, -⟩ := hmatches
  obtain ⟨a', ha', hrow⟩ := hstep.row_step hinv ha
  have hle : ((d.row s').map d.rowCalls).getD 0 ≤ ((d.row s).map d.rowCalls).getD 0 := by
    unfold row
    rw [show s'.actions.lookup d.args.actionId = some a' from ha',
      show s.actions.lookup d.args.actionId = some a from ha]
    exact rowCalls_le hrow
  unfold calls
  split <;> omega

/-! ## One call -/

/-- The phases in which a driver relies on its action having begun. -/
def DrivePhase.begun : DrivePhase → Bool
  | .acquire | .contended | .reload .body => true
  | _ => false

/-- What a driver needs to stay within its budget: waits left, and a row that is
not pending behind it. -/
structure Driver.Solvent (d : Driver) (s : AdminStore) : Prop where
  counted : d.contentionAttempts ≤ maxContentionAttempts
  waits : d.phase ≠ .done → d.contentionAttempts < maxContentionAttempts
  begun : d.phase.begun = true → ∀ a, d.row s = some a → a.state ≠ .pending

/-- The driver looks at its row at the head of the loop, without a lease of its
own, and the row is not cancelled. -/
def Driver.spared (d : Driver) (s : AdminStore) (answer : Answer) : Prop :=
  d.phase = .reload .head → d.args.heldLease = none → answer = .ok →
    ∀ a ∈ d.row s, a.state ≠ .cancelled

instance (answer : Answer) : Decidable (d.spared s answer) :=
  inferInstanceAs (Decidable (_ → _ → _ → _))

theorem Driver.runMutation_calls (token : Nat) : (d.goto (d.runMutation token)).calls s ≤ 8 := by
  unfold runMutation
  split
  · exact Nat.le_refl _
  · show 2 ≤ 8
    omega

theorem Driver.loopBody_calls : (d.goto d.loopBody).calls s ≤ 11 := by
  unfold loopBody
  split
  · show 3 ≤ _
    omega
  · exact (runMutation_calls _).trans (by omega)
  · exact Nat.le_refl _

/-- The first call of a round is within what the row allows. -/
theorem Driver.loopHead_calls (hrecord : d.record = a)
    (hspared : d.args.heldLease = none → a.state ≠ .cancelled) :
    (d.goto d.loopHead).calls s ≤ d.rowCalls a := by
  unfold loopHead rowCalls
  rw [hrecord]
  cases hstate : a.state with
  | pending => exact Nat.le_refl _
  | enforcing =>
      unfold loopBody
      rw [hrecord]
      dsimp only
      split
      · next hmarker => rw [hmarker]; exact Nat.le_refl _
      · next token hmarker hheld =>
          rw [hmarker, hheld]
          exact runMutation_calls token
      · next hmarker hheld =>
          rw [hmarker, hheld]
          exact Nat.le_refl _
  | succeeded => exact Nat.le_refl _
  | failed => exact Nat.zero_le _
  | cancelled =>
      unfold loopBody
      rw [hrecord]
      cases hheld : d.args.heldLease with
      | none => exact absurd hstate (hspared hheld)
      | some token =>
          dsimp only
          split
          · show 3 ≤ 8
            omega
          · next hsome => cases hsome; exact runMutation_calls token
          · next hnone => cases hnone

/-- A marker is there: the next round goes straight to the side effects. -/
theorem Driver.rowCalls_of_marked (hmarked : MarkedRows s.tables) (ha : d.row s = some a)
    (hmarker : a.stepMarker.isSome) : d.rowCalls a ≤ 3 := by
  unfold rowCalls
  rcases hmarked _ a ha hmarker with hstate | hstate
  · rw [hstate]
    dsimp only
    rw [if_pos hmarker]
  · rw [hstate]
    exact Nat.zero_le _

theorem Driver.next_calls :
    (d.goto outcome.next).calls s < (d.goto (.release token outcome)).calls s := by
  cases outcome with
  | committed => exact Nat.lt_succ_self 3
  | alreadyCommitted =>
      show 1 + _ < 2 + _
      exact Nat.add_lt_add_right (by decide) _
  | leaseLost => exact Nat.zero_lt_one
  | error => exact Nat.zero_lt_one

theorem Driver.releaseThen_calls :
    (d.goto (d.releaseThen token outcome)).calls s ≤
      (d.goto (.release token outcome)).calls s := by
  unfold releaseThen
  split
  · exact Nat.le_of_lt next_calls
  · exact Nat.le_refl _

/-- The row of a driver whose `pending → enforcing` did not go through. -/
theorem not_pending_of_beginEnforcing (h : s.beginEnforcing d.args.actionId = none)
    (ha : d.row s = some a) : a.state ≠ .pending := by
  intro hstate
  unfold row at ha
  unfold AdminStore.beginEnforcing AdminStore.updateAction at h
  rw [ha] at h
  dsimp only at h
  rw [if_pos (decide_eq_true hstate)] at h
  cases h

theorem Driver.rowCalls_of_begun (h : a.state ≠ .pending) : d.rowCalls a ≤ 11 := by
  unfold rowCalls
  cases hstate : a.state with
  | pending => exact absurd hstate h
  | enforcing =>
      dsimp only
      split
      · omega
      · split <;> omega
  | succeeded => exact Nat.zero_le _
  | failed =>
      dsimp only
      split <;> omega
  | cancelled =>
      dsimp only
      split <;> omega

theorem Driver.rowCalls_of_over (h : a.leasable = false) : d.rowCalls a ≤ 8 := by
  unfold rowCalls
  unfold ActionRow.leasable at h
  cases hstate : a.state with
  | pending => rw [hstate] at h; cases h
  | enforcing => rw [hstate] at h; cases h
  | succeeded => exact Nat.zero_le _
  | failed =>
      dsimp only
      split <;> omega
  | cancelled =>
      dsimp only
      split <;> omega

theorem Driver.begin_calls (hphase : d.phase = .begin) (clock : Int) :
    (d.call s clock).2.calls (d.call s clock).1 < d.calls s := by
  have hcalls : d.calls s = 13 := by
    unfold calls
    rw [hphase]
  rw [hcalls]
  unfold call
  rw [hphase]
  dsimp only
  split
  · show 12 < _
    omega
  · next hnone =>
      show 1 + ((d.row s).map d.rowCalls).getD 0 < _
      cases ha : d.row s with
      | none =>
          show 1 < _
          omega
      | some a =>
          have hle : d.rowCalls a ≤ _ :=
            rowCalls_of_begun (not_pending_of_beginEnforcing hnone ha)
          show 1 + d.rowCalls a < _
          omega

theorem Driver.reload_calls {next : Reload} (hphase : d.phase = .reload next)
    (hspared : d.spared s .ok) (clock : Int) :
    (d.call s clock).2.calls (d.call s clock).1 < d.calls s := by
  have hcall : d.call s clock = (s, d.reloaded (d.row s) next) := by
    unfold call
    rw [hphase]
    rfl
  rw [hcall]
  unfold reloaded
  cases next with
  | head =>
      have hcalls : d.calls s = 1 + ((d.row s).map d.rowCalls).getD 0 := by
        unfold calls
        rw [hphase]
      rw [hcalls]
      cases ha : d.row s with
      | none => exact Nat.lt_add_right 0 Nat.zero_lt_one
      | some a =>
          have hle : (({ d with record := a } : Driver).goto
              ({ d with record := a } : Driver).loopHead).calls s ≤ d.rowCalls a :=
            loopHead_calls (d := { d with record := a }) rfl
              fun hheld => hspared hphase hheld rfl a ha
          exact Nat.lt_of_le_of_lt hle (Nat.lt_add_of_pos_left Nat.zero_lt_one)
  | body =>
      have hcalls : d.calls s = 12 := by
        unfold calls
        rw [hphase]
      rw [hcalls]
      cases ha : d.row s with
      | none =>
          show 0 < _
          omega
      | some a =>
          have hle : (({ d with record := a } : Driver).goto
              ({ d with record := a } : Driver).loopBody).calls s ≤ 11 :=
            loopBody_calls (d := { d with record := a })
          exact Nat.lt_of_le_of_lt hle (by omega)
  | last =>
      have hcalls : d.calls s = 1 := by
        unfold calls
        rw [hphase]
      rw [hcalls]
      cases d.row s with
      | none => exact Nat.zero_lt_one
      | some a => exact Nat.zero_lt_one

theorem Driver.acquire_calls (hphase : d.phase = .acquire) (clock : Int) :
    (d.call s clock).2.calls (d.call s clock).1 < d.calls s := by
  have hcalls : d.calls s = 11 := by
    unfold calls
    rw [hphase]
  rw [hcalls]
  unfold call
  rw [hphase]
  dsimp only
  split
  · exact Nat.lt_of_le_of_lt (runMutation_calls _) (by omega)
  · show 10 < _
    omega

/-- A wait that is counted, or a row that is over. -/
theorem Driver.contended_budget (hphase : d.phase = .contended) (hsolvent : d.Solvent s)
    (clock : Int) : (d.call s clock).2.budget (d.call s clock).1 < d.budget s := by
  have hbudget : d.budget s = 10 + 3 * d.waits := by
    unfold budget calls
    rw [hphase]
  have hwaits : 0 < d.waits := by
    have := hsolvent.waits (by rw [hphase]; decide)
    unfold waits
    omega
  rw [hbudget]
  unfold call
  rw [hphase]
  dsimp only
  split
  · next a ha =>
      have hrow : d.row s = some a := ha
      split
      · let waited : Driver := { d with contentionAttempts := d.contentionAttempts + 1 }
        have hless : waited.waits + 1 = d.waits := by
          show maxContentionAttempts - (d.contentionAttempts + 1) + 1 = _
          unfold waits at hwaits ⊢
          omega
        dsimp only
        split
        · show 0 + 3 * waited.waits < _
          omega
        · have hle : waited.rowCalls a ≤ 11 :=
            rowCalls_of_begun (hsolvent.begun (by rw [hphase]; rfl) a ha)
          show 1 + ((d.row s).map waited.rowCalls).getD 0 + 3 * waited.waits < _
          rw [hrow]
          show 1 + waited.rowCalls a + 3 * waited.waits < _
          omega
      · next hover =>
          have hle : d.rowCalls a ≤ 8 := rowCalls_of_over (Bool.eq_false_iff.2 hover)
          show 1 + ((d.row s).map d.rowCalls).getD 0 + 3 * d.waits < _
          rw [hrow]
          show 1 + d.rowCalls a + 3 * d.waits < _
          omega
  · next hnone =>
      show 1 + ((d.row s).map d.rowCalls).getD 0 + 3 * d.waits < _
      rw [show d.row s = none from hnone]
      show 1 + 3 * d.waits < _
      omega

theorem Driver.calls_of_phase {phase : DrivePhase} (h : d.phase = phase) :
    d.calls s = (d.goto phase).calls s := by
  cases d
  cases h
  rfl

/-- The calls from the ownership check to the release, which only go forward. -/
theorem Driver.mutation_calls (hmarked : MarkedRows s.tables)
    (hphase : d.phase = .own token ∨ d.phase = .mutate token ∨ d.phase = .classify token ∨
      d.phase = .recordFailure token) (clock : Int) :
    (d.call s clock).2.calls s < d.calls s := by
  rcases hphase with hphase | hphase | hphase | hphase
  · rw [calls_of_phase hphase]
    unfold call
    rw [hphase]
    dsimp only
    split
    · exact Nat.lt_succ_self 7
    · show 6 < 8
      omega
  · rw [calls_of_phase hphase]
    unfold call
    rw [hphase]
    dsimp only
    split
    · show 2 < 7
      omega
    · split
      · exact Nat.lt_of_le_of_lt releaseThen_calls (by show 4 < 7; omega)
      · exact Nat.lt_succ_self 6
      · show 2 < 7
        omega
  · rw [calls_of_phase hphase]
    unfold call
    rw [hphase]
    dsimp only
    split
    · next hany =>
        refine Nat.lt_of_le_of_lt releaseThen_calls ?_
        obtain ⟨a, ha, hmarker⟩ := (Option.any_eq_true _ _).1 hany
        have hle : d.rowCalls a ≤ 3 := rowCalls_of_marked hmarked ha hmarker
        show 2 + ((d.row s).map d.rowCalls).getD 0 < 6
        rw [show d.row s = some a from ha]
        show 2 + d.rowCalls a < 6
        omega
    · exact Nat.lt_of_le_of_lt releaseThen_calls (by show 1 < 6; omega)
  · rw [calls_of_phase hphase]
    unfold call
    rw [hphase]
    exact Nat.lt_of_le_of_lt releaseThen_calls (by show 1 < 2; omega)

/-- The calls after it. -/
theorem Driver.end_calls
    (hphase : (∃ token outcome, d.phase = .release token outcome) ∨ d.phase = .sideEffects ∨
      d.phase = .finalize)
    (clock : Int) : (d.call s clock).2.calls s < d.calls s := by
  rcases hphase with ⟨token, outcome, hphase⟩ | hphase | hphase
  · rw [calls_of_phase hphase]
    unfold call
    rw [hphase]
    exact next_calls
  · rw [calls_of_phase hphase]
    unfold call
    rw [hphase]
    dsimp only
    split
    · exact Nat.lt_succ_self 2
    · show 0 < 3
      omega
  · rw [calls_of_phase hphase]
    unfold call
    rw [hphase]
    dsimp only
    split
    · show 0 < 2
      omega
    · exact Nat.lt_succ_self 1

/-- The other calls do not count as a wait. -/
theorem Driver.call_waits (hphase : d.phase ≠ .contended) (clock : Int) :
    (d.call s clock).2.waits = d.waits := by
  unfold call
  dsimp only
  split
  · split <;> rfl
  · unfold reloaded
    split
    · rfl
    · dsimp only
      split <;> rfl
  · split <;> rfl
  · next hcontended => exact absurd hcontended hphase
  · rfl
  · split
    · rfl
    · split <;> rfl
  · rfl
  · rfl
  · rfl
  · rfl
  · split <;> rfl
  · rfl

/-- A call costs something. -/
theorem Driver.call_budget (hinv : EnforcementInv s.tables) (hmarked : MarkedRows s.tables)
    (hmatches : d.Matches s.tables) (hsolvent : d.Solvent s) (hspared : d.spared s .ok)
    (hphase : d.phase ≠ .done) (clock : Int) :
    (d.call s clock).2.budget (d.call s clock).1 < d.budget s := by
  have hafter : d.phase ≠ .contended →
      (d.call s clock).2.calls (d.call s clock).1 < d.calls s →
      (d.call s clock).2.budget (d.call s clock).1 < d.budget s := by
    intro hcontended hlt
    unfold budget
    rw [call_waits hcontended clock]
    exact Nat.add_lt_add_right hlt _
  have hbefore : d.phase ≠ .contended → (d.call s clock).2.calls s < d.calls s →
      (d.call s clock).2.budget (d.call s clock).1 < d.budget s := by
    intro hcontended hlt
    obtain ⟨leaving, hstep, -⟩ := d.call_step hmatches clock
    have hmatches' : (d.call s clock).2.Matches s.tables := by
      have hargs := d.step_args s .ok clock
      unfold Matches
      rw [show (d.call s clock).2.args = d.args from hargs]
      exact hmatches
    exact hafter hcontended (Nat.lt_of_le_of_lt (calls_le hinv hstep hmatches') hlt)
  have hother : ∀ {phase : DrivePhase}, d.phase = phase → phase ≠ .contended →
      d.phase ≠ .contended := fun hp hne => hp ▸ hne
  cases hp : d.phase with
  | begin => exact hafter (hother hp nofun) (begin_calls hp clock)
  | reload next => exact hafter (hother hp nofun) (reload_calls hp hspared clock)
  | acquire => exact hafter (hother hp nofun) (acquire_calls hp clock)
  | contended => exact contended_budget hp hsolvent clock
  | own token =>
      exact hbefore (hother hp nofun) (mutation_calls hmarked (.inl hp) clock)
  | mutate token =>
      exact hbefore (hother hp nofun) (mutation_calls hmarked (.inr (.inl hp)) clock)
  | classify token =>
      exact hbefore (hother hp nofun) (mutation_calls hmarked (.inr (.inr (.inl hp))) clock)
  | recordFailure token =>
      exact hbefore (hother hp nofun) (mutation_calls hmarked (.inr (.inr (.inr hp))) clock)
  | release token outcome =>
      exact hbefore (hother hp nofun) (end_calls (.inl ⟨token, outcome, hp⟩) clock)
  | sideEffects => exact hbefore (hother hp nofun) (end_calls (.inr (.inl hp)) clock)
  | finalize => exact hbefore (hother hp nofun) (end_calls (.inr (.inr hp)) clock)
  | done => exact absurd hp hphase

/-- And so does an error. -/
theorem Driver.onError_calls (hphase : d.phase ≠ .done) :
    (d.goto d.onError).calls s < d.calls s := by
  unfold onError
  cases hp : d.phase with
  | done => exact absurd hp hphase
  | recordFailure token =>
      rw [calls_of_phase hp]
      exact Nat.lt_of_le_of_lt releaseThen_calls (by show 1 < 2; omega)
  | release token outcome =>
      rw [calls_of_phase hp]
      exact next_calls
  | own token => rw [calls_of_phase hp]; show 2 < 8; omega
  | mutate token => rw [calls_of_phase hp]; show 2 < 7; omega
  | classify token => rw [calls_of_phase hp]; show 2 < 6; omega
  | begin => rw [calls_of_phase hp]; exact Nat.zero_lt_succ _
  | acquire => rw [calls_of_phase hp]; exact Nat.zero_lt_succ _
  | contended => rw [calls_of_phase hp]; exact Nat.zero_lt_succ _
  | sideEffects => rw [calls_of_phase hp]; show 0 < 3; omega
  | finalize => rw [calls_of_phase hp]; show 0 < 2; omega
  | reload next =>
      rw [calls_of_phase hp]
      cases next with
      | head => show 0 < 1 + _; omega
      | body => exact Nat.zero_lt_succ _
      | last => show 0 < 1; omega

theorem Driver.step_budget (hinv : EnforcementInv s.tables) (hmarked : MarkedRows s.tables)
    (hmatches : d.Matches s.tables) (hsolvent : d.Solvent s) {answer : Answer}
    (hspared : d.spared s answer) (hphase : d.phase ≠ .done) (clock : Int) :
    (d.step s answer clock).2.budget (d.step s answer clock).1 < d.budget s := by
  unfold step
  dsimp only
  cases answer with
  | ok => exact call_budget hinv hmarked hmatches hsolvent hspared hphase clock
  | lost =>
      obtain ⟨leaving, hstep, -⟩ := d.call_step hmatches clock
      have hmatches' : (d.goto d.onError).Matches s.tables := hmatches
      have hlt := Nat.lt_of_le_of_lt (calls_le hinv hstep hmatches')
        (onError_calls hphase)
      exact Nat.add_lt_add_right hlt _
  | failed => exact Nat.add_lt_add_right (onError_calls hphase) _

/-! ## Staying solvent -/

theorem Driver.runMutation_begun (token : Nat) : (d.runMutation token).begun = false := by
  unfold runMutation
  split <;> rfl

theorem Driver.releaseThen_begun :
    (d.releaseThen token outcome).begun = false := by
  unfold releaseThen
  split
  · cases outcome <;> rfl
  · rfl

theorem Driver.loopHead_begun (hstate : d.loopHead.begun = true) : d.record.state ≠ .pending := by
  intro hpending
  unfold loopHead at hstate
  rw [hpending] at hstate
  cases hstate

theorem state_of_beginEnforcing (h : s.beginEnforcing d.args.actionId = some s')
    (ha : d.row s' = some a) : a.state ≠ .pending := by
  obtain ⟨b, -, -, rfl⟩ := AdminStore.updateAction_eq_some h
  have hlookup : some { b with state := .enforcing } = some a :=
    (AList.lookup_insert _).symm.trans ha
  cases hlookup
  nofun

namespace Driver.Solvent

/-- Others do not change that. -/
theorem mono {leaving : Leaving} (h : d.Solvent s) (hinv : EnforcementInv s.tables)
    (hmatches : d.Matches s.tables) (hstep : TableStep s.tables leaving s'.tables) :
    d.Solvent s' := by
  refine ⟨h.counted, h.waits, fun hbegun a' ha' => ?_⟩
  obtain ⟨a, ha, -⟩ := hmatches
  obtain ⟨a'', ha'', hrow⟩ := hstep.row_step hinv ha
  have hsame : a'' = a' := Option.some.inj (ha''.symm.trans ha')
  rw [← hsame]
  exact hrow.not_pending (h.begun hbegun a ha)

theorem goto (h : d.Solvent s) (hphase : d.phase ≠ .done) {phase : DrivePhase}
    (hbegun : phase.begun = false) : (d.goto phase).Solvent s' :=
  ⟨h.counted, fun _ => h.waits hphase, fun htrue => by
    rw [show (d.goto phase).phase.begun = false from hbegun] at htrue
    cases htrue⟩

theorem reloaded (h : d.Solvent s) {next : Reload} (hphase : d.phase = .reload next) :
    (d.reloaded (d.row s) next).Solvent s := by
  have hwaits := h.waits (by rw [hphase]; nofun)
  unfold Driver.reloaded
  cases ha : d.row s with
  | none => exact h.goto (by rw [hphase]; nofun) rfl
  | some record =>
      cases next with
      | head =>
          refine ⟨h.counted, fun _ => hwaits, fun hbegun a hrow => ?_⟩
          have hsame : record = a := Option.some.inj (ha.symm.trans hrow)
          rw [← hsame]
          exact loopHead_begun (d := { d with record }) hbegun
      | body =>
          refine ⟨h.counted, fun _ => hwaits, fun _ a hrow => ?_⟩
          exact h.begun (by rw [hphase]; rfl) a hrow
      | last => exact ⟨h.counted, fun _ => hwaits, fun hbegun => by cases hbegun⟩

theorem call (h : d.Solvent s) (clock : Int) :
    (d.call s clock).2.Solvent (d.call s clock).1 := by
  unfold Driver.call
  dsimp only
  split
  · next hphase =>
      have hnot : d.phase ≠ .done := by rw [hphase]; nofun
      split
      · next s' hs' =>
          exact ⟨h.counted, fun _ => h.waits hnot,
            fun _ a ha => state_of_beginEnforcing hs' ha⟩
      · exact h.goto hnot rfl
  · next next hphase => exact h.reloaded hphase
  · next hphase =>
      have hnot : d.phase ≠ .done := by rw [hphase]; nofun
      split
      · exact h.goto hnot (runMutation_begun _)
      · exact ⟨h.counted, fun _ => h.waits hnot,
          fun _ a ha => h.begun (by rw [hphase]; rfl) a ha⟩
  · next hphase =>
      have hnot : d.phase ≠ .done := by rw [hphase]; nofun
      split
      · split
        · dsimp only
          split
          · exact ⟨h.waits hnot, fun hdone => absurd rfl hdone, fun hbegun => by cases hbegun⟩
          · next hless =>
              exact ⟨h.waits hnot, fun _ => Nat.not_le.1 hless, fun hbegun => by cases hbegun⟩
        · exact h.goto hnot rfl
      · exact h.goto hnot rfl
  · next hphase =>
      have hnot : d.phase ≠ .done := by rw [hphase]; nofun
      refine h.goto hnot ?_
      split <;> rfl
  · next hphase =>
      have hnot : d.phase ≠ .done := by rw [hphase]; nofun
      split
      · exact h.goto hnot rfl
      · split
        · exact h.goto hnot releaseThen_begun
        · exact h.goto hnot rfl
        · exact h.goto hnot rfl
  · next hphase => exact h.goto (by rw [hphase]; nofun) releaseThen_begun
  · next hphase => exact h.goto (by rw [hphase]; nofun) releaseThen_begun
  · next outcome hphase =>
      refine h.goto (by rw [hphase]; nofun) ?_
      cases outcome <;> rfl
  · next hphase =>
      refine h.goto (by rw [hphase]; nofun) ?_
      split <;> rfl
  · next hphase =>
      have hnot : d.phase ≠ .done := by rw [hphase]; nofun
      split
      · exact h.goto hnot rfl
      · exact h.goto hnot rfl
  · exact h

/-- An error takes a driver out of the rounds. -/
theorem onError (h : d.Solvent s) : (d.goto d.onError).Solvent s' := by
  cases hp : d.phase with
  | done =>
      unfold Driver.onError
      rw [hp]
      exact ⟨h.counted, fun hne => absurd rfl hne, fun hbegun => by cases hbegun⟩
  | begin | acquire | contended | reload | own | mutate | classify | sideEffects | finalize =>
      refine h.goto (by rw [hp]; nofun) ?_
      unfold Driver.onError
      rw [hp]
      rfl
  | recordFailure =>
      refine h.goto (by rw [hp]; nofun) ?_
      unfold Driver.onError
      rw [hp]
      exact releaseThen_begun
  | release token outcome =>
      refine h.goto (by rw [hp]; nofun) ?_
      unfold Driver.onError
      rw [hp]
      cases outcome <;> rfl

theorem step (h : d.Solvent s) (answer : Answer) (clock : Int) :
    (d.step s answer clock).2.Solvent (d.step s answer clock).1 := by
  unfold Driver.step
  dsimp only
  cases answer with
  | ok => exact h.call clock
  | lost => exact h.onError
  | failed => exact h.onError

end Driver.Solvent

/-! ## New drivers -/

/-- A driver as it is handed its action: with the row of the table. -/
def Driver.Fresh (d : Driver) (s : AdminStore) : Prop :=
  ∃ args record, d = .start args record ∧ s.actions.lookup args.actionId = some record

theorem Driver.Fresh.solvent (h : d.Fresh s) : d.Solvent s := by
  obtain ⟨args, record, rfl, hrecord⟩ := h
  refine ⟨Nat.zero_le _, fun _ => Nat.zero_lt_succ _, fun hbegun a ha => ?_⟩
  have hsame : record = a := Option.some.inj (hrecord.symm.trans ha)
  rw [← hsame]
  exact loopHead_begun (d := { args, record, phase := .done }) hbegun

theorem resolveReportWithEnforcement_fresh {r : ResolveRequest}
    (hd : (resolveReportWithEnforcement s r).2 = some d) :
    d.Fresh (resolveReportWithEnforcement s r).1 := by
  unfold resolveReportWithEnforcement at hd ⊢
  split at hd
  · cases hd
  · dsimp only at hd ⊢
    split at hd
    · cases hd
    · next hvalid =>
        rw [if_neg hvalid]
        generalize hclaim : s.claimReport r.key _ = claim at hd ⊢
        split at hd
        · cases hd
          exact ⟨_, _, rfl, (claimReport_claims (.inl hclaim)).1⟩
        · cases hd
          exact ⟨_, _, rfl, (claimReport_claims (.inr hclaim)).1⟩
        · cases hd

theorem findDirectAction_fresh {input : AdminStore.DirectActionInput}
    {claim : AdminStore.DirectClaim} (h : s.findDirectAction input = some claim)
    (hd : driveDirectClaim input.community claim = some d) : d.Fresh s := by
  obtain ⟨e, he, rfl⟩ := Option.map_eq_some_iff.1 h
  have hmem := HMap.mem_entries_iff.1 (List.mem_of_find?_eq_some he)
  rcases classifyDirect_cases e.1 e.2 input with hclass | hclass
  · rw [hclass] at hd
    cases hd
    exact ⟨_, _, rfl, hmem⟩
  · rw [hclass] at hd
    cases hd

theorem claimDirectAction_fresh {input : AdminStore.DirectActionInput}
    (hd : driveDirectClaim input.community (s.claimDirectAction input).2 = some d) :
    d.Fresh (s.claimDirectAction input).1 := by
  unfold AdminStore.claimDirectAction at hd ⊢
  split at hd
  · next found hfound => exact findDirectAction_fresh hfound hd
  · dsimp only at hd ⊢
    split at hd
    · next hshape =>
        rw [if_pos hshape]
        cases hd
        exact ⟨_, _, rfl, AList.lookup_insert _⟩
    · cases hd

theorem recoverStranded_fresh {id : Nat} {clock : Int} {author : Option PublicKey}
    (hd : (recoverStranded s id clock author).2 = some d) :
    d.Fresh (recoverStranded s id clock author).1 := by
  unfold recoverStranded at hd ⊢
  split at hd
  · cases hd
  · next s' token hs' =>
      obtain ⟨row, hid, hrecover⟩ := Option.bind_eq_some_iff.1 hd
      unfold recoverOne at hrecover
      split at hrecover
      · cases hrecover
        exact ⟨_, _, rfl, hid⟩
      · split at hrecover
        · cases hrecover
          exact ⟨_, _, rfl, hid⟩
        · obtain ⟨report, -, rfl⟩ := Option.map_eq_some_iff.1 hrecover
          exact ⟨_, _, rfl, hid⟩

/-! ## The machine -/

/-- What a move does to the drivers. -/
inductive DriversStep (s : AdminState) (m : AdminMove) : Prop
  | same (h : (s.step m).drivers = s.drivers)
  | new (d : Driver) (h : (s.step m).drivers = s.drivers ++ [d])
      (hfresh : d.Fresh (s.step m).toAdminStore)
  | driven (i : Nat) (answer : Answer) (clock : Int) (d : Driver)
      (hm : m = .drive i answer clock) (hd : s.drivers[i]? = some d)
      (h : s.step m = ⟨(d.step s.toAdminStore answer clock).1,
        s.drivers.set i (d.step s.toAdminStore answer clock).2⟩)

def AdminMove.drives (i : Nat) : AdminMove → Bool
  | .drive j _ _ => i = j
  | _ => false

/-- No driver without a lease finds its action cancelled. -/
def spares (s : AdminState) : AdminMove → Prop
  | .drive i answer _ => ∀ d ∈ s.drivers[i]?, d.spared s.toAdminStore answer
  | _ => True

instance (s : AdminState) : DecidablePred (spares s) := fun m =>
  match m with
  | .drive i answer _ =>
      inferInstanceAs (Decidable (∀ d ∈ s.drivers[i]?, d.spared s.toAdminStore answer))
  | .resolve _ _ | .direct _ _ | .findDirect _ | .recover _ _ _ _ | .decide _ _ _
  | .cancel _ _ _ _ | .reopen _ _ _ _ _ | .report _ _ _ _ | .tick _ | .setMembers _
  | .setEvent _ _ | .setBan _ _ => isTrue trivial

namespace AdminState

variable {s : AdminState} {m : AdminMove}

theorem accept_drivers {result : AdminStore × Option Driver} (answer : Answer)
    (hstep : s.step m = s.accept answer result)
    (hfresh : ∀ d, result.2 = some d → d.Fresh result.1) : DriversStep s m := by
  cases answer with
  | ok =>
      cases hresult : result.2 with
      | none =>
          refine .same ?_
          rw [hstep]
          simp only [accept, hresult, Option.toList_none, List.append_nil]
      | some d =>
          refine .new d ?_ ?_
          · rw [hstep]
            simp only [accept, hresult, Option.toList_some]
          · rw [hstep]
            exact hfresh d hresult
  | lost => exact .same (by rw [hstep]; rfl)
  | failed => exact .same (by rw [hstep]; rfl)

theorem transact_drivers {result : Option AdminStore} {answer : Answer} :
    (s.transact answer result).drivers = s.drivers := by
  unfold transact
  split <;> rfl

theorem step_drivers (s : AdminState) (m : AdminMove) : DriversStep s m := by
  cases m with
  | resolve request answer =>
      exact accept_drivers answer rfl fun d => resolveReportWithEnforcement_fresh
  | direct input answer => exact accept_drivers answer rfl fun d => claimDirectAction_fresh
  | findDirect input =>
      refine accept_drivers .ok rfl fun d hd => ?_
      obtain ⟨claim, hclaim, hd⟩ := Option.bind_eq_some_iff.1 hd
      exact findDirectAction_fresh hclaim hd
  | recover id clock author answer =>
      exact accept_drivers answer rfl fun d => recoverStranded_fresh
  | drive i answer clock =>
      cases hd : s.drivers[i]? with
      | none => exact .same (by simp only [step, hd])
      | some d => exact .driven i answer clock d rfl hd (by simp only [step, hd])
  | decide key terminal answer => exact .same transact_drivers
  | cancel id key cancelledBy answer => exact .same transact_drivers
  | reopen key requestId actor reason answer => exact .same transact_drivers
  | report key target channelId illegal => exact .same rfl
  | tick micros => exact .same rfl
  | setMembers members => exact .same rfl
  | setEvent key row => exact .same rfl
  | setBan key row => exact .same rfl

end AdminState

/-- The invariant of the tables, with drivers that can pay for their calls. -/
structure LoopInv (s : AdminState) : Prop where
  admin : AdminInv s
  marked : MarkedRows s.tables
  solvent : ∀ (i : Nat) (d : Driver), s.drivers[i]? = some d → d.Solvent s.toAdminStore

theorem LoopInv.step {s : AdminState} (h : LoopInv s) (m : AdminMove) : LoopInv (s.step m) := by
  obtain ⟨leaving, hstep, -⟩ := (AdminState.step_spec h.admin m).step
  have hold : ∀ (i : Nat) (d : Driver), s.drivers[i]? = some d →
      d.Solvent (s.step m).toAdminStore := fun i d hd =>
    (h.solvent i d hd).mono h.admin.tables (h.admin.drivers i d hd) hstep
  refine ⟨AdminState.step_inv h.admin m, h.marked.step hstep, fun i d hd => ?_⟩
  cases AdminState.step_drivers s m with
  | same hsame => exact hold i d (hsame ▸ hd)
  | new d' hnew hfresh =>
      rw [hnew] at hd
      rcases getElem?_snoc_cases hd with ⟨-, rfl⟩ | ⟨-, hd⟩
      · exact hfresh.solvent
      · exact hold i d hd
  | driven j answer clock d₀ hm hd₀ hdriven =>
      have hset := congrArg AdminState.drivers hdriven
      rw [hset] at hd
      rcases getElem?_set_cases hd with ⟨-, rfl, -⟩ | ⟨-, hd⟩
      · rw [hdriven]
        exact (h.solvent j d₀ hd₀).step answer clock
      · exact hold i d hd

theorem adminMachine_loopInv (ms : List AdminMove) : LoopInv (adminMachine.run ms) := by
  have hinit : LoopInv adminMachine.init := by
    refine ⟨adminMachine_inv [], ?_, ?_⟩
    · intro id a h
      cases h
    · intro i d h
      cases h
  exact adminMachine.stable_runFrom (I := LoopInv) (fun s m h => h.step m) hinit ms

/-! ## Returning -/

theorem Driver.step_done (hphase : d.phase = .done) (answer : Answer) (clock : Int) :
    (d.step s answer clock).2.phase = .done := by
  have hcall : d.call s clock = (s, d) := by
    unfold call
    rw [hphase]
  have herror : d.onError = .done := by
    unfold onError
    rw [hphase]
  unfold step
  rw [hcall]
  cases answer with
  | ok => exact hphase
  | lost => exact herror
  | failed => exact herror

namespace AdminState

variable {s : AdminState} {m : AdminMove} {i : Nat}

theorem driver_called (hd : s.drivers[i]? = some d) (answer : Answer) (clock : Int) :
    (s.step (.drive i answer clock)).drivers[i]? = some (d.step s.toAdminStore answer clock).2 ∧
      (s.step (.drive i answer clock)).toAdminStore =
        (d.step s.toAdminStore answer clock).1 := by
  have hbound : i < s.drivers.length := (List.getElem?_eq_some_iff.1 hd).1
  have hstep : s.step (.drive i answer clock) =
      ⟨(d.step s.toAdminStore answer clock).1,
        s.drivers.set i (d.step s.toAdminStore answer clock).2⟩ := by
    simp only [step, hd]
  rw [hstep]
  exact ⟨List.getElem?_set_self hbound, rfl⟩

theorem driver_kept (hd : s.drivers[i]? = some d) (hdrives : m.drives i = false) :
    (s.step m).drivers[i]? = some d := by
  cases step_drivers s m with
  | same h => rw [h, hd]
  | new d' h => rw [h, List.getElem?_append_left (List.getElem?_eq_some_iff.1 hd).1, hd]
  | driven j answer clock d' hm _ h =>
      have hne : j ≠ i := by
        rintro rfl
        rw [hm] at hdrives
        exact of_decide_eq_false hdrives rfl
      rw [h]
      show (s.drivers.set j _)[i]? = _
      rw [List.getElem?_set_ne hne, hd]

end AdminState

/-- A move, as a driver sees it: a call of its own, or nothing it pays for. -/
theorem LoopInv.driver_step {s : AdminState} {m : AdminMove} {i : Nat} (h : LoopInv s)
    (hd : s.drivers[i]? = some d) (hspares : spares s m) :
    ∃ d', (s.step m).drivers[i]? = some d' ∧
      ((d.phase = .done ∧ d'.phase = .done) ∨
        (m.drives i).toNat + d'.budget (s.step m).toAdminStore ≤ d.budget s.toAdminStore) := by
  have hmatches := h.admin.drivers i d hd
  cases hdrives : m.drives i with
  | false =>
      obtain ⟨leaving, hstep, -⟩ := (AdminState.step_spec h.admin m).step
      have hcalls := calls_le h.admin.tables hstep hmatches
      refine ⟨d, AdminState.driver_kept hd hdrives, .inr ?_⟩
      rw [Bool.toNat_false, Nat.zero_add]
      exact Nat.add_le_add_right hcalls _
  | true =>
      cases m with
      | drive j answer clock =>
          obtain rfl : i = j := of_decide_eq_true hdrives
          obtain ⟨hcalled, hstore⟩ := AdminState.driver_called hd answer clock
          refine ⟨_, hcalled, ?_⟩
          by_cases hphase : d.phase = .done
          · exact .inl ⟨hphase, step_done hphase answer clock⟩
          · have hless := step_budget h.admin.tables h.marked hmatches (h.solvent i d hd)
              (hspares d hd) hphase clock
            rw [hstore, Bool.toNat_true, Nat.add_comm]
            exact .inr hless
      | _ => cases hdrives

theorem driver_done {s : AdminState} {i : Nat} (hd : s.drivers[i]? = some d)
    (hphase : d.phase = .done) (ms : List AdminMove) :
    ∃ d', (adminMachine.runFrom s ms).drivers[i]? = some d' ∧ d'.phase = .done := by
  refine adminMachine.stable_runFrom
    (I := fun s => ∃ d', s.drivers[i]? = some d' ∧ d'.phase = .done) ?_ ⟨d, hd, hphase⟩ ms
  rintro s m ⟨d, hd, hphase⟩
  cases hdrives : m.drives i with
  | false => exact ⟨d, AdminState.driver_kept hd hdrives, hphase⟩
  | true =>
      cases m with
      | drive j answer clock =>
          obtain rfl : i = j := of_decide_eq_true hdrives
          exact ⟨_, (AdminState.driver_called hd answer clock).1,
            step_done hphase answer clock⟩
      | _ => cases hdrives

/-- A run, as a driver sees it. -/
theorem LoopInv.driver_run {s : AdminState} {i : Nat} (h : LoopInv s)
    (hd : s.drivers[i]? = some d) {ms : List AdminMove}
    (hspares : adminMachine.Meets spares s ms) :
    ∃ d', (adminMachine.runFrom s ms).drivers[i]? = some d' ∧
      (d'.phase = .done ∨ ms.countP (·.drives i) +
        d'.budget (adminMachine.runFrom s ms).toAdminStore ≤ d.budget s.toAdminStore) := by
  induction ms generalizing s d with
  | nil => exact ⟨d, hd, .inr (Nat.le_of_eq (Nat.zero_add _))⟩
  | cons m ms ih =>
      obtain ⟨d₁, hd₁, ⟨-, hdone⟩ | hpaid⟩ := h.driver_step hd hspares.1
      · obtain ⟨d', hd', hphase⟩ := driver_done hd₁ hdone ms
        exact ⟨d', hd', .inl hphase⟩
      · obtain ⟨d', hd', hrest⟩ := ih (h.step m) hd₁ hspares.2
        refine ⟨d', hd', hrest.imp id fun hrest => ?_⟩
        have hrun : adminMachine.runFrom s (m :: ms) = adminMachine.runFrom (s.step m) ms := rfl
        have hcount : (m :: ms).countP (·.drives i) =
            ms.countP (·.drives i) + (m.drives i).toNat := by
          rw [List.countP_cons]
          cases m.drives i <;> rfl
        rw [hrun, hcount]
        omega

theorem Driver.rowCalls_max : d.rowCalls a ≤ 13 := by
  by_cases hstate : a.state = .pending
  · unfold rowCalls
    rw [hstate]
  · exact (rowCalls_of_begun hstate).trans (by decide)

theorem Driver.calls_max : d.calls s ≤ 15 := by
  have hrow : ((d.row s).map d.rowCalls).getD 0 ≤ 13 := by
    cases d.row s with
    | none => exact Nat.zero_le _
    | some a => exact rowCalls_max
  unfold calls
  split <;> omega

/-- Whatever other drivers, cancels, reopens and claims do between its calls, and
however these are answered: a driver makes fifteen calls at most and three for each
time it waits for a lease, and it waits thirty times at most. -/
theorem enforcement_returns (ms ms' : List AdminMove) (i : Nat) (d : Driver)
    (hd : (adminMachine.run ms).drivers[i]? = some d)
    (hspares : adminMachine.Meets spares (adminMachine.run ms) ms') :
    ∃ d', (adminMachine.run (ms ++ ms')).drivers[i]? = some d' ∧
      d'.contentionAttempts ≤ maxContentionAttempts ∧
      (d'.phase ≠ .done → ms'.countP (·.drives i) ≤
        15 + 3 * (d'.contentionAttempts - d.contentionAttempts)) ∧
      (15 + 3 * maxContentionAttempts ≤ ms'.countP (·.drives i) → d'.phase = .done) := by
  obtain ⟨d', hd', hrun⟩ := (adminMachine_loopInv ms).driver_run hd hspares
  rw [← adminMachine.run_append] at hd' hrun
  have hsolvent := (adminMachine_loopInv (ms ++ ms')).solvent i d' hd'
  have hpaid : d'.phase ≠ .done → ms'.countP (·.drives i) ≤
      15 + 3 * (d'.contentionAttempts - d.contentionAttempts) := by
    intro hphase
    have hwaits := hsolvent.waits hphase
    have hbudget := hrun.resolve_left hphase
    have hmax : d.calls (adminMachine.run ms).toAdminStore ≤ 15 := calls_max
    unfold budget waits at hbudget
    omega
  refine ⟨d', hd', hsolvent.counted, hpaid, fun hmany => ?_⟩
  by_contra hphase
  have hless := hsolvent.waits hphase
  have hcount := hpaid hphase
  omega

/-- The ban of `banWithLostAnswer`, and the worker that ends it. -/
theorem ban_returns :
    ∃ d d', (adminMachine.run (banWithLostAnswer.take 2)).drivers[0]? = some d ∧
      (adminMachine.run banWithLostAnswer).drivers[0]? = some d' ∧
      d'.contentionAttempts ≤ maxContentionAttempts ∧
      (d'.phase ≠ .done → (banWithLostAnswer.drop 2).countP (·.drives 0) ≤
        15 + 3 * (d'.contentionAttempts - d.contentionAttempts)) := by
  obtain ⟨d, hd⟩ : ∃ d, (adminMachine.run (banWithLostAnswer.take 2)).drivers[0]? = some d :=
    ⟨_, rfl⟩
  obtain ⟨d', hd', hcounted, hpaid, -⟩ := enforcement_returns (banWithLostAnswer.take 2)
    (banWithLostAnswer.drop 2) 0 d hd (by decide +kernel)
  exact ⟨d, d', hd, hd', hcounted, hpaid⟩

/-! ## A cancelled action -/

/-- A round that finds the action cancelled and asks for its lease all the same. -/
structure Driver.Circles (d : Driver) (s : AdminStore) : Prop where
  lease : d.args.heldLease = none
  row : ∃ a, s.actions.lookup d.args.actionId = some a ∧ a.state = .cancelled ∧
    a.stepMarker = none
  phase : d.phase = .acquire ∨ d.phase = .contended ∨ d.phase = .reload .head

/-- No call of it changes the tables, and none ends it. -/
theorem Driver.Circles.call (h : d.Circles s) (clock : Int) :
    (d.call s clock).1 = s ∧ (d.call s clock).2.Circles s := by
  obtain ⟨hlease, ⟨a, ha, hstate, hmarker⟩, hphase⟩ := h
  have hleasable : a.leasable = false := by
    unfold ActionRow.leasable
    rw [hstate]
    rfl
  unfold Driver.call
  rcases hphase with hphase | hphase | hphase
  · have hrefused : s.acquireActionLease d.args.actionId (clock + httpLeaseMicros) = none := by
      unfold AdminStore.acquireActionLease AdminStore.leaseAction AdminStore.updateAction
      rw [ha]
      simp only [hleasable, Bool.false_and, Bool.false_eq_true, if_false, Option.map_none]
    rw [hphase]
    dsimp only
    rw [hrefused]
    exact ⟨rfl, hlease, ⟨a, ha, hstate, hmarker⟩, .inr (.inl rfl)⟩
  · rw [hphase]
    dsimp only
    rw [ha]
    simp only [hleasable, Bool.false_eq_true, if_false]
    exact ⟨trivial, hlease, ⟨a, ha, hstate, hmarker⟩, .inr (.inr rfl)⟩
  · rw [hphase]
    dsimp only
    rw [ha]
    refine ⟨rfl, hlease, ⟨a, ha, hstate, hmarker⟩, .inl ?_⟩
    show loopHead { d with record := a } = .acquire
    unfold loopHead loopBody
    rw [hstate, hmarker, hlease]

/-- A kick fails and is cancelled, another request takes the report, and the first
one is sent again. -/
def retryOfCancelled : List AdminMove :=
  let key : ReportKey := (⟨.ofByte 1⟩, .ofByte 2)
  let request : ResolveRequest :=
    { key, requestId := .ofByte 4, actor := .ofByte 5, action := .kick
      author := some (.ofByte 6) }
  [.report key (.event (.ofByte 3)) (some (.ofByte 8)) false, .resolve request .ok,
    .drive 0 .ok 0, .drive 0 .ok 0, .drive 0 .ok 0, .drive 0 .ok 0, .drive 0 .ok 0,
    .drive 0 .ok 0, .drive 0 .ok 0, .cancel 0 key (.ofByte 5) .ok,
    .resolve { request with requestId := .ofByte 7 } .ok, .resolve request .ok]

/-- Its driver goes round for ever, without waiting once. -/
theorem cancelled_never_returns :
    ¬ ∃ bound : Nat, ∀ (ms ms' : List AdminMove) (i : Nat) (d : Driver),
      (adminMachine.run ms).drivers[i]? = some d → bound ≤ ms'.countP (·.drives i) →
      ∃ d', (adminMachine.run (ms ++ ms')).drivers[i]? = some d' ∧ d'.phase = .done := by
  rintro ⟨bound, hbound⟩
  let move : AdminMove := .drive 2 .ok 0
  obtain ⟨d, hd, hcircles⟩ : ∃ d, (adminMachine.run retryOfCancelled).drivers[2]? = some d ∧
      d.Circles (adminMachine.run retryOfCancelled).toAdminStore :=
    ⟨_, rfl, rfl, ⟨_, rfl, rfl, rfl⟩, .inl rfl⟩
  have hround : ∀ n : Nat, ∃ d,
      (adminMachine.run (retryOfCancelled ++ List.replicate n move)).drivers[2]? = some d ∧
      d.Circles (adminMachine.run (retryOfCancelled ++ List.replicate n move)).toAdminStore := by
    intro n
    induction n with
    | zero => exact ⟨d, by rw [List.replicate_zero, List.append_nil]; exact ⟨hd, hcircles⟩⟩
    | succ n ih =>
        obtain ⟨d, hd, hcircles⟩ := ih
        rw [List.replicate_succ', ← List.append_assoc, adminMachine.run_snoc]
        obtain ⟨hcalled, hstore⟩ := AdminState.driver_called hd .ok 0
        obtain ⟨hsame, hcircles'⟩ := hcircles.call 0
        have hstays : (adminMachine.step _ move).toAdminStore = _ := hstore.trans hsame
        exact ⟨_, hcalled, by rw [hstays]; exact hcircles'⟩
  obtain ⟨d', hd', hdone⟩ := hbound retryOfCancelled (List.replicate bound move) 2 d hd
    (by rw [List.countP_replicate]; exact Nat.le_refl _)
  obtain ⟨d'', hd'', hcircles''⟩ := hround bound
  rw [hd'] at hd''
  cases hd''
  rcases hcircles''.phase with h | h | h <;> rw [hdone] at h <;> cases h

end Buzz.Relay
