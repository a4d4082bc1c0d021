import Buzz.Lib.Machine

/-!
# Schedules

A schedule gives a machine a move for every moment. What holds of every run
holds along it; what has to happen in the end needs moves that keep coming, and
`after_eventually` takes them as a rank they bring down.
-/

namespace Buzz.Lib

variable {σ μ : Type}

namespace Machine

variable (M : Machine σ μ) {cond : σ → μ → Prop} {moves : Nat → μ}

/-- The state after the first `n` moves of the schedule. -/
def after (moves : Nat → μ) : Nat → σ
  | 0 => M.init
  | n + 1 => M.step (after moves n) (moves n)

variable {M}

theorem inv_after {I : σ → Prop} (hinit : I M.init)
    (hstep : ∀ s m, I s → cond s m → I (M.step s m))
    (hcond : ∀ n, cond (M.after moves n) (moves n)) (n : Nat) : I (M.after moves n) := by
  induction n with
  | zero => exact hinit
  | succ n ih => exact hstep _ _ ih (hcond n)

/-- Until the goal is reached, a rank does not grow and every firing move brings
it down; so it is reached. -/
theorem after_eventually {P : Nat → σ → Prop} {Q : σ → Prop} {fires : σ → μ → Prop}
    (hkeep : ∀ r s m, P r s → cond s m → Q (M.step s m) ∨ ∃ r' ≤ r, P r' (M.step s m))
    (hfire : ∀ r s m, P r s → cond s m → fires s m →
      Q (M.step s m) ∨ ∃ r' < r, P r' (M.step s m))
    (hcond : ∀ n, cond (M.after moves n) (moves n))
    (hfair : ∀ n, ∃ k, n ≤ k ∧ fires (M.after moves k) (moves k)) {n r : Nat}
    (h : P r (M.after moves n)) : ∃ k, n ≤ k ∧ Q (M.after moves k) := by
  induction r using Nat.strongRecOn generalizing n with
  | ind r ih =>
      -- Whatever is not there yet has its rank.
      have hkept : ∀ d, (∃ k, n ≤ k ∧ Q (M.after moves k)) ∨
          ∃ r' ≤ r, P r' (M.after moves (n + d)) := by
        intro d
        induction d with
        | zero => exact .inr ⟨r, Nat.le_refl r, h⟩
        | succ d ihd =>
            rcases ihd with hgoal | ⟨r', hr', hP⟩
            · exact .inl hgoal
            · rcases hkeep r' _ (moves (n + d)) hP (hcond (n + d)) with hQ | ⟨r'', hr'', hP⟩
              · exact .inl ⟨n + d + 1, Nat.le_add_right_of_le (Nat.le_add_right n d), hQ⟩
              · exact .inr ⟨r'', Nat.le_trans hr'' hr', hP⟩
      obtain ⟨f, hnf, hfires⟩ := hfair n
      obtain ⟨d, rfl⟩ := Nat.exists_eq_add_of_le hnf
      rcases hkept d with hgoal | ⟨r', hr', hP⟩
      · exact hgoal
      · have hlater : n ≤ n + d + 1 := Nat.le_add_right_of_le (Nat.le_add_right n d)
        rcases hfire r' _ _ hP (hcond (n + d)) hfires with hQ | ⟨r'', hr'', hP⟩
        · exact ⟨n + d + 1, hlater, hQ⟩
        · obtain ⟨k, hk, hQ⟩ := ih r'' (Nat.lt_of_lt_of_le hr'' hr') (n := n + d + 1) hP
          exact ⟨k, Nat.le_trans hlater hk, hQ⟩

end Machine

end Buzz.Lib
