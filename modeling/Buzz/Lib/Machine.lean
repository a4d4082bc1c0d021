import Mathlib.Algebra.GroupWithZero.Nat
import Mathlib.Data.List.Induction

/-!
# Runs of a state machine

A machine takes one move at a time. Most results about it hold of every run;
some only of the runs whose moves keep to a condition on the state they are
taken in, and `Meets` says that of a whole run.

The processes of a concurrent program sit in a list inside the state, and a
move of process `i` is a `List.set`. The last section says what that leaves of
the others.
-/

namespace Buzz.Lib

variable {σ μ : Type} {π : Type*}

structure Machine (σ μ : Type) where
  init : σ
  step : σ → μ → σ

namespace Machine

variable (M : Machine σ μ) {cond : σ → μ → Prop} {s : σ} {ms : List μ}
  {I : σ → Prop}

def runFrom (s : σ) (ms : List μ) : σ := ms.foldl M.step s

def run (ms : List μ) : σ := M.runFrom M.init ms

/-- Every move of the run meets the condition where it is taken. -/
def Meets (cond : σ → μ → Prop) : σ → List μ → Prop
  | _, [] => True
  | s, m :: ms => cond s m ∧ Meets cond (M.step s m) ms

instance decidableMeets [∀ s m, Decidable (cond s m)] :
    ∀ s ms, Decidable (M.Meets cond s ms)
  | _, [] => isTrue trivial
  | s, m :: ms =>
      have := decidableMeets (M.step s m) ms
      inferInstanceAs (Decidable (cond s m ∧ M.Meets cond (M.step s m) ms))

theorem runFrom_append (s : σ) (ms ms' : List μ) :
    M.runFrom s (ms ++ ms') = M.runFrom (M.runFrom s ms) ms' :=
  List.foldl_append

theorem run_append (ms ms' : List μ) : M.run (ms ++ ms') = M.runFrom (M.run ms) ms' :=
  M.runFrom_append M.init ms ms'

theorem meets_append {ms' : List μ} :
    M.Meets cond s (ms ++ ms') ↔
      M.Meets cond s ms ∧ M.Meets cond (M.runFrom s ms) ms' := by
  induction ms generalizing s with
  | nil => exact ⟨fun h => ⟨trivial, h⟩, fun h => h.2⟩
  | cons m ms ih =>
      show cond s m ∧ M.Meets cond (M.step s m) (ms ++ ms') ↔
        (cond s m ∧ M.Meets cond (M.step s m) ms) ∧ _
      rw [ih, and_assoc]
      exact Iff.rfl

theorem meets_of_forall (h : ∀ s m, cond s m) : M.Meets cond s ms := by
  induction ms generalizing s with
  | nil => exact trivial
  | cons m ms ih => exact ⟨h s m, ih⟩

theorem meets_and {cond' : σ → μ → Prop} (h : M.Meets cond s ms) (h' : M.Meets cond' s ms) :
    M.Meets (fun s m => cond s m ∧ cond' s m) s ms := by
  induction ms generalizing s with
  | nil => exact trivial
  | cons m ms ih => exact ⟨⟨h.1, h'.1⟩, ih h.2 h'.2⟩

/-- What every step that meets the condition keeps, a run keeps. -/
theorem inv_runFrom (hstep : ∀ s m, I s → cond s m → I (M.step s m)) (hs : I s)
    (hms : M.Meets cond s ms) : I (M.runFrom s ms) := by
  induction ms generalizing s with
  | nil => exact hs
  | cons m ms ih => exact ih (hstep s m hs hms.1) hms.2

theorem inv_run (hinit : I M.init)
    (hstep : ∀ s m, I s → cond s m → I (M.step s m))
    (hms : M.Meets cond M.init ms) :
    I (M.run ms) :=
  M.inv_runFrom hstep hinit hms

/-- A property of the moves so far, for what a state alone does not remember. -/
theorem hist_run {P : List μ → Prop} (hnil : P [])
    (hsnoc : ∀ ms m, M.Meets cond M.init ms → P ms → cond (M.run ms) m → P (ms ++ [m]))
    (hms : M.Meets cond M.init ms) : P ms := by
  induction ms using List.reverseRecOn with
  | nil => exact hnil
  | append_singleton ms m ih =>
      obtain ⟨hpre, hlast⟩ := M.meets_append.1 hms
      exact hsnoc ms m hpre (ih hpre) hlast.1

theorem run_snoc (ms : List μ) (m : μ) : M.run (ms ++ [m]) = M.step (M.run ms) m :=
  M.run_append ms [m]

/-- What no step takes away is still there at the end of a run. -/
theorem stable_runFrom (hstep : ∀ s m, I s → I (M.step s m)) (hs : I s)
    (ms : List μ) : I (M.runFrom s ms) := by
  induction ms generalizing s with
  | nil => exact hs
  | cons m ms ih => exact ih (hstep s m hs)

end Machine

/-! ## A list of processes -/

variable {procs : List π} {i j : Nat} {p q : π}

/-- A process of the list after one of them moved: the one that moved, or
another one as it was. -/
theorem getElem?_set_cases (h : (procs.set i q)[j]? = some p) :
    (j = i ∧ p = q ∧ i < procs.length) ∨ (j ≠ i ∧ procs[j]? = some p) := by
  rw [List.getElem?_set] at h
  split at h
  · next hij =>
      split at h
      · next hlt => exact .inl ⟨hij.symm, (Option.some.inj h).symm, hlt⟩
      · cases h
  · next hij => exact .inr ⟨fun hji => hij hji.symm, h⟩

/-- A process of the list after a new one joined. -/
theorem getElem?_snoc_cases (h : (procs ++ [q])[j]? = some p) :
    (j = procs.length ∧ p = q) ∨ (j < procs.length ∧ procs[j]? = some p) := by
  rcases Nat.lt_or_ge j procs.length with hlt | hge
  · rw [List.getElem?_append_left hlt] at h
    exact .inr ⟨hlt, h⟩
  · rw [List.getElem?_append_right hge, List.getElem?_singleton] at h
    split at h
    · next hzero => exact .inl ⟨by omega, (Option.some.inj h).symm⟩
    · cases h

/-- A process of the list after all of them moved. -/
theorem getElem?_map_cases {f : π → π} (h : (procs.map f)[i]? = some q) :
    ∃ p, procs[i]? = some p ∧ q = f p := by
  rw [List.getElem?_map] at h
  obtain ⟨p, hp, rfl⟩ := Option.map_eq_some_iff.1 h
  exact ⟨p, hp, rfl⟩

/-- A process before and after one of them moved. -/
theorem getElem?_set_before {p' q' : π} (hp : procs[i]? = some p) (hq : procs[j]? = some q)
    (hq' : (procs.set i p')[j]? = some q') : (q = p ∧ q' = p') ∨ q' = q := by
  rcases getElem?_set_cases hq' with ⟨rfl, rfl, -⟩ | ⟨-, hsame⟩
  · rw [hp] at hq
    exact .inl ⟨(Option.some.inj hq).symm, rfl⟩
  · rw [hq] at hsame
    exact .inr (Option.some.inj hsame).symm

/-- How many processes are like this, after one of them moved. -/
theorem countP_set_some {f : π → Bool} (h : procs[i]? = some p) :
    (procs.set i q).countP f =
      procs.countP f - (if f p then 1 else 0) + (if f q then 1 else 0) := by
  obtain ⟨hlt, rfl⟩ := List.getElem?_eq_some_iff.1 h
  exact List.countP_set hlt

/-- What the processes weigh together, after one of them moved. -/
theorem sum_map_set_some (f : π → Nat) (h : procs[i]? = some p) :
    ((procs.set i q).map f).sum + f p = (procs.map f).sum + f q := by
  induction procs generalizing i with
  | nil => cases h
  | cons first procs ih =>
      cases i with
      | zero =>
          obtain rfl : first = p := Option.some.inj h
          show f q + (procs.map f).sum + f first = f first + (procs.map f).sum + f q
          omega
      | succ i =>
          have hrest := ih h
          show f first + ((procs.set i q).map f).sum + f p = f first + (procs.map f).sum + f q
          omega

/-- And after one of them ended. -/
theorem sum_map_eraseIdx_some (f : π → Nat) (h : procs[i]? = some p) :
    ((procs.eraseIdx i).map f).sum + f p = (procs.map f).sum := by
  induction procs generalizing i with
  | nil => cases h
  | cons first procs ih =>
      cases i with
      | zero =>
          obtain rfl : first = p := Option.some.inj h
          show (procs.map f).sum + f first = f first + (procs.map f).sum
          omega
      | succ i =>
          have hrest := ih h
          show f first + ((procs.eraseIdx i).map f).sum + f p = f first + (procs.map f).sum
          omega

end Buzz.Lib
