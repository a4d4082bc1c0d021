import Mathlib.Data.List.Infix
import Mathlib.Data.Nat.Find

/-!
# The first occurrence of a pattern

A text is cut at the first place where a pattern stands in it. What stands
before the cut is the shortest of all such beginnings, so there is at most one
cut, and a search from the left finds it.
-/

namespace Buzz.Lib

variable {α : Type*} {pat s before after : List α}

/-- The first `pat` in `s` stands between `before` and `after`. -/
structure Cut (pat s before after : List α) : Prop where
  eq : s = before ++ pat ++ after
  first : ∀ b a, s = b ++ pat ++ a → before.length ≤ b.length

namespace Cut

theorem take_eq (h : Cut pat s before after) : s.take before.length = before := by
  rw [h.eq, List.append_assoc, List.take_left]

theorem drop_eq (h : Cut pat s before after) :
    s.drop (before.length + pat.length) = after := by
  rw [h.eq, ← List.length_append, List.drop_left]

theorem unique {before' after' : List α} (h : Cut pat s before after)
    (h' : Cut pat s before' after') : before' = before ∧ after' = after := by
  have hlength : before'.length = before.length :=
    Nat.le_antisymm (h'.first _ _ h.eq) (h.first _ _ h'.eq)
  have hbefore : before' = before := by
    rw [← h'.take_eq, ← h.take_eq, hlength]
  refine ⟨hbefore, ?_⟩
  rw [← h'.drop_eq, ← h.drop_eq, hlength]

theorem isInfix (h : Cut pat s before after) : pat <:+: s := ⟨before, after, h.eq.symm⟩

/-- A pattern that does not stand in front is found behind the first element. -/
theorem cons_iff {x : α} (hx : ¬pat <+: x :: s) :
    Cut pat (x :: s) before after ↔ ∃ b, before = x :: b ∧ Cut pat s b after := by
  have hsplit : ∀ b a, x :: s = b ++ pat ++ a → ∃ b', b = x :: b' ∧ s = b' ++ pat ++ a := by
    intro b a heq
    cases b with
    | nil => exact absurd ⟨a, heq.symm⟩ hx
    | cons y b' =>
        obtain ⟨rfl, hs⟩ := List.cons.inj heq
        exact ⟨b', rfl, hs⟩
  constructor
  · intro h
    obtain ⟨b, rfl, hs⟩ := hsplit _ _ h.eq
    refine ⟨b, rfl, hs, ?_⟩
    intro b' a' heq
    have := h.first (x :: b') a' (by rw [heq]; rfl)
    exact Nat.le_of_succ_le_succ this
  · rintro ⟨b, rfl, h⟩
    refine ⟨by rw [h.eq]; rfl, ?_⟩
    intro b' a' heq
    obtain ⟨b'', rfl, hs⟩ := hsplit _ _ heq
    exact Nat.succ_le_succ (h.first _ _ hs)

end Cut

variable [DecidableEq α]

/-- How much stands before the first `pat`. -/
def find (pat : List α) : List α → Option Nat
  | [] => if pat = [] then some 0 else none
  | x :: s => if pat.isPrefixOf (x :: s) then some 0 else (find pat s).map (· + 1)

theorem find_eq_some_iff {n : Nat} :
    find pat s = some n ↔ ∃ before after, Cut pat s before after ∧ before.length = n := by
  induction s generalizing n with
  | nil =>
      unfold find
      constructor
      · intro h
        split at h
        · next hpat =>
            cases h
            exact ⟨[], [], ⟨by rw [hpat]; rfl, fun _ _ _ => Nat.zero_le _⟩, rfl⟩
        · cases h
      · rintro ⟨before, after, hcut, rfl⟩
        have heq := hcut.eq
        simp only [List.nil_eq, List.append_eq_nil_iff] at heq
        rw [if_pos heq.1.2, heq.1.1, List.length_nil]
  | cons x s ih =>
      unfold find
      rcases hhead : pat.isPrefixOf (x :: s) with _ | _
      · have hx : ¬pat <+: x :: s := by
          rw [← List.isPrefixOf_iff_prefix, hhead]
          exact Bool.false_ne_true
        simp only [Bool.false_eq_true, if_false, Option.map_eq_some_iff, ih, Cut.cons_iff hx]
        constructor
        · rintro ⟨_, ⟨b, after, hcut, rfl⟩, rfl⟩
          exact ⟨x :: b, after, ⟨b, rfl, hcut⟩, rfl⟩
        · rintro ⟨_, after, ⟨b, rfl, hcut⟩, rfl⟩
          exact ⟨b.length, ⟨b, after, hcut, rfl⟩, rfl⟩
      · obtain ⟨after, heq⟩ := List.isPrefixOf_iff_prefix.1 hhead
        simp only [if_true, Option.some.injEq]
        constructor
        · rintro rfl
          exact ⟨[], after, ⟨heq.symm, fun _ _ _ => Nat.zero_le _⟩, rfl⟩
        · rintro ⟨before, after', hcut, rfl⟩
          exact (Nat.le_zero.1 (hcut.first [] after heq.symm)).symm

theorem cut_of_find {n : Nat} (h : find pat s = some n) :
    Cut pat s (s.take n) (s.drop (n + pat.length)) := by
  obtain ⟨before, after, hcut, rfl⟩ := find_eq_some_iff.1 h
  rwa [hcut.take_eq, hcut.drop_eq]

theorem find_eq_none_iff : find pat s = none ↔ ¬pat <:+: s := by
  constructor
  · rintro h ⟨before, after, heq⟩
    -- of all beginnings before a `pat`, a shortest one makes a cut
    have hex : ∃ n before after, s = before ++ pat ++ after ∧ before.length = n :=
      ⟨_, before, after, heq.symm, rfl⟩
    classical
    obtain ⟨b, a, hs, hb⟩ := Nat.find_spec hex
    have hcut : Cut pat s b a := ⟨hs, fun b' a' hs' => by
      rw [hb]
      exact Nat.find_min' hex ⟨b', a', hs', rfl⟩⟩
    rw [find_eq_some_iff.2 ⟨b, a, hcut, rfl⟩] at h
    cases h
  · intro h
    rcases hfind : find pat s with _ | n
    · rfl
    · obtain ⟨before, after, hcut, -⟩ := find_eq_some_iff.1 hfind
      exact absurd hcut.isInfix h

end Buzz.Lib
