import Mathlib.Data.List.Nodup
import Mathlib.Data.List.Perm.Subperm

/-!
# Pages

A page is the first `n` of a set's elements in an order. When two sets differ,
what is on the one's page can be missing from the other's: an element both have
is missing only because `n` others come before it, and if it is on the other's
page, one of these is in the first set alone.
-/

namespace Buzz.Lib

variable {κ : Type} (le : κ → κ → Bool)

/-- The first `n` elements. -/
def pageOf (n : Nat) (xs : List κ) : List κ := (xs.mergeSort le).take n

structure TotalOrder : Prop where
  trans : ∀ a b c, le a b → le b c → le a c
  total : ∀ a b, le a b || le b a
  antisymm : ∀ a b, le a b → le b a → a = b

variable {le} {n : Nat} {xs : List κ} {x : κ}

/-- The order of the keys, where the keys are one-to-one. -/
theorem TotalOrder.comap {ι : Type} {key : ι → κ} (hle : TotalOrder le)
    (hkey : Function.Injective key) : TotalOrder fun a b => le (key a) (key b) where
  trans a b c hab hbc := hle.trans (key a) (key b) (key c) hab hbc
  total a b := hle.total (key a) (key b)
  antisymm a b hab hba := hkey (hle.antisymm (key a) (key b) hab hba)

theorem nodup_pageOf (h : xs.Nodup) : (pageOf le n xs).Nodup :=
  ((List.mergeSort_perm xs le).nodup_iff.2 h).sublist (List.take_sublist _ _)

theorem length_pageOf_le : (pageOf le n xs).length ≤ n := List.length_take_le _ _

/-- What is in the set and not on the page comes after a full page. -/
theorem before_of_not_mem_pageOf (hle : TotalOrder le) (hx : x ∈ xs)
    (hpage : x ∉ pageOf le n xs) :
    (pageOf le n xs).length = n ∧ ∀ y ∈ pageOf le n xs, le y x ∧ y ≠ x := by
  have hsorted : (xs.mergeSort le).Pairwise (le · ·) :=
    List.pairwise_mergeSort hle.trans hle.total xs
  have hmem : x ∈ xs.mergeSort le := List.mem_mergeSort.2 hx
  rw [← List.take_append_drop n (xs.mergeSort le)] at hmem hsorted
  have hdrop : x ∈ (xs.mergeSort le).drop n := (List.mem_append.1 hmem).resolve_left hpage
  constructor
  · have hlong : n < (xs.mergeSort le).length := by
      by_contra hshort
      rw [List.drop_of_length_le (by omega)] at hdrop
      cases hdrop
    exact List.length_take_of_le (by omega)
  · intro y hy
    refine ⟨(List.pairwise_append.1 hsorted).2.2 y hy x hdrop, ?_⟩
    rintro rfl
    exact hpage hy

/-- `n` elements that come before one on the page are not all in the set. -/
theorem exists_not_mem_of_before (hle : TotalOrder le) {ys : List κ} (hnodup : ys.Nodup)
    (hlength : n ≤ ys.length) (hx : x ∈ pageOf le n xs)
    (hbefore : ∀ y ∈ ys, le y x ∧ y ≠ x) : ∃ y ∈ ys, y ∉ xs := by
  by_contra hall
  push Not at hall
  obtain ⟨k, hk, hget⟩ := List.getElem_of_mem hx
  have hkn : k < n := Nat.lt_of_lt_of_le hk length_pageOf_le
  have hsorted : (xs.mergeSort le).Pairwise (le · ·) :=
    List.pairwise_mergeSort hle.trans hle.total xs
  have hkl : k < (xs.mergeSort le).length := by
    have hlen : (pageOf le n xs).length ≤ (xs.mergeSort le).length := List.length_take_le' _ _
    omega
  have hgetx : (xs.mergeSort le)[k] = x := by
    rw [← hget]
    exact List.getElem_take.symm
  -- What comes before the element stands before it in the sorted list.
  have hsub : ys ⊆ (xs.mergeSort le).take k := by
    intro y hy
    obtain ⟨hyx, hne⟩ := hbefore y hy
    have hmem : y ∈ xs.mergeSort le := List.mem_mergeSort.2 (hall y hy)
    obtain ⟨j, hj, hgety⟩ := List.getElem_of_mem hmem
    rcases Nat.lt_trichotomy j k with hlt | heq | hgt
    · rw [List.mem_take_iff_getElem]
      exact ⟨j, by omega, hgety⟩
    · subst heq
      exact absurd (hgety.symm.trans hgetx) hne
    · have hxy := List.pairwise_iff_getElem.1 hsorted k j hkl hj hgt
      rw [hgetx, hgety] at hxy
      exact absurd (hle.antisymm y x hyx hxy) hne
  have hcount := (hnodup.subperm hsub).length_le
  have htake : ((xs.mergeSort le).take k).length ≤ k := List.length_take_le _ _
  omega

end Buzz.Lib
