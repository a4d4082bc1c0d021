import Mathlib.Data.List.Sort
import Mathlib.Order.Basic

/-!
# Lists in the order of a key

A list without two entries of one key, in the order of the keys, is determined
by what is in it. So two ways of keeping such a list are the same as soon as
they hold the same entries.
-/

namespace Buzz.Lib

variable {α κ : Type} [LinearOrder κ] {f : α → κ} {l l' : List α} {a : α}

/-- Strictly in the order of the key. -/
def SortedBy (f : α → κ) (l : List α) : Prop := l.Pairwise fun a b => f a < f b

namespace SortedBy

theorem nodup (h : SortedBy f l) : l.Nodup :=
  h.imp fun hlt heq => (heq ▸ hlt).false

/-- The same entries, the same list. -/
theorem ext (h : SortedBy f l) (h' : SortedBy f l') (hmem : ∀ a, a ∈ l ↔ a ∈ l') : l = l' := by
  have hperm := (List.perm_ext_iff_of_nodup h.nodup h'.nodup).2 hmem
  refine hperm.eq_of_pairwise (fun a b _ _ hab hba => ?_) h h'
  exact ((hab.trans hba).false).elim

theorem of_le (h : l.Pairwise fun a b => f a ≤ f b) (hnodup : (l.map f).Nodup) :
    SortedBy f l := by
  have hne : l.Pairwise fun a b => f a ≠ f b := List.pairwise_map.1 hnodup
  exact h.imp₂ (fun _ _ hle hne => lt_of_le_of_ne hle hne) hne

theorem mergeSort {le : α → α → Bool} (hle : ∀ a b, le a b = true ↔ f a ≤ f b)
    (hnodup : (l.map f).Nodup) : SortedBy f (l.mergeSort le) := by
  refine of_le ?_ (((List.mergeSort_perm l le).map f).nodup_iff.2 hnodup)
  have hsorted : (l.mergeSort le).Pairwise fun a b => le a b = true := by
    refine List.pairwise_mergeSort (fun a b c hab hbc => ?_) (fun a b => ?_) l
    · rw [hle] at hab hbc ⊢
      exact hab.trans hbc
    · rw [Bool.or_eq_true, hle, hle]
      exact le_total (f a) (f b)
  exact hsorted.imp fun h => (hle _ _).1 h

variable {r : α → α → Prop}

theorem insertionSort [DecidableRel r] (hr : ∀ a b, r a b ↔ f a ≤ f b)
    (hnodup : (l.map f).Nodup) : SortedBy f (l.insertionSort r) := by
  have : Std.Total r := ⟨fun a b => by rw [hr, hr]; exact le_total (f a) (f b)⟩
  have : IsTrans α r := ⟨fun a b c hab hbc => by rw [hr] at hab hbc ⊢; exact hab.trans hbc⟩
  refine of_le ((List.pairwise_insertionSort r l).imp fun h => (hr _ _).1 h) ?_
  exact ((List.perm_insertionSort r l).map f).nodup_iff.2 hnodup

/-- What is sorted does not depend on the order it came in. -/
theorem insertionSort_eq_of_perm [DecidableRel r]
    (hr : ∀ a b, r a b ↔ f a ≤ f b) (hnodup : (l.map f).Nodup) (h : l.Perm l') :
    l.insertionSort r = l'.insertionSort r := by
  have hnodup' := (h.map f).nodup_iff.1 hnodup
  refine (insertionSort hr hnodup).ext (insertionSort hr hnodup') fun a => ?_
  rw [List.mem_insertionSort, List.mem_insertionSort, h.mem_iff]

theorem filter (h : SortedBy f l) (p : α → Bool) : SortedBy f (l.filter p) :=
  List.Pairwise.filter p h

theorem orderedInsert [DecidableRel r] (hr : ∀ a b, r a b ↔ f a ≤ f b)
    (h : SortedBy f l) (hnew : ∀ b ∈ l, f b ≠ f a) :
    SortedBy f (l.orderedInsert r a) := by
  have hperm := List.perm_orderedInsert r a l
  have : Std.Total r := ⟨fun a b => by rw [hr, hr]; exact le_total (f a) (f b)⟩
  have : IsTrans α r := ⟨fun a b c hab hbc => by rw [hr] at hab hbc ⊢; exact hab.trans hbc⟩
  have hsorted := List.Pairwise.orderedInsert a l (h.imp fun hlt => (hr _ _).2 hlt.le)
  refine of_le (hsorted.imp fun h => (hr _ _).1 h) ?_
  rw [(hperm.map f).nodup_iff, List.map_cons, List.nodup_cons]
  refine ⟨fun hmem => ?_, List.pairwise_map.2 (h.imp fun hlt => hlt.ne)⟩
  obtain ⟨b, hb, heq⟩ := List.mem_map.1 hmem
  exact hnew b hb heq

end SortedBy

end Buzz.Lib
