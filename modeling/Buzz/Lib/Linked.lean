import Mathlib.Data.List.Nodup

/-!
# Lists linked by a parent

In a linked list of this kind, newest first, the parent of every entry is the
one after it, and the last has none. Since an entry has one parent, it cannot be
in the list twice: both times the same entries would follow, and these would end
together.
-/

namespace Buzz.Lib

variable {α : Type} {parent parent' : α → Option α} {a : α} {l : List α}

/-- The parent of each entry is the next one, and the last has no parent. -/
def Linked (parent : α → Option α) : List α → Prop
  | [] => True
  | a :: l => parent a = l.head? ∧ Linked parent l

namespace Linked

theorem getElem? (h : Linked parent l) {i : Nat} (hi : l[i]? = some a) :
    parent a = l[i + 1]? := by
  induction l generalizing i with
  | nil => cases hi
  | cons b l ih =>
      cases i with
      | zero =>
          cases hi
          rw [h.1, List.getElem?_cons_succ, List.head?_eq_getElem?]
      | succ i => exact ih h.2 hi

theorem nodup (h : Linked parent l) : l.Nodup := by
  induction l with
  | nil => exact List.nodup_nil
  | cons a l ih =>
      have hl := ih h.2
      refine List.nodup_cons.2 ⟨fun hmem => ?_, hl⟩
      obtain ⟨j, hj⟩ := List.getElem?_of_mem hmem
      have hparent : l[0]? = l[j + 1]? := by
        rw [← h.2.getElem? hj, h.1, List.head?_eq_getElem?]
      -- the head of the rest would be in it twice
      have hpos : 0 < l.length := List.length_pos_of_mem hmem
      exact absurd ((List.getElem?_inj hpos hl).1 hparent) (Nat.succ_ne_zero j).symm

theorem congr (h : Linked parent l) (heq : ∀ a ∈ l, parent' a = parent a) :
    Linked parent' l := by
  induction l with
  | nil => exact trivial
  | cons a l ih =>
      refine ⟨(heq a List.mem_cons_self).trans h.1, ih h.2 fun b hb => ?_⟩
      exact heq b (List.mem_cons_of_mem a hb)

end Linked

end Buzz.Lib
