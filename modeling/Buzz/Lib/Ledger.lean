import Buzz.Lib.HashMap
import Mathlib.Algebra.Group.Pi.Basic
import Mathlib.Algebra.Order.Group.Multiset
import Mathlib.Tactic.Abel

/-!
# Ledgers

How often each thing is held at each key. The stores of a system are ledgers,
and so are the lists of what went in and out of it: that nothing is lost or
doubled is one equation between sums of them, and each operation moves a few
entries from one summand to another.
-/

namespace Buzz.Lib

/-- What is held at each key. -/
abbrev Ledger (κ α : Type) := κ → Multiset α

namespace Ledger

variable {κ α ν : Type} [DecidableEq κ]

/-- These at this key, nothing elsewhere. -/
def single (k : κ) (l : List α) : Ledger κ α := fun k' => if k' = k then (l : Multiset α) else 0

def ofList (l : List (κ × α)) : Ledger κ α := fun k =>
  ((l.filter fun e => e.1 = k).map Prod.snd : List α)

/-- The lists of a map, each at its key. -/
def ofMap (f : ν → α) (m : HMap κ (List ν)) : Ledger κ α := fun k =>
  (((m.lookup k).getD []).map f : List α)

@[simp] theorem single_nil (k : κ) : (single k [] : Ledger κ α) = 0 := by
  funext k'
  unfold single
  split <;> rfl

theorem single_append (k : κ) (l l' : List α) : single k (l ++ l') = single k l + single k l' := by
  funext k'
  show single k (l ++ l') k' = single k l k' + single k l' k'
  unfold single
  split
  · exact (Multiset.coe_add l l').symm
  · exact (add_zero 0).symm

theorem single_perm (k : κ) {l l' : List α} (h : l.Perm l') : single k l = single k l' := by
  funext k'
  unfold single
  rw [Multiset.coe_eq_coe.2 h]

@[simp] theorem ofList_nil : (ofList [] : Ledger κ α) = 0 := rfl

theorem ofList_append (l l' : List (κ × α)) : ofList (l ++ l') = ofList l + ofList l' := by
  funext k
  show ofList (l ++ l') k = ofList l k + ofList l' k
  unfold ofList
  rw [List.filter_append, List.map_append, ← Multiset.coe_add]

theorem mem_ofList {l : List (κ × α)} {k : κ} {a : α} : a ∈ ofList l k ↔ (k, a) ∈ l := by
  unfold ofList
  rw [Multiset.mem_coe, List.mem_map]
  constructor
  · intro h
    obtain ⟨⟨k', a'⟩, hmem, rfl⟩ := h
    obtain ⟨hl, hk⟩ := List.mem_filter.1 hmem
    cases of_decide_eq_true hk
    exact hl
  · intro h
    exact ⟨(k, a), List.mem_filter.2 ⟨h, decide_eq_true rfl⟩, rfl⟩

theorem ofList_map_pair (k : κ) (f : ν → α) (l : List ν) :
    ofList (l.map fun x => (k, f x)) = single k (l.map f) := by
  funext k'
  unfold ofList single
  by_cases hk : k' = k
  · subst hk
    rw [if_pos rfl]
    congr 1
    rw [List.filter_map, List.map_map]
    have : (l.filter ((fun e : κ × α => decide (e.1 = k')) ∘ fun x => (k', f x))) = l := by
      rw [List.filter_eq_self]
      intro x _
      exact decide_eq_true rfl
    rw [this]
    rfl
  · rw [if_neg hk, List.filter_eq_nil_iff.2]
    · rfl
    · intro e he
      obtain ⟨x, -, rfl⟩ := List.mem_map.1 he
      exact fun h => hk (of_decide_eq_true h).symm

theorem ofList_cons (k : κ) (a : α) (l : List (κ × α)) :
    ofList ((k, a) :: l) = single k [a] + ofList l := by
  have h := ofList_append [(k, a)] l
  have hone := ofList_map_pair k (id : α → α) [a]
  simp only [List.map_cons, List.map_nil, id] at hone
  rw [← hone]
  exact h

@[simp] theorem ofMap_empty (f : ν → α) : ofMap f (∅ : HMap κ (List ν)) = 0 := rfl

/-- What is held at one key, and the rest. -/
theorem ofMap_eq_add_erase (f : ν → α) (m : HMap κ (List ν)) (k : κ) :
    ofMap f m = single k (((m.lookup k).getD []).map f) + ofMap f (m.erase k) := by
  funext k'
  show ofMap f m k' = single k _ k' + ofMap f (m.erase k) k'
  unfold ofMap single
  rw [HMap.lookup_erase_ite]
  by_cases hk : k' = k
  · subst hk
    rw [if_pos rfl, if_pos rfl]
    exact (add_zero _).symm
  · rw [if_neg hk, if_neg hk]
    exact (zero_add _).symm

theorem ofMap_insert (f : ν → α) (m : HMap κ (List ν)) (k : κ) (l : List ν) :
    ofMap f (m.insert k l) = single k (l.map f) + ofMap f (m.erase k) := by
  funext k'
  show ofMap f (m.insert k l) k' = single k _ k' + ofMap f (m.erase k) k'
  unfold ofMap single
  rw [HMap.lookup_insert_ite, HMap.lookup_erase_ite]
  by_cases hk : k' = k
  · subst hk
    rw [if_pos rfl, if_pos rfl, if_pos rfl]
    exact (add_zero _).symm
  · rw [if_neg hk, if_neg hk, if_neg hk]
    exact (zero_add _).symm

/-- An entry that is taken out of the map when nothing is left of it. -/
theorem ofMap_insert_or_erase (f : ν → α) (m : HMap κ (List ν)) (k : κ) (l : List ν) :
    ofMap f (if l.isEmpty then m.erase k else m.insert k l)
      = single k (l.map f) + ofMap f (m.erase k) := by
  split
  · next h =>
      rw [List.isEmpty_iff.1 h, List.map_nil, single_nil, zero_add]
  · exact ofMap_insert f m k l

/-- All that a map of lists holds, one by one. -/
def pairs (f : ν → α) (m : HMap κ (List ν)) : List (κ × α) :=
  m.entries.flatMap fun e => e.2.map fun x => (e.1, f x)

theorem ofList_pairs (f : ν → α) (m : HMap κ (List ν)) : ofList (pairs f m) = ofMap f m := by
  obtain ⟨entries, hkeys⟩ := m
  have hentries : ∀ entries : List ((_ : κ) × List ν), entries.NodupKeys →
      ofList (entries.flatMap fun e => e.2.map fun x => (e.1, f x)) =
        fun k => ((((entries.dlookup k).getD []).map f : List α) : Multiset α) := by
    intro entries
    induction entries with
    | nil => exact fun _ => rfl
    | cons e rest ih =>
        intro hkeys
        obtain ⟨k, l⟩ := e
        rw [List.nodupKeys_cons] at hkeys
        rw [List.flatMap_cons, ofList_append, ofList_map_pair, ih hkeys.2]
        funext k'
        show single k (l.map f) k' + _ = _
        unfold single
        by_cases hk : k' = k
        · subst hk
          have hnone : rest.dlookup k' = none := List.dlookup_eq_none.2 hkeys.1
          simp only [hnone, List.dlookup_cons_eq, if_true]
          exact add_zero _
        · rw [if_neg hk, List.dlookup_cons_ne _ _ hk]
          exact zero_add _
  exact hentries entries hkeys

/-- What is held at the keys that pass. -/
def restrict (p : κ → Bool) (L : Ledger κ α) : Ledger κ α := fun k => if p k then L k else 0

omit [DecidableEq κ] in
theorem restrict_add (p : κ → Bool) (L L' : Ledger κ α) :
    restrict p (L + L') = restrict p L + restrict p L' := by
  funext k
  show restrict p (L + L') k = restrict p L k + restrict p L' k
  unfold restrict
  split
  · rfl
  · exact (add_zero 0).symm

omit [DecidableEq κ] in
theorem restrict_add_restrict_not (p : κ → Bool) (L : Ledger κ α) :
    restrict p L + restrict (fun k => !p k) L = L := by
  funext k
  show restrict p L k + restrict (fun k => !p k) L k = L k
  unfold restrict
  cases hp : p k <;> simp [hp]

theorem ofList_filter_key (p : κ → Bool) (l : List (κ × α)) :
    ofList (l.filter fun e => p e.1) = restrict p (ofList l) := by
  funext k
  unfold restrict ofList
  rw [List.filter_filter]
  split
  · next hk =>
      have hsame : (l.filter fun e => decide (e.1 = k) && p e.1) = l.filter fun e => e.1 = k := by
        refine List.filter_congr fun e _ => ?_
        by_cases he : e.1 = k
        · rw [he, hk, Bool.and_true]
        · rw [decide_eq_false he, Bool.false_and]
      rw [hsame]
  · next hk =>
      rw [List.filter_eq_nil_iff.2]
      · rfl
      · intro e _ he
        rw [Bool.and_eq_true, decide_eq_true_iff] at he
        exact hk (he.1 ▸ he.2)

theorem ofMap_retain (f : ν → α) (m : HMap κ (List ν)) (p : κ → Bool) :
    ofMap f (m.retain fun k _ => p k) = restrict p (ofMap f m) := by
  funext k
  unfold restrict ofMap
  rw [HMap.lookup_retain]
  cases m.lookup k with
  | none => split <;> rfl
  | some l =>
      rw [Option.filter_some]
      split
      · rfl
      · rfl

/-- Some entries of one list, and the others. -/
theorem single_filter_add (k : κ) (f : ν → α) (p : ν → Bool) (l : List ν) :
    single k ((l.filter p).map f) + single k ((l.filter fun x => !p x).map f) =
      single k (l.map f) := by
  rw [← single_append, ← List.map_append]
  exact single_perm k ((List.filter_append_perm p l).map f)

end Ledger

end Buzz.Lib
