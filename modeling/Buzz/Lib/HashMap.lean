import Mathlib.Algebra.BigOperators.Group.List.Basic
import Mathlib.Algebra.GroupWithZero.Nat
import Mathlib.Data.Finset.Card
import Mathlib.Data.List.AList

/-!
# Finite maps and first-seen lists

A hash map is an association list without repeated keys. Mathlib has the
single lookups and updates; what is added here is the `entry` style of
update, where the new value is computed from the old one, and sums over the
entries, which turn "how many entries do this" into arithmetic.

The second half is the loop `if seen.insert(x) { out.push(x) }`, which
collects the distinct values of a sequence in the order they first occur.
-/

namespace Buzz.Lib

/-- A finite map, iterated in the order of its entries. -/
abbrev HMap (κ ν : Type) := AList (fun _ : κ => ν)

namespace HMap

variable {κ ν : Type}

section Update

variable [DecidableEq κ] {m : HMap κ ν} {k : κ}

/-- Replace the value at `k` by what `f` makes of the present one; `none`
stands for an absent key on both sides. -/
def alter (m : HMap κ ν) (k : κ) (f : Option ν → Option ν) : HMap κ ν :=
  match f (m.lookup k) with
  | some v => m.insert k v
  | none => m.erase k

theorem lookup_insert_ite (m : HMap κ ν) (k k' : κ) (v : ν) :
    (m.insert k v).lookup k' = if k' = k then some v else m.lookup k' := by
  by_cases hk : k' = k
  · subst hk; simp
  · simp [hk]

/-- An entry after an insert: the new one, or an old one. -/
theorem lookup_insert_cases {k' : κ} {v v' : ν}
    (h : (m.insert k v).lookup k' = some v') :
    (k' = k ∧ v' = v) ∨ (k' ≠ k ∧ m.lookup k' = some v') := by
  rw [lookup_insert_ite] at h
  split at h
  · next hk => exact .inl ⟨hk, (Option.some.inj h).symm⟩
  · next hk => exact .inr ⟨hk, h⟩

theorem lookup_erase_ite (m : HMap κ ν) (k k' : κ) :
    (m.erase k).lookup k' = if k' = k then none else m.lookup k' := by
  by_cases hk : k' = k
  · subst hk; simp
  · simp [hk]

theorem lookup_alter (m : HMap κ ν) (k k' : κ) (f : Option ν → Option ν) :
    (alter m k f).lookup k' =
      if k' = k then f (m.lookup k) else m.lookup k' := by
  unfold alter
  cases h : f (m.lookup k) with
  | none => exact lookup_erase_ite m k k'
  | some v => exact lookup_insert_ite m k k' v

theorem mem_entries_iff {v : ν} :
    (⟨k, v⟩ : (_ : κ) × ν) ∈ m.entries ↔ m.lookup k = some v :=
  AList.mem_lookup_iff.symm

/-- `HashMap::retain`: keep the entries that pass. -/
def retain (m : HMap κ ν) (p : κ → ν → Bool) : HMap κ ν :=
  ⟨m.entries.filter fun e => p e.1 e.2, m.nodupKeys.sublist List.filter_sublist⟩

theorem lookup_retain (m : HMap κ ν) (p : κ → ν → Bool) (k : κ) :
    (m.retain p).lookup k = (m.lookup k).filter (p k) := by
  ext v
  rw [← mem_entries_iff, Option.filter_eq_some_iff, ← mem_entries_iff]
  exact List.mem_filter

theorem lookup_retain_of_true (m : HMap κ ν) {p : κ → ν → Bool}
    (h : ∀ v, p k v = true) :
    (m.retain p).lookup k = m.lookup k := by
  rw [lookup_retain]
  cases m.lookup k with
  | none => rfl
  | some v => rw [Option.filter_some, if_pos (h v)]

/-- `for (key, value) in map.iter_mut()`: every value anew, the keys as they are. -/
def mapVals (m : HMap κ ν) (f : κ → ν → ν) : HMap κ ν :=
  ⟨m.entries.map fun e => ⟨e.1, f e.1 e.2⟩, by
    have hkeys : (m.entries.map fun e => (⟨e.1, f e.1 e.2⟩ : (_ : κ) × ν)).keys =
        m.entries.keys := by
      simp [List.keys, Function.comp_def]
    rw [List.NodupKeys, hkeys]
    exact m.keys_nodup⟩

theorem lookup_mapVals (m : HMap κ ν) (f : κ → ν → ν) (k : κ) :
    (m.mapVals f).lookup k = (m.lookup k).map (f k) := by
  ext v
  rw [← mem_entries_iff, Option.map_eq_some_iff]
  constructor
  · intro h
    obtain ⟨e, he, heq⟩ := List.mem_map.1 h
    cases heq
    exact ⟨e.2, mem_entries_iff.1 he, rfl⟩
  · rintro ⟨old, hold, rfl⟩
    exact List.mem_map.2 ⟨⟨k, old⟩, mem_entries_iff.2 hold, rfl⟩

/-- The keys, as a set. -/
def keySet (m : HMap κ ν) : Finset κ := m.keys.toFinset

@[simp] theorem mem_keySet :
    k ∈ m.keySet ↔ (m.lookup k).isSome := by
  rw [keySet, List.mem_toFinset, AList.lookup_isSome, AList.mem_keys]

@[simp] theorem keySet_insert (m : HMap κ ν) (k : κ) (v : ν) :
    keySet (m.insert k v) = insert k m.keySet := by
  ext k'
  rw [mem_keySet, lookup_insert_ite, Finset.mem_insert, mem_keySet]
  by_cases hk : k' = k
  · simp [hk]
  · simp [hk]

@[simp] theorem keySet_erase (m : HMap κ ν) (k : κ) :
    keySet (m.erase k) = m.keySet.erase k := by
  ext k'
  rw [mem_keySet, lookup_erase_ite, Finset.mem_erase, mem_keySet]
  by_cases hk : k' = k
  · simp [hk]
  · simp [hk]

theorem card_keySet (m : HMap κ ν) : m.keySet.card = m.keys.length :=
  List.toFinset_card_of_nodup m.keys_nodup

end Update

/-! ## Sums over the entries -/

/-- The sum of a weight over the entries. -/
def sum (m : HMap κ ν) (w : κ → ν → Nat) : Nat :=
  (m.entries.map fun e => w e.1 e.2).sum

@[simp] theorem sum_empty (w : κ → ν → Nat) : sum (∅ : HMap κ ν) w = 0 := rfl

variable [DecidableEq κ] {m : HMap κ ν}

theorem sum_insert (m : HMap κ ν) (k : κ) (v : ν) (w : κ → ν → Nat) :
    sum (m.insert k v) w = w k v + sum (m.erase k) w := rfl

/-- An entry's weight and the weight of the rest make up the whole. -/
theorem sum_eq_add_sum_erase (m : HMap κ ν) (k : κ) (w : κ → ν → Nat) :
    sum m w = (m.lookup k).elim 0 (w k) + sum (m.erase k) w := by
  cases h : m.lookup k with
  | none =>
      have hk : k ∉ m.entries.keys := AList.lookup_eq_none.1 h
      have hsame : (m.erase k).entries = m.entries :=
        List.kerase_of_notMem_keys hk
      simp [sum, hsame]
  | some v =>
      have hk : k ∈ m.entries.keys := by
        rw [← AList.keys, ← AList.mem_keys, ← AList.lookup_isSome, h]
        rfl
      obtain ⟨v', l₁, l₂, -, hl, he⟩ := List.exists_of_kerase hk
      have hv : v' = v := by
        have hmem : (⟨k, v'⟩ : (_ : κ) × ν) ∈ m.entries := by rw [hl]; simp
        rw [mem_entries_iff, h] at hmem
        exact (Option.some.inj hmem).symm
      subst hv
      have he : (m.erase k).entries = l₁ ++ l₂ := he
      simp only [sum, hl, he, List.map_append, List.map_cons, List.sum_append,
        List.sum_cons, Option.elim_some]
      omega

/-- An `alter` trades the old weight at the key for the new one. -/
theorem sum_alter (m : HMap κ ν) (k : κ) (f : Option ν → Option ν)
    (w : κ → ν → Nat) :
    sum (alter m k f) w + (m.lookup k).elim 0 (w k) =
      sum m w + (f (m.lookup k)).elim 0 (w k) := by
  have hnew : sum (alter m k f) w =
      (f (m.lookup k)).elim 0 (w k) + sum (m.erase k) w := by
    unfold alter
    cases f (m.lookup k) with
    | none => simp
    | some v => exact sum_insert m k v w
  rw [hnew, sum_eq_add_sum_erase m k w]
  omega

/-- Only the weights of the entries count. -/
theorem sum_congr {w w' : κ → ν → Nat}
    (h : ∀ k v, m.lookup k = some v → w k v = w' k v) : sum m w = sum m w' := by
  unfold sum
  congr 1
  refine List.map_congr_left fun e he => ?_
  exact h e.1 e.2 (mem_entries_iff.1 he)

/-- A fresh entry adds its weight. -/
theorem sum_insert_of_none {k : κ} (h : m.lookup k = none) (v : ν)
    (w : κ → ν → Nat) : sum (m.insert k v) w = sum m w + w k v := by
  rw [sum_insert, sum_eq_add_sum_erase m k w, h]
  show w k v + _ = 0 + _ + _
  omega

/-- Replacing an entry replaces its weight. -/
theorem sum_insert_of_some {k : κ} {old : ν} (h : m.lookup k = some old) (v : ν)
    (w : κ → ν → Nat) :
    sum (m.insert k v) w + w k old = sum m w + w k v := by
  rw [sum_insert, sum_eq_add_sum_erase m k w, h]
  show w k v + _ + _ = w k old + _ + _
  omega

end HMap

/-! ## Distinct values in order of first occurrence -/

section PushNew

variable {α : Type} [DecidableEq α] {out : List α}

/-- `if seen.insert(x) { out.push(x) }`: `seen` holds exactly what was
pushed, so the list itself answers the test. -/
def pushNew (out : List α) (x : α) : List α :=
  if x ∈ out then out else out ++ [x]

@[simp] theorem mem_pushNew {x y : α} :
    y ∈ pushNew out x ↔ y ∈ out ∨ y = x := by
  unfold pushNew
  split
  · next h => exact ⟨.inl, fun hy => hy.elim id (· ▸ h)⟩
  · simp

theorem nodup_pushNew {x : α} (h : out.Nodup) :
    (pushNew out x).Nodup := by
  unfold pushNew
  split
  · exact h
  · next hx => simpa [List.nodup_append] using ⟨h, fun a ha => ne_of_mem_of_not_mem ha hx⟩

@[simp] theorem mem_foldl_pushNew {xs : List α} {y : α} :
    y ∈ xs.foldl pushNew out ↔ y ∈ out ∨ y ∈ xs := by
  induction xs generalizing out with
  | nil => simp
  | cons x xs ih => rw [List.foldl_cons, ih, mem_pushNew, List.mem_cons, or_assoc]

end PushNew

end Buzz.Lib
