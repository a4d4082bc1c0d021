import Buzz.Lib.HashMap

/-!
# Maps in the order of insertion

A key stays where it was first set, whatever is set for it later. Beside the single
update there are the two ways to take over a whole map: entry by entry, and only where
the new value is the greater one.
-/

namespace Buzz.Lib

variable {κ ν : Type} [DecidableEq κ]

namespace HMap

def putEntries (k : κ) (v : ν) : List ((_ : κ) × ν) → List ((_ : κ) × ν)
  | [] => [⟨k, v⟩]
  | e :: l => if e.1 = k then ⟨k, v⟩ :: l else e :: putEntries k v l

theorem keys_putEntries (k : κ) (v : ν) (l : List ((_ : κ) × ν)) :
    (putEntries k v l).keys = if k ∈ l.keys then l.keys else l.keys ++ [k] := by
  induction l with
  | nil => rfl
  | cons e l ih =>
      rw [putEntries, List.keys_cons]
      by_cases he : e.1 = k
      · rw [if_pos he, List.keys_cons, he, if_pos List.mem_cons_self]
      · rw [if_neg he, List.keys_cons, ih]
        by_cases hk : k ∈ l.keys
        · rw [if_pos hk, if_pos (List.mem_cons_of_mem _ hk)]
        · rw [if_neg hk, if_neg, List.cons_append]
          rw [List.mem_cons]
          exact fun h => h.elim (fun heq => he heq.symm) hk

/-- Set a key: in place if it is there, at the end if it is not. -/
def put (m : HMap κ ν) (k : κ) (v : ν) : HMap κ ν :=
  ⟨putEntries k v m.entries, by
    rw [List.NodupKeys, keys_putEntries]
    split
    · exact m.keys_nodup
    · next hk =>
        refine List.Nodup.append m.keys_nodup (List.nodup_singleton k) ?_
        rw [List.disjoint_singleton]
        exact hk⟩

theorem lookup_put (m : HMap κ ν) (k k' : κ) (v : ν) :
    (m.put k v).lookup k' = if k' = k then some v else m.lookup k' := by
  show (putEntries k v m.entries).dlookup k' = if k' = k then some v else m.entries.dlookup k'
  generalize m.entries = l
  induction l with
  | nil =>
      show List.dlookup k' [(⟨k, v⟩ : (_ : κ) × ν)] = _
      by_cases hk : k' = k
      · rw [if_pos hk, hk, List.dlookup_cons_eq]
      · rw [if_neg hk, List.dlookup_cons_ne _ _ hk]
  | cons e l ih =>
      rw [putEntries]
      by_cases he : e.1 = k
      · rw [if_pos he]
        by_cases hk : k' = k
        · rw [if_pos hk, hk, List.dlookup_cons_eq]
        · rw [if_neg hk, List.dlookup_cons_ne _ _ hk,
            List.dlookup_cons_ne _ _ fun h => hk (h.trans he)]
      · rw [if_neg he]
        by_cases hk : k' = e.1
        · rw [hk, List.dlookup_cons_eq, if_neg he, List.dlookup_cons_eq]
        · rw [List.dlookup_cons_ne _ _ hk, List.dlookup_cons_ne _ _ hk, ih]

/-- Set every entry of another map. -/
def putAll (m l : HMap κ ν) : HMap κ ν := l.entries.foldl (fun m e => m.put e.1 e.2) m

theorem lookup_foldl_put {l : List ((_ : κ) × ν)} (hl : l.NodupKeys) (m : HMap κ ν) (k : κ) :
    (l.foldl (fun m e => m.put e.1 e.2) m).lookup k = (l.dlookup k).or (m.lookup k) := by
  induction l generalizing m with
  | nil => rfl
  | cons e l ih =>
      obtain ⟨hnew, hl⟩ := List.nodupKeys_cons.1 hl
      rw [List.foldl_cons, ih hl, lookup_put]
      by_cases hk : k = e.1
      · rw [if_pos hk, hk, List.dlookup_cons_eq, List.dlookup_eq_none.2 hnew]
        rfl
      · rw [if_neg hk, List.dlookup_cons_ne _ _ hk]

theorem lookup_putAll (m l : HMap κ ν) (k : κ) :
    (m.putAll l).lookup k = (l.lookup k).or (m.lookup k) :=
  lookup_foldl_put l.nodupKeys m k

/-! ## The greater value -/

/-- Set a key unless it has as great a value. -/
def raise (m : HMap κ Nat) (k : κ) (v : Nat) : HMap κ Nat :=
  if (m.lookup k).any (v ≤ ·) then m else m.put k v

/-- The maps of a list in one, with the greatest value of each key. -/
def joinMax (ms : List (HMap κ Nat)) : HMap κ Nat :=
  ms.foldl (fun u m => m.entries.foldl (fun u e => u.raise e.1 e.2) u) ∅

variable {m : HMap κ Nat} {k : κ} {w : Nat}

theorem lookup_raise_cases {k' : κ} {v : Nat}
    (h : (m.raise k v).lookup k' = some w) :
    (k' = k ∧ w = v) ∨ m.lookup k' = some w := by
  unfold raise at h
  split at h
  · exact .inr h
  · rw [lookup_put] at h
    split at h
    · next heq => exact .inl ⟨heq, (Option.some.inj h).symm⟩
    · exact .inr h

/-- What a key has afterwards is at least what it had, and at least what was set. -/
theorem lookup_raise_le (k : κ) (v : Nat) {k' : κ}
    (h : m.lookup k' = some w ∨ (k' = k ∧ w = v)) :
    ∃ w', (m.raise k v).lookup k' = some w' ∧ w ≤ w' := by
  unfold raise
  by_cases hany : (m.lookup k).any (v ≤ ·) = true
  · rw [if_pos hany]
    rcases h with h | ⟨rfl, rfl⟩
    · exact ⟨w, h, Nat.le_refl w⟩
    · obtain ⟨old, hold, hle⟩ := (Option.any_eq_true _ _).1 hany
      exact ⟨old, hold, of_decide_eq_true hle⟩
  · rw [if_neg hany, lookup_put]
    split
    · next heq =>
        refine ⟨v, rfl, ?_⟩
        rcases h with h | ⟨-, rfl⟩
        · rw [heq] at h
          rw [h, Option.any_some, decide_eq_true_eq] at hany
          omega
        · exact Nat.le_refl w
    · next hne =>
        rcases h with h | ⟨heq, -⟩
        · exact ⟨w, h, Nat.le_refl w⟩
        · exact absurd heq hne

theorem lookup_foldl_raise_cases {l : List ((_ : κ) × Nat)}
    (h : (l.foldl (fun u e => u.raise e.1 e.2) m).lookup k = some w) :
    ⟨k, w⟩ ∈ l ∨ m.lookup k = some w := by
  induction l generalizing m with
  | nil => exact .inr h
  | cons e l ih =>
      rcases ih h with hmem | hold
      · exact .inl (List.mem_cons_of_mem _ hmem)
      · rcases lookup_raise_cases hold with ⟨rfl, rfl⟩ | hold
        · exact .inl List.mem_cons_self
        · exact .inr hold

theorem lookup_foldl_raise_le {l : List ((_ : κ) × Nat)}
    (h : m.lookup k = some w ∨ ⟨k, w⟩ ∈ l) :
    ∃ w', (l.foldl (fun u e => u.raise e.1 e.2) m).lookup k = some w' ∧ w ≤ w' := by
  induction l generalizing m w with
  | nil => exact ⟨w, h.resolve_right List.not_mem_nil, Nat.le_refl w⟩
  | cons e l ih =>
      rw [List.foldl_cons]
      by_cases hl : ⟨k, w⟩ ∈ l
      · exact ih (.inr hl)
      · have hfirst : m.lookup k = some w ∨ (k = e.1 ∧ w = e.2) := by
          rcases h with h | h
          · exact .inl h
          · rcases List.mem_cons.1 h with rfl | h
            · exact .inr ⟨rfl, rfl⟩
            · exact absurd h hl
        obtain ⟨w', hw', hle⟩ := lookup_raise_le e.1 e.2 hfirst
        obtain ⟨w'', hw'', hle'⟩ := ih (.inl hw')
        exact ⟨w'', hw'', Nat.le_trans hle hle'⟩

theorem lookup_joinMax_mem {ms : List (HMap κ Nat)} {v : Nat}
    (h : (joinMax ms).lookup k = some v) : ∃ m ∈ ms, m.lookup k = some v := by
  have hgen : ∀ {u : HMap κ Nat},
      (ms.foldl (fun u m => m.entries.foldl (fun u e => u.raise e.1 e.2) u) u).lookup k = some v →
      (∃ m ∈ ms, m.lookup k = some v) ∨ u.lookup k = some v := by
    clear h
    induction ms with
    | nil => exact fun h => .inr h
    | cons m ms ih =>
        intro u hu
        rcases ih hu with ⟨m', hm', hv⟩ | hv
        · exact .inl ⟨m', List.mem_cons_of_mem _ hm', hv⟩
        · rcases lookup_foldl_raise_cases hv with hmem | hold
          · exact .inl ⟨m, List.mem_cons_self, mem_entries_iff.1 hmem⟩
          · exact .inr hold
  rcases hgen h with hmem | hnone
  · exact hmem
  · cases hnone

theorem lookup_joinMax_le {ms : List (HMap κ Nat)} {v : Nat} (hm : m ∈ ms)
    (h : m.lookup k = some v) :
    ∃ w, (joinMax ms).lookup k = some w ∧ v ≤ w := by
  have hgen : ∀ {u : HMap κ Nat}, (u.lookup k = some v ∨ ∃ m ∈ ms, m.lookup k = some v) →
      ∃ w, (ms.foldl (fun u m => m.entries.foldl (fun u e => u.raise e.1 e.2) u) u).lookup k =
        some w ∧ v ≤ w := by
    clear hm h
    induction ms generalizing v with
    | nil =>
        rintro u (hu | ⟨m', hm', -⟩)
        · exact ⟨v, hu, Nat.le_refl v⟩
        · cases hm'
    | cons m ms ih =>
        intro u hu
        rw [List.foldl_cons]
        by_cases hlater : ∃ m ∈ ms, m.lookup k = some v
        · exact ih (.inr hlater)
        · have hfirst : u.lookup k = some v ∨ ⟨k, v⟩ ∈ m.entries := by
            rcases hu with hu | ⟨m', hm', hv⟩
            · exact .inl hu
            · rcases List.mem_cons.1 hm' with rfl | hm'
              · exact .inr (mem_entries_iff.2 hv)
              · exact absurd ⟨m', hm', hv⟩ hlater
          obtain ⟨w, hw, hle⟩ := lookup_foldl_raise_le hfirst
          obtain ⟨w', hw', hle'⟩ := ih (.inl hw)
          exact ⟨w', hw', Nat.le_trans hle hle'⟩
  exact hgen (.inr ⟨m, hm, h⟩)

end HMap

end Buzz.Lib
