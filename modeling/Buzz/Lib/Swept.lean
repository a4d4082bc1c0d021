import Buzz.Lib.HashMap

/-!
# A map that is swept, beside one that is not

Two maps get the same writes. From one of them entries are dropped once their time is
over, the other keeps them. They agree on every entry the swept one still has, and what
only the other has is past its time.
-/

namespace Buzz.Lib

variable {κ ν : Type} [DecidableEq κ]

/-- `swept` is `full` but for entries that expired before `clock`. -/
structure Swept (expiry : ν → Int) (clock : Int) (swept full : HMap κ ν) : Prop where
  sub : ∀ k v, swept.lookup k = some v → full.lookup k = some v
  past : ∀ k v, full.lookup k = some v → swept.lookup k = none → expiry v < clock

namespace Swept

variable {expiry : ν → Int} {clock clock' : Int} {swept full : HMap κ ν} {k : κ} {v : ν}

section

variable (h : Swept expiry clock swept full)
include h

/-- Time goes on. -/
theorem mono (hle : clock ≤ clock') :
    Swept expiry clock' swept full :=
  ⟨h.sub, fun k v hk hnone => Int.lt_of_lt_of_le (h.past k v hk hnone) hle⟩

/-- What is not past its time is in both. -/
theorem lookup_of_le (hk : full.lookup k = some v) (htime : clock ≤ expiry v) :
    swept.lookup k = some v := by
  cases hs : swept.lookup k with
  | none => exact absurd (h.past k v hk hs) (Int.not_lt.2 htime)
  | some w => rw [← h.sub k w hs, hk]

/-- They do not differ on an entry they both have. -/
theorem eq_of_lookup {w : ν} (hs : swept.lookup k = some v)
    (hf : full.lookup k = some w) : v = w :=
  Option.some.inj ((h.sub k v hs).symm.trans hf)

/-- A write to both. -/
theorem insert (k : κ) (v : ν) :
    Swept expiry clock (swept.insert k v) (full.insert k v) := by
  constructor
  · intro k' v' hk'
    rw [HMap.lookup_insert_ite] at hk' ⊢
    split
    · next heq => rwa [if_pos heq] at hk'
    · next hne =>
        rw [if_neg hne] at hk'
        exact h.sub k' v' hk'
  · intro k' v' hk' hnone
    rw [HMap.lookup_insert_ite] at hk' hnone
    split at hnone
    · cases hnone
    · next hne =>
        rw [if_neg hne] at hk'
        exact h.past k' v' hk' hnone

/-- A write to an entry that only the full map has, and that does not come back by it. -/
theorem insert_full (hk : swept.lookup k = none) (hv : expiry v < clock) :
    Swept expiry clock swept (full.insert k v) := by
  constructor
  · intro k' v' hk'
    have hne : k' ≠ k := by
      rintro rfl
      rw [hk] at hk'
      cases hk'
    rw [HMap.lookup_insert_ite, if_neg hne]
    exact h.sub k' v' hk'
  · intro k' v' hk' hnone
    rcases HMap.lookup_insert_cases hk' with ⟨rfl, rfl⟩ | ⟨-, hold⟩
    · exact hv
    · exact h.past k' v' hold hnone

/-- A write to an entry that stays as far from its end: to both, or to the full map. -/
theorem rewrite {old : ν} (hold : full.lookup k = some old)
    (hv : expiry v = expiry old) :
    Swept expiry clock (if (swept.lookup k).isSome then swept.insert k v else swept)
      (full.insert k v) := by
  cases hk : swept.lookup k with
  | none => exact h.insert_full hk (hv ▸ h.past k old hold hk)
  | some w => exact h.insert k v

/-- Both drop the same entries. -/
theorem retain {p q : κ → ν → Bool}
    (hsame : ∀ k v, swept.lookup k = some v → p k v = q k v) :
    Swept expiry clock (swept.retain p) (full.retain q) := by
  constructor
  · intro k v hk
    rw [HMap.lookup_retain, Option.filter_eq_some_iff] at hk ⊢
    exact ⟨h.sub k v hk.1, (hsame k v hk.1).symm.trans hk.2⟩
  · intro k v hk hnone
    rw [HMap.lookup_retain, Option.filter_eq_some_iff] at hk
    rw [HMap.lookup_retain] at hnone
    cases hs : swept.lookup k with
    | none => exact h.past k v hk.1 hs
    | some w =>
        have hw := h.sub k w hs
        rw [hk.1] at hw
        cases hw
        rw [hs, Option.filter_some, hsame k v hs, hk.2] at hnone
        cases hnone

/-- One of them is swept. -/
theorem sweep {p : κ → ν → Bool}
    (hp : ∀ k v, swept.lookup k = some v → p k v = false → expiry v < clock) :
    Swept expiry clock (swept.retain p) full := by
  constructor
  · intro k v hk
    rw [HMap.lookup_retain, Option.filter_eq_some_iff] at hk
    exact h.sub k v hk.1
  · intro k v hk hnone
    rw [HMap.lookup_retain] at hnone
    cases hs : swept.lookup k with
    | none => exact h.past k v hk hs
    | some w =>
        have hw := h.sub k w hs
        rw [hk] at hw
        cases hw
        rw [hs, Option.filter_some] at hnone
        cases hpv : p k v with
        | false => exact hp k v hs hpv
        | true =>
            rw [hpv] at hnone
            cases hnone

end

end Swept

end Buzz.Lib
