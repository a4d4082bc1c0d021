import Buzz.Lib.HashMap

/-!
# What a scan from the left has seen

Labels stand at positions. A scan that is at position `i` has listed the labels
before `i`, each once and in the order of their first positions. It may skip
positions without a label, and it may take up one label from a stretch that has
no other.

`trailing x` counts how many `x` a text ends with.
-/

namespace Buzz.Lib

section FirstSeen

variable {β : Type} [DecidableEq β] {At : Nat → β → Prop} {i j : Nat} {out : List β} {x : β}

/-- The labels before position `i`, each once, in the order in which they come. -/
structure FirstSeen (At : Nat → β → Prop) (i : Nat) (out : List β) : Prop where
  nodup : out.Nodup
  mem_iff : ∀ x, x ∈ out ↔ ∃ p < i, At p x
  order : out.Pairwise fun x y => ∃ p, At p x ∧ ∀ q, At q y → p < q

namespace FirstSeen

omit [DecidableEq β] in
theorem nil : FirstSeen At 0 [] where
  nodup := List.nodup_nil
  mem_iff _ := ⟨fun h => absurd h List.not_mem_nil, fun ⟨_, hp, _⟩ => absurd hp (Nat.not_lt_zero _)⟩
  order := .nil

omit [DecidableEq β] in
theorem skip (h : FirstSeen At i out) (hle : i ≤ j) (hnone : ∀ p x, i ≤ p → p < j → ¬At p x) :
    FirstSeen At j out where
  nodup := h.nodup
  mem_iff x := by
    rw [h.mem_iff]
    constructor
    · rintro ⟨p, hp, hat⟩
      exact ⟨p, Nat.lt_of_lt_of_le hp hle, hat⟩
    · rintro ⟨p, hp, hat⟩
      exact ⟨p, Nat.lt_of_not_le fun hi => hnone p x hi hp hat, hat⟩
  order := h.order

theorem push (h : FirstSeen At i out) (hlt : i < j) (hat : At i x)
    (honly : ∀ p y, i ≤ p → p < j → At p y → y = x) : FirstSeen At j (pushNew out x) where
  nodup := nodup_pushNew h.nodup
  mem_iff y := by
    rw [mem_pushNew, h.mem_iff]
    constructor
    · rintro (⟨p, hp, hy⟩ | rfl)
      · exact ⟨p, Nat.lt_trans hp hlt, hy⟩
      · exact ⟨i, hlt, hat⟩
    · rintro ⟨p, hp, hy⟩
      rcases Nat.lt_or_ge p i with hpi | hpi
      · exact .inl ⟨p, hpi, hy⟩
      · exact .inr (honly p y hpi hp hy)
  order := by
    unfold pushNew
    split
    · exact h.order
    · next hx =>
        refine List.pairwise_append.2 ⟨h.order, List.pairwise_singleton _ _, ?_⟩
        intro y hy z hz
        obtain rfl := List.mem_singleton.1 hz
        -- a listed label stands before `i`, and one that is not listed does not
        obtain ⟨p, hp, hat'⟩ := (h.mem_iff y).1 hy
        refine ⟨p, hat', fun q hq => Nat.lt_of_lt_of_le hp (Nat.le_of_not_lt fun hqi => ?_)⟩
        exact hx ((h.mem_iff z).2 ⟨q, hqi, hq⟩)

end FirstSeen

end FirstSeen

section Trailing

variable {α : Type} [DecidableEq α] {x y : α}

/-- How many `x` stand at the end. -/
def trailing (x : α) (s : List α) : Nat := (s.reverse.takeWhile (· = x)).length

@[simp] theorem trailing_append_self (s : List α) :
    trailing x (s ++ [x]) = trailing x s + 1 := by
  simp [trailing]

theorem trailing_append_of_ne (s : List α) (h : y ≠ x) : trailing x (s ++ [y]) = 0 := by
  simp [trailing, h]

end Trailing

end Buzz.Lib
