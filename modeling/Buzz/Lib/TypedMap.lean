import Buzz.Lib.HashMap

/-!
# Maps whose values keep their type

An assignment to a new key succeeds; one to a key that has a value succeeds if
the value has the type of the new one, and fails otherwise. A list of
assignments goes through exactly when no two of them, and none of them and the
map it starts from, disagree on the type of a key; and a key that was assigned
has its last value, wherever the list started.
-/

namespace Buzz.Lib

variable {κ ν τ ε : Type} [DecidableEq κ] [DecidableEq τ] {ty : ν → τ} {clash : ν → ν → ε}

namespace HMap

/-- Assign, keeping the type. -/
def setTyped (ty : ν → τ) (clash : ν → ν → ε) (m : HMap κ ν) (k : κ) (v : ν) :
    Except ε (HMap κ ν) :=
  match m.lookup k with
  | none => .ok (m.insert k v)
  | some old => if ty old = ty v then .ok (m.insert k v) else .error (clash old v)

/-- Assign one after the other. -/
def setAll (ty : ν → τ) (clash : ν → ν → ε) : List (κ × ν) → HMap κ ν → Except ε (HMap κ ν)
  | [], m => .ok m
  | (k, v) :: l, m => setTyped ty clash m k v >>= setAll ty clash l

/-- No two assignments disagree on the type of a key. -/
def Consistent (ty : ν → τ) (l : List (κ × ν)) : Prop :=
  ∀ a ∈ l, ∀ b ∈ l, a.1 = b.1 → ty a.2 = ty b.2

instance decidableConsistent (ty : ν → τ) (l : List (κ × ν)) : Decidable (Consistent ty l) :=
  inferInstanceAs (Decidable (∀ a ∈ l, ∀ b ∈ l, a.1 = b.1 → ty a.2 = ty b.2))

/-- The value the last assignment to the key leaves. -/
def lastValue (k : κ) : List (κ × ν) → Option ν
  | [] => none
  | (k', v) :: l => (lastValue k l).or (if k = k' then some v else none)

variable {m m' : HMap κ ν} {l l' : List (κ × ν)} {k : κ}

theorem lastValue_append (k : κ) (l l' : List (κ × ν)) :
    lastValue k (l ++ l') = (lastValue k l').or (lastValue k l) := by
  induction l with
  | nil => exact (Option.or_none).symm
  | cons e l ih =>
      obtain ⟨k', v⟩ := e
      rw [List.cons_append, lastValue, lastValue, ih, Option.or_assoc]

theorem lastValue_eq_none_iff : lastValue k l = none ↔ ∀ e ∈ l, e.1 ≠ k := by
  induction l with
  | nil => exact ⟨fun _ => nofun, fun _ => rfl⟩
  | cons e l ih =>
      obtain ⟨k', v⟩ := e
      rw [lastValue, Option.or_eq_none_iff, ih, List.forall_mem_cons, and_comm]
      refine and_congr_left fun _ => ?_
      split
      · next heq => exact ⟨nofun, fun hne => absurd heq.symm hne⟩
      · next hne => exact ⟨fun _ heq => hne heq.symm, fun _ => rfl⟩

theorem setTyped_eq_ok {v : ν} (h : ∀ old, m.lookup k = some old → ty old = ty v) :
    setTyped ty clash m k v = .ok (m.insert k v) := by
  unfold setTyped
  split
  · rfl
  · next old hold => exact if_pos (h old hold)

theorem setTyped_eq_error {v old : ν} (hold : m.lookup k = some old) (h : ty old ≠ ty v) :
    setTyped ty clash m k v = .error (clash old v) := by
  unfold setTyped
  rw [hold]
  exact if_neg h

/-- When a list of assignments goes through, and what it leaves. -/
theorem setAll_spec (ty : ν → τ) (clash : ν → ν → ε) (l : List (κ × ν)) (m : HMap κ ν) :
    (∃ m', setAll ty clash l m = .ok m' ∧
      (Consistent ty l ∧ ∀ e ∈ l, ∀ old, m.lookup e.1 = some old → ty old = ty e.2) ∧
      ∀ k, m'.lookup k = (lastValue k l).or (m.lookup k)) ∨
    (∃ error, setAll ty clash l m = .error error) ∧
      ¬(Consistent ty l ∧ ∀ e ∈ l, ∀ old, m.lookup e.1 = some old → ty old = ty e.2) := by
  induction l generalizing m with
  | nil => exact .inl ⟨m, rfl, ⟨nofun, nofun⟩, fun k => rfl⟩
  | cons e l ih =>
      obtain ⟨k, v⟩ := e
      by_cases hold : ∀ old, m.lookup k = some old → ty old = ty v
      · have hset : setAll ty clash ((k, v) :: l) m = setAll ty clash l (m.insert k v) := by
          rw [setAll, setTyped_eq_ok hold]
          rfl
        -- The rest starts with the new value, so what it needs of it is consistency.
        have hneeds : (Consistent ty ((k, v) :: l) ∧
            ∀ e ∈ (k, v) :: l, ∀ old, m.lookup e.1 = some old → ty old = ty e.2) ↔
            Consistent ty l ∧
              ∀ e ∈ l, ∀ old, (m.insert k v).lookup e.1 = some old → ty old = ty e.2 := by
          constructor
          · rintro ⟨hcons, hstart⟩
            refine ⟨fun a ha b hb => hcons a (.tail _ ha) b (.tail _ hb), fun e he old hlook => ?_⟩
            rcases lookup_insert_cases hlook with ⟨hk, rfl⟩ | ⟨-, hlook⟩
            · exact hcons (k, old) (.head _) e (.tail _ he) hk.symm
            · exact hstart e (.tail _ he) old hlook
          · rintro ⟨hcons, hstart⟩
            have hnew : ∀ e ∈ l, e.1 = k → ty v = ty e.2 := by
              intro e he hk
              refine hstart e he v ?_
              rw [lookup_insert_ite, if_pos hk]
            refine ⟨fun a ha b hb hab => ?_, fun e he old hlook => ?_⟩
            · rcases List.mem_cons.1 ha with rfl | ha
              · rcases List.mem_cons.1 hb with rfl | hb
                · rfl
                · exact hnew b hb hab.symm
              · rcases List.mem_cons.1 hb with rfl | hb
                · exact (hnew a ha hab).symm
                · exact hcons a ha b hb hab
            · rcases List.mem_cons.1 he with rfl | he
              · exact hold old hlook
              · by_cases hk : e.1 = k
                · exact (hold old (hk ▸ hlook)).trans (hnew e he hk)
                · refine hstart e he old ?_
                  rw [lookup_insert_ite, if_neg hk]
                  exact hlook
        rcases ih (m.insert k v) with ⟨m', hok, hcond, hlook⟩ | ⟨⟨error, herr⟩, hcond⟩
        · refine .inl ⟨m', hset.trans hok, hneeds.2 hcond, fun k' => ?_⟩
          rw [hlook, lookup_insert_ite, lastValue, Option.or_assoc]
          congr 1
          split
          · rfl
          · rfl
        · exact .inr ⟨⟨error, hset.trans herr⟩, fun h => hcond (hneeds.1 h)⟩
      · obtain ⟨old, hlook, hne⟩ : ∃ old, m.lookup k = some old ∧ ty old ≠ ty v := by
          by_contra hnone
          refine hold fun old hlook => ?_
          by_contra hne
          exact hnone ⟨old, hlook, hne⟩
        refine .inr ⟨⟨clash old v, ?_⟩, fun h => hold (h.2 (k, v) (.head _))⟩
        rw [setAll, setTyped_eq_error hlook hne]
        rfl

theorem setAll_append (l l' : List (κ × ν)) (m : HMap κ ν) :
    setAll ty clash (l ++ l') m = setAll ty clash l m >>= setAll ty clash l' := by
  induction l generalizing m with
  | nil => rfl
  | cons e l ih =>
      obtain ⟨k, v⟩ := e
      rw [List.cons_append, setAll, setAll]
      cases setTyped ty clash m k v with
      | error error => rfl
      | ok m' => exact ih m'

end HMap

end Buzz.Lib
