import Buzz.Core.Json
import Mathlib.Algebra.Order.Group.Nat

/-!
# JSON values with their numbers

`serde_json::Value` once more, with the numbers as they are kept: a `u64`, a
negative `i64` or a finite `f64`. Numbers of different kinds are never equal,
and two floats are equal if their values are, so that `0.0` and `-0.0` are. A
float is its sign, biased exponent and fraction.

Floats are printed by a crate of their own. `FloatText` is what is relied on:
the text reads back as the float it came from, sign of a zero included, and is
never that of an integer. `toJson` puts the text of every number in its place.
-/

namespace Buzz

/-! ## Integers as text -/

/-- A number's digits with its sign before them. -/
def signedText (negative : Bool) (n : Nat) : List Char :=
  (if negative then ['-'] else []) ++ Nat.toDigits 10 n

/-- The digits of an integer. -/
def intText (n : Int) : List Char := signedText (n < 0) n.natAbs

variable {negative : Bool} {n : Nat}

theorem mem_signedText {c : Char} (h : c ∈ signedText negative n) :
    c = '-' ∨ c.isDigit = true := by
  rcases List.mem_append.1 h with h | h
  · split at h
    · exact .inl (List.mem_singleton.1 h)
    · cases h
  · exact .inr (Nat.isDigit_of_mem_toDigits (by decide) (by decide) h)

theorem signedText_isNumberChar (negative : Bool) (n : Nat) :
    (signedText negative n).all isNumberChar = true := by
  refine List.all_eq_true.2 fun c hc => ?_
  unfold isNumberChar
  rcases mem_signedText hc with rfl | hdigit
  · rfl
  · rw [hdigit]
    rfl

theorem signedText_ne_nil :
    signedText negative n ≠ [] :=
  List.append_ne_nil_of_right_ne_nil _ Nat.toDigits_ne_nil

theorem toDigits_ne_minus_cons {rest : List Char} :
    Nat.toDigits 10 n ≠ '-' :: rest := by
  intro h
  have hmem : '-' ∈ Nat.toDigits 10 n := by
    rw [h]
    exact List.mem_cons_self
  exact absurd (Nat.isDigit_of_mem_toDigits (by decide) (by decide) hmem)
    (by decide)

theorem toDigits_injective {n' : Nat}
    (h : Nat.toDigits 10 n = Nat.toDigits 10 n') : n = n' := by
  rw [← Nat.ofDigitChars_ten_toDigits (n := n), h, Nat.ofDigitChars_ten_toDigits]

theorem signedText_injective {negative' : Bool} {n' : Nat}
    (h : signedText negative n = signedText negative' n') :
    negative = negative' ∧ n = n' := by
  unfold signedText at h
  cases negative <;> cases negative'
  · exact ⟨rfl, toDigits_injective h⟩
  · exact absurd h toDigits_ne_minus_cons
  · exact absurd h.symm toDigits_ne_minus_cons
  · exact ⟨rfl, toDigits_injective (List.append_cancel_left h)⟩

theorem intText_injective {n n' : Int} (h : intText n = intText n') : n = n' := by
  obtain ⟨hsign, habs⟩ := signedText_injective h
  rw [decide_eq_decide] at hsign
  omega

/-- An integer as it is printed. -/
def JsonNumber.ofInt (n : Int) : JsonNumber :=
  ⟨intText n, signedText_ne_nil, signedText_isNumberChar _ _⟩

namespace Serde

/-! ## Floats -/

/-- A finite `f64`. -/
structure F64 where
  negative : Bool
  /-- Biased; 2047 is for infinities and what is no number. -/
  exponent : Fin 2047
  fraction : Fin (2 ^ 52)
deriving DecidableEq

namespace F64

/-- The magnitude in units of `2 ^ -1074`, of which every finite float is a
multiple. -/
def magnitude (x : F64) : Nat :=
  if x.exponent.val = 0 then x.fraction.val
  else (2 ^ 52 + x.fraction.val) * 2 ^ (x.exponent.val - 1)

/-- The value in these units. -/
def scaled (x : F64) : Int :=
  if x.negative then -(x.magnitude : Int) else x.magnitude

/-- `==` of two floats. -/
def eq (x y : F64) : Bool := x.scaled = y.scaled

def zero (negative : Bool) : F64 := ⟨negative, ⟨0, by decide⟩, ⟨0, by decide⟩⟩

theorem magnitude_lt {x y : F64} (h : x.exponent < y.exponent) :
    x.magnitude < y.magnitude := by
  have hx := x.fraction.isLt
  have hpos : y.exponent.val ≠ 0 := by
    have := Fin.lt_def.1 h
    omega
  have hy : 2 ^ 52 * 2 ^ (y.exponent.val - 1) ≤ y.magnitude := by
    unfold magnitude
    rw [if_neg hpos]
    exact Nat.mul_le_mul_right _ (Nat.le_add_right _ _)
  refine Nat.lt_of_lt_of_le ?_ hy
  unfold magnitude
  split
  · exact Nat.lt_of_lt_of_le hx (Nat.le_mul_of_pos_right _ (Nat.two_pow_pos _))
  · next hx0 =>
      have hexp : x.exponent.val - 1 + 1 ≤ y.exponent.val - 1 := by
        have := Fin.lt_def.1 h
        omega
      calc (2 ^ 52 + x.fraction.val) * 2 ^ (x.exponent.val - 1)
          < (2 ^ 52 + 2 ^ 52) * 2 ^ (x.exponent.val - 1) :=
            Nat.mul_lt_mul_of_pos_right (by omega) (Nat.two_pow_pos _)
        _ = 2 ^ 52 * 2 ^ (x.exponent.val - 1 + 1) := by
            rw [Nat.pow_succ 2 (x.exponent.val - 1)]
            omega
        _ ≤ 2 ^ 52 * 2 ^ (y.exponent.val - 1) :=
            Nat.mul_le_mul_left _ (Nat.pow_le_pow_right (by decide) hexp)

theorem fields_of_magnitude {x y : F64} (h : x.magnitude = y.magnitude) :
    x.exponent = y.exponent ∧ x.fraction = y.fraction := by
  rcases lt_trichotomy x.exponent y.exponent with hlt | heq | hlt
  · exact absurd h (magnitude_lt hlt).ne
  · refine ⟨heq, Fin.ext ?_⟩
    unfold magnitude at h
    rw [heq] at h
    split at h
    · exact h
    · have := Nat.eq_of_mul_eq_mul_right (Nat.two_pow_pos _) h
      omega
  · exact absurd h (magnitude_lt hlt).ne'

/-- Two floats of one value are the same, or zeros of two signs. -/
theorem eq_iff {x y : F64} :
    x.eq y = true ↔ x = y ∨ (x.magnitude = 0 ∧ y.magnitude = 0) := by
  unfold eq
  rw [decide_eq_true_iff]
  constructor
  · intro h
    have habs : x.magnitude = y.magnitude := by
      unfold scaled at h
      split at h <;> split at h <;> omega
    by_cases hzero : x.magnitude = 0
    · exact .inr ⟨hzero, habs ▸ hzero⟩
    · left
      obtain ⟨hexp, hfrac⟩ := fields_of_magnitude habs
      have hsign : x.negative = y.negative := by
        unfold scaled at h
        split at h <;> split at h
        · next hx hy => rw [hx, hy]
        · omega
        · omega
        · next hx hy => rw [Bool.not_eq_true] at hx hy; rw [hx, hy]
      cases x
      cases y
      simp only at hexp hfrac hsign
      rw [hexp, hfrac, hsign]
  · rintro (rfl | ⟨hx, hy⟩)
    · rfl
    · unfold scaled
      rw [hx, hy]
      simp

end F64

/-- How finite floats are printed. -/
structure FloatText where
  text : F64 → List Char
  chars : ∀ x, (text x).all isNumberChar = true
  /-- There is a point or an exponent. -/
  marked : ∀ x, '.' ∈ text x ∨ 'e' ∈ text x
  /-- The text reads back as the float, so that no other one has it. -/
  injective : Function.Injective text

/-! ## Numbers -/

inductive Number where
  | posInt (n : UInt64)
  | negInt (n : Int64) (negative : n < 0)
  | float (x : F64)
deriving DecidableEq

namespace Number

/-- `==` of two numbers. -/
def eq : Number → Number → Bool
  | posInt n, posInt m => n = m
  | negInt n _, negInt m _ => n = m
  | float x, float y => x.eq y
  | _, _ => false

def isNegZero : Number → Bool
  | float x => x.negative && x.magnitude = 0
  | _ => false

/-- Equal, and not zeros of two signs. -/
def Same (n m : Number) : Prop := n.eq m = true ∧ n.isNegZero = m.isNegZero

theorem same_iff {n m : Number} : n.Same m ↔ n = m := by
  constructor
  · rintro ⟨heq, hsign⟩
    cases n with
    | posInt n =>
        cases m with
        | posInt m => rw [of_decide_eq_true heq]
        | negInt | float => cases heq
    | negInt n hn =>
        cases m with
        | negInt m hm =>
            cases of_decide_eq_true heq
            rfl
        | posInt | float => cases heq
    | float x =>
        cases m with
        | float y =>
            rcases F64.eq_iff.1 heq with rfl | ⟨hx, hy⟩
            · rfl
            · obtain ⟨hexp, hfrac⟩ := F64.fields_of_magnitude (hx.trans hy.symm)
              simp only [isNegZero, hx, hy, decide_true, Bool.and_true] at hsign
              cases x
              cases y
              simp only at hexp hfrac hsign
              rw [hexp, hfrac, hsign]
        | posInt | negInt => cases heq
  · rintro rfl
    refine ⟨?_, rfl⟩
    cases n with
    | posInt n => exact decide_eq_true rfl
    | negInt n hn => exact decide_eq_true rfl
    | float x => exact F64.eq_iff.2 (.inl rfl)

/-- The text of a number. -/
def print (p : FloatText) : Number → JsonNumber
  | posInt n => .ofInt n.toNat
  | negInt n _ => .ofInt n.toInt
  | float x => ⟨p.text x, by
      intro h
      have := p.marked x
      rw [h] at this
      exact this.elim List.not_mem_nil List.not_mem_nil, p.chars x⟩

/-- No float is printed as an integer. -/
theorem intText_ne_text {p : FloatText} {n : Int} {x : F64} :
    intText n ≠ p.text x := by
  intro h
  rcases p.marked x with hmark | hmark
  · rw [← h] at hmark
    rcases mem_signedText hmark with hc | hc
    · exact absurd hc (by decide)
    · exact absurd hc (by decide)
  · rw [← h] at hmark
    rcases mem_signedText hmark with hc | hc
    · exact absurd hc (by decide)
    · exact absurd hc (by decide)

theorem print_injective {p : FloatText} {n m : Number}
    (h : n.print p = m.print p) : n = m := by
  have htext := congrArg JsonNumber.text h
  cases n with
  | posInt n =>
      cases m with
      | posInt m =>
          have := intText_injective htext
          rw [UInt64.toNat_inj.1 (Int.ofNat_inj.1 this)]
      | negInt m hm =>
          have := intText_injective htext
          have hneg := Int64.lt_iff_toInt_lt.1 hm
          rw [← this] at hneg
          exact absurd hneg (by simp)
      | float y => exact absurd htext intText_ne_text
  | negInt n hn =>
      cases m with
      | posInt m =>
          have := intText_injective htext
          have hneg := Int64.lt_iff_toInt_lt.1 hn
          rw [this] at hneg
          exact absurd hneg (by simp)
      | negInt m hm =>
          cases Int64.toInt_inj.1 (intText_injective htext)
          rfl
      | float y => exact absurd htext intText_ne_text
  | float x =>
      cases m with
      | posInt m => exact absurd htext.symm intText_ne_text
      | negInt m hm => exact absurd htext.symm intText_ne_text
      | float y => rw [p.injective htext]

end Number

/-! ## Values -/

inductive Value where
  | null
  | bool (b : Bool)
  | number (n : Number)
  | string (s : List Char)
  | array (items : List Value)
  | object (fields : List (List Char × Value))

namespace Value

mutual

/-- The value with the text of every number in its place. -/
def toJson (p : FloatText) : Value → Json
  | null => .null
  | bool b => .bool b
  | number n => .number (n.print p)
  | string s => .string s
  | array items => .array (itemsJson p items)
  | object fields => .object (fieldsJson p fields)

def itemsJson (p : FloatText) : List Value → List Json
  | [] => []
  | v :: rest => toJson p v :: itemsJson p rest

def fieldsJson (p : FloatText) :
    List (List Char × Value) → List (List Char × Json)
  | [] => []
  | (k, v) :: rest => (k, toJson p v) :: fieldsJson p rest

end

mutual

theorem toJson_injective {p : FloatText} (v w : Value)
    (h : toJson p v = toJson p w) : v = w := by
  match v with
  | null => cases w <;> simp only [toJson, reduceCtorEq] at h; rfl
  | bool b =>
      cases w <;> simp only [toJson, reduceCtorEq, Json.bool.injEq] at h
      rw [h]
  | number n =>
      cases w <;> simp only [toJson, reduceCtorEq, Json.number.injEq] at h
      rw [Number.print_injective h]
  | string s =>
      cases w <;> simp only [toJson, reduceCtorEq, Json.string.injEq] at h
      rw [h]
  | array items =>
      cases w <;> simp only [toJson, reduceCtorEq, Json.array.injEq] at h
      rw [itemsJson_injective items _ h]
  | object fields =>
      cases w <;> simp only [toJson, reduceCtorEq, Json.object.injEq] at h
      rw [fieldsJson_injective fields _ h]

theorem itemsJson_injective {p : FloatText} (items items' : List Value)
    (h : itemsJson p items = itemsJson p items') : items = items' := by
  match items, items' with
  | [], [] => rfl
  | [], w :: rest' => cases h
  | v :: rest, [] => cases h
  | v :: rest, w :: rest' =>
      rw [itemsJson, itemsJson, List.cons.injEq] at h
      rw [toJson_injective v w h.1, itemsJson_injective rest rest' h.2]

theorem fieldsJson_injective {p : FloatText}
    (fields fields' : List (List Char × Value))
    (h : fieldsJson p fields = fieldsJson p fields') : fields = fields' := by
  match fields, fields' with
  | [], [] => rfl
  | [], f :: rest' => cases h
  | f :: rest, [] => cases h
  | (k, v) :: rest, (k', w) :: rest' =>
      rw [fieldsJson, fieldsJson, List.cons.injEq, Prod.mk.injEq] at h
      rw [h.1.1, toJson_injective v w h.1.2,
        fieldsJson_injective rest rest' h.2]

end

end Value

end Serde

end Buzz
