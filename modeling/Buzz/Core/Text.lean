import Buzz.Core.Nip10
import Mathlib.Tactic.IntervalCases

/-!
# Numbers and bytes read back from text

`str::parse` for the unsigned integers takes one optional plus sign and then
decimal digits, as many leading zeros as there are.
-/

namespace Buzz

/-- `str::parse::<u64>`. -/
def parseU64 (text : List Char) : Option Nat :=
  let digits := if text.head? = some '+' then text.tail else text
  if digits ≠ [] ∧ digits.all Char.isDigit then
    let n := Nat.ofDigitChars 10 digits 0
    if n < 2 ^ 64 then some n else none
  else none

/-- `i64::MAX`. -/
def i64Max : Int := 9223372036854775807

/-- A 64-bit integer as Redis reads it: an optional minus sign, and digits
without leading zeros. -/
def string2ll (text : List Char) : Option Int :=
  let negative := text.head? = some '-'
  let digits := if negative then text.tail else text
  if digits = ['0'] then if negative then none else some 0
  else if digits ≠ [] ∧ digits.head? ≠ some '0' ∧ digits.all Char.isDigit then
    let n : Int := Nat.ofDigitChars 10 digits 0
    let n := if negative then -n else n
    if -i64Max - 1 ≤ n ∧ n ≤ i64Max then some n else none
  else none

theorem parseU64_toDigits {n : Nat} (h : n < 2 ^ 64) :
    parseU64 (Nat.toDigits 10 n) = some n := by
  have hdigit : ∀ c ∈ Nat.toDigits 10 n, c.isDigit := fun c hc =>
    Nat.isDigit_of_mem_toDigits (by decide) (by decide) hc
  have hhead : (Nat.toDigits 10 n).head? ≠ some '+' := by
    intro hplus
    have := hdigit '+' (List.mem_of_head? hplus)
    revert this
    decide
  have hall : Nat.toDigits 10 n ≠ [] ∧ (Nat.toDigits 10 n).all Char.isDigit :=
    ⟨Nat.toDigits_ne_nil, List.all_eq_true.2 hdigit⟩
  unfold parseU64
  simp only [if_neg hhead, if_pos hall, Nat.ofDigitChars_ten_toDigits, if_pos h]

theorem head_toDigits {n : Nat} (h : 0 < n) : (Nat.toDigits 10 n).head? ≠ some '0' := by
  induction n using Nat.strong_induction_on with
  | _ n ih =>
      rw [Nat.toDigits_eq_if (by decide)]
      split
      · next hlt =>
          interval_cases n <;> decide
      · next hge =>
          rw [List.head?_append_of_ne_nil _ Nat.toDigits_ne_nil]
          exact ih (n / 10) (by omega) (by omega)

theorem string2ll_toDigits {n : Nat} (hpos : 0 < n) (h : n < 2 ^ 63) :
    string2ll (Nat.toDigits 10 n) = some (n : Int) := by
  have hdigit : ∀ c ∈ Nat.toDigits 10 n, c.isDigit := fun c hc =>
    Nat.isDigit_of_mem_toDigits (by decide) (by decide) hc
  have hminus : ¬(Nat.toDigits 10 n).head? = some '-' := by
    intro hminus
    have := hdigit '-' (List.mem_of_head? hminus)
    revert this
    decide
  have hzero : Nat.toDigits 10 n ≠ ['0'] := by
    intro heq
    have := head_toDigits hpos
    rw [heq] at this
    exact this rfl
  have hall : Nat.toDigits 10 n ≠ [] ∧ (Nat.toDigits 10 n).head? ≠ some '0' ∧
      (Nat.toDigits 10 n).all Char.isDigit :=
    ⟨Nat.toDigits_ne_nil, head_toDigits hpos, List.all_eq_true.2 hdigit⟩
  have hrange : -i64Max - 1 ≤ (n : Int) ∧ (n : Int) ≤ i64Max := by
    unfold i64Max
    omega
  unfold string2ll
  simp only [if_neg hminus, if_neg hzero, if_pos hall, Nat.ofDigitChars_ten_toDigits,
    if_pos hrange]

theorem hexValue_hexDigit : ∀ n < 16, hexValue (hexDigit n) = some n := by
  decide

theorem hexDecode_hexEncode (bytes : List UInt8) : hexDecode (hexEncode bytes) = some bytes := by
  induction bytes with
  | nil => rfl
  | cons b bs ih =>
      have hb := b.toNat_lt
      have hhigh := hexValue_hexDigit (b.toNat / 16) (by omega)
      have hlow := hexValue_hexDigit (b.toNat % 16) (by omega)
      show hexDecode (hexDigit (b.toNat / 16) :: hexDigit (b.toNat % 16) :: hexEncode bs) = _
      have hbyte : UInt8.ofNat (b.toNat / 16 * 16 + b.toNat % 16) = b := by
        rw [Nat.div_add_mod', UInt8.ofNat_toNat]
      simp only [hexDecode, hhigh, hlow, ih, Option.bind_eq_bind, Option.bind_some, hbyte]
      rfl

theorem Bytes32.ofHex_toHex (b : Bytes32) : Bytes32.ofHex b.toHex = some b := by
  rw [ofHex, toHex, String.toList_ofList, hexDecode_hexEncode]
  exact dif_pos b.size

/-- No separator occurs in what is encoded. -/
theorem not_mem_hexEncode {c : Char} (hc : ∀ n < 16, hexDigit n ≠ c) (bytes : List UInt8) :
    c ∉ hexEncode bytes := by
  intro h
  obtain ⟨b, -, hmem⟩ := List.mem_flatMap.1 h
  have hb := b.toNat_lt
  rcases List.mem_pair.1 hmem with hmem | hmem
  · exact hc _ (by omega) hmem.symm
  · exact hc _ (by omega) hmem.symm

theorem not_mem_toDigits {c : Char} (hc : c.isDigit = false) (n : Nat) :
    c ∉ Nat.toDigits 10 n := by
  intro h
  have := Nat.isDigit_of_mem_toDigits (by decide) (by decide) h
  rw [hc] at this
  cases this

/-! ## The text of a UUID -/

/-- The byte groups of the hyphenated form. -/
def Uuid.groups (u : Uuid) : List (List UInt8) :=
  [(u.bytes.drop 0).take 4, (u.bytes.drop 4).take 2, (u.bytes.drop 6).take 2,
    (u.bytes.drop 8).take 2, (u.bytes.drop 10).take 6]

theorem Uuid.toList_toText (u : Uuid) :
    u.toText.toList = ['-'].intercalate (u.groups.map hexEncode) :=
  String.toList_ofList

theorem Uuid.flatten_groups (u : Uuid) : u.groups.flatten = u.bytes := by
  obtain ⟨bytes, size⟩ := u
  match bytes, size with
  | [_, _, _, _, _, _, _, _, _, _, _, _, _, _, _, _], _ => rfl

theorem Uuid.toText_injective : Function.Injective Uuid.toText := by
  intro u v h
  have htext : ['-'].intercalate (u.groups.map hexEncode) =
      ['-'].intercalate (v.groups.map hexEncode) := by
    rw [← u.toList_toText, ← v.toList_toText, h]
  have hfree : ∀ w : Uuid, ∀ l ∈ w.groups.map hexEncode, '-' ∉ l := by
    intro w l hl
    obtain ⟨bytes, -, rfl⟩ := List.mem_map.1 hl
    exact not_mem_hexEncode (by decide) bytes
  have hsplit := congrArg (List.splitOn '-') htext
  rw [List.splitOn_intercalate '-' (hfree u) (by simp [Uuid.groups]),
    List.splitOn_intercalate '-' (hfree v) (by simp [Uuid.groups])] at hsplit
  have hgroups := (List.map_injective_iff.2 hexEncode_injective) hsplit
  have hbytes : u.bytes = v.bytes := by
    rw [← u.flatten_groups, ← v.flatten_groups, hgroups]
  cases u; cases v; cases hbytes; rfl

theorem Uuid.not_mem_toText {c : Char} (hc : ∀ n < 16, hexDigit n ≠ c) (hdash : c ≠ '-')
    (u : Uuid) : c ∉ u.toText.toList := by
  rw [u.toList_toText]
  have hgroup := fun bytes => not_mem_hexEncode hc bytes
  simp [Uuid.groups, List.intercalate, List.intersperse, hgroup, hdash]

end Buzz
