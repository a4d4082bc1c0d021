import Mathlib.Data.List.Basic

/-!
# Packets with their length in front

A packet is four hex digits and a payload, and the digits give the length of
both. A length below four stands for itself: a packet with no payload, of which
`0000` ends a group of packets.
-/

namespace Buzz.Lib

/-- The lower case digit of a number below 16. -/
def digitByte (n : Nat) : UInt8 :=
  if n < 10 then UInt8.ofNat (48 + n) else UInt8.ofNat (87 + n)

/-- The four digits of a length. -/
def pktHeader (n : Nat) : List UInt8 :=
  [digitByte (n / 4096), digitByte (n / 256 % 16), digitByte (n / 16 % 16),
    digitByte (n % 16)]

def pkt (payload : List UInt8) : List UInt8 :=
  pktHeader (payload.length + 4) ++ payload

def flushPkt : List UInt8 := pktHeader 0

/-- The packets of these lines, and a flush. -/
def pktGroup (lines : List (List UInt8)) : List UInt8 :=
  lines.flatMap pkt ++ flushPkt

theorem pktGroup_cons (line : List UInt8) (lines : List (List UInt8)) :
    pktGroup (line :: lines) =
      pktHeader (line.length + 4) ++ (line ++ pktGroup lines) := by
  unfold pktGroup pkt
  rw [List.flatMap_cons, List.append_assoc, List.append_assoc]

/-- `format!("{len:04x}")`: four digits, or as many as there are. -/
def hexLen (len : Nat) : List Char := (Nat.toDigits 16 len).leftpad 4 '0'

theorem hexLen_eq {n : Nat} (h : n < 65536) :
    hexLen n = [Nat.digitChar (n / 4096), Nat.digitChar (n / 256 % 16),
      Nat.digitChar (n / 16 % 16), Nat.digitChar (n % 16)] := by
  unfold hexLen
  rcases Nat.lt_or_ge n 16 with h1 | h1
  · rw [Nat.toDigits_of_lt_base h1, Nat.div_eq_of_lt (a := n) (b := 4096) (by omega),
      Nat.div_eq_of_lt (a := n) (b := 256) (by omega),
      Nat.div_eq_of_lt (a := n) (b := 16) (by omega), Nat.mod_eq_of_lt h1]
    rfl
  · rw [Nat.toDigits_of_base_le (by decide) h1]
    rcases Nat.lt_or_ge n 256 with h2 | h2
    · rw [Nat.toDigits_of_lt_base (by omega : n / 16 < 16),
        Nat.div_eq_of_lt (a := n) (b := 4096) (by omega),
        Nat.div_eq_of_lt (a := n) (b := 256) (by omega),
        Nat.mod_eq_of_lt (by omega : n / 16 < 16)]
      rfl
    · rw [Nat.toDigits_of_base_le (by decide) (by omega : 16 ≤ n / 16), Nat.div_div_eq_div_mul]
      rcases Nat.lt_or_ge n 4096 with h3 | h3
      · rw [Nat.toDigits_of_lt_base (by omega : n / (16 * 16) < 16),
          Nat.div_eq_of_lt (a := n) (b := 4096) (by omega),
          Nat.mod_eq_of_lt (by omega : n / 256 < 16)]
        rfl
      · rw [Nat.toDigits_of_base_le (by decide) (by omega : 16 ≤ n / (16 * 16)),
          Nat.div_div_eq_div_mul, Nat.toDigits_of_lt_base (by omega : n / (16 * 16 * 16) < 16)]
        rfl

theorem utf8EncodeChar_digitChar :
    ∀ d < 16, String.utf8EncodeChar (Nat.digitChar d) = [digitByte d] := by
  decide

/-- The formatted length is the header, where four digits are enough for it. -/
theorem flatMap_hexLen {n : Nat} (h : n < 65536) :
    (hexLen n).flatMap String.utf8EncodeChar = pktHeader n := by
  rw [hexLen_eq h, List.flatMap_cons, List.flatMap_cons, List.flatMap_cons,
    List.flatMap_cons, List.flatMap_nil, utf8EncodeChar_digitChar _ (by omega),
    utf8EncodeChar_digitChar _ (by omega), utf8EncodeChar_digitChar _ (by omega),
    utf8EncodeChar_digitChar _ (by omega)]
  rfl

end Buzz.Lib
