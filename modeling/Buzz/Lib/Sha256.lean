import Mathlib.Data.List.Basic

/-!
# SHA-256

The hash as FIPS 180-4 has it, over lists of bytes. A word is a natural number
below `2 ^ 32`. Nothing is proved about it: that two given messages do not
collide is an assumption wherever it is used.
-/

namespace Buzz.Lib.Sha256

def word (n : Nat) : Nat := n % 4294967296

/-- The low bytes of a number, so many of them, the highest first. -/
def beBytes : Nat → Nat → List UInt8
  | 0, _ => []
  | len + 1, n => beBytes len (n / 256) ++ [UInt8.ofNat (n % 256)]

theorem length_beBytes (len n : Nat) : (beBytes len n).length = len := by
  induction len generalizing n with
  | zero => rfl
  | succ len ih => rw [beBytes, List.length_append, ih, List.length_singleton]

def rotr (k x : Nat) : Nat := word ((x >>> k) ||| (x <<< (32 - k)))

def bigSigma0 (x : Nat) : Nat := rotr 2 x ^^^ rotr 13 x ^^^ rotr 22 x
def bigSigma1 (x : Nat) : Nat := rotr 6 x ^^^ rotr 11 x ^^^ rotr 25 x
def smallSigma0 (x : Nat) : Nat := rotr 7 x ^^^ rotr 18 x ^^^ (x >>> 3)
def smallSigma1 (x : Nat) : Nat := rotr 17 x ^^^ rotr 19 x ^^^ (x >>> 10)

def choose (x y z : Nat) : Nat := (x &&& y) ^^^ ((4294967295 - x) &&& z)
def majority (x y z : Nat) : Nat := (x &&& y) ^^^ (x &&& z) ^^^ (y &&& z)

def roundConstants : List Nat :=
  [0x428a2f98, 0x71374491, 0xb5c0fbcf, 0xe9b5dba5, 0x3956c25b, 0x59f111f1, 0x923f82a4, 0xab1c5ed5,
    0xd807aa98, 0x12835b01, 0x243185be, 0x550c7dc3, 0x72be5d74, 0x80deb1fe, 0x9bdc06a7, 0xc19bf174,
    0xe49b69c1, 0xefbe4786, 0x0fc19dc6, 0x240ca1cc, 0x2de92c6f, 0x4a7484aa, 0x5cb0a9dc, 0x76f988da,
    0x983e5152, 0xa831c66d, 0xb00327c8, 0xbf597fc7, 0xc6e00bf3, 0xd5a79147, 0x06ca6351, 0x14292967,
    0x27b70a85, 0x2e1b2138, 0x4d2c6dfc, 0x53380d13, 0x650a7354, 0x766a0abb, 0x81c2c92e, 0x92722c85,
    0xa2bfe8a1, 0xa81a664b, 0xc24b8b70, 0xc76c51a3, 0xd192e819, 0xd6990624, 0xf40e3585, 0x106aa070,
    0x19a4c116, 0x1e376c08, 0x2748774c, 0x34b0bcb5, 0x391c0cb3, 0x4ed8aa4a, 0x5b9cca4f, 0x682e6ff3,
    0x748f82ee, 0x78a5636f, 0x84c87814, 0x8cc70208, 0x90befffa, 0xa4506ceb, 0xbef9a3f7, 0xc67178f2]

/-- The eight working words. -/
structure State where
  a : Nat
  b : Nat
  c : Nat
  d : Nat
  e : Nat
  f : Nat
  g : Nat
  h : Nat

def State.initial : State :=
  ⟨0x6a09e667, 0xbb67ae85, 0x3c6ef372, 0xa54ff53a, 0x510e527f, 0x9b05688c, 0x1f83d9ab, 0x5be0cd19⟩

def State.add (s t : State) : State :=
  ⟨word (s.a + t.a), word (s.b + t.b), word (s.c + t.c), word (s.d + t.d), word (s.e + t.e),
    word (s.f + t.f), word (s.g + t.g), word (s.h + t.h)⟩

def State.words (s : State) : List Nat := [s.a, s.b, s.c, s.d, s.e, s.f, s.g, s.h]

def State.round (s : State) (k w : Nat) : State :=
  let t₁ := s.h + bigSigma1 s.e + choose s.e s.f s.g + k + w
  let t₂ := bigSigma0 s.a + majority s.a s.b s.c
  ⟨word (t₁ + t₂), s.a, s.b, s.c, word (s.d + t₁), s.e, s.f, s.g⟩

/-- One more word of the schedule; the newest stands first. -/
def extend (ws : List Nat) : List Nat :=
  word (smallSigma1 (ws.getD 1 0) + ws.getD 6 0 + smallSigma0 (ws.getD 14 0) + ws.getD 15 0) :: ws

def wordsOf : List UInt8 → List Nat
  | a :: b :: c :: d :: rest =>
      (((a.toNat * 256 + b.toNat) * 256 + c.toNat) * 256 + d.toNat) :: wordsOf rest
  | _ => []

def schedule (block : List UInt8) : List Nat :=
  ((List.range 48).foldl (fun ws _ => extend ws) (wordsOf block).reverse).reverse

def compress (s : State) (block : List UInt8) : State :=
  s.add ((roundConstants.zip (schedule block)).foldl (fun s kw => s.round kw.1 kw.2) s)

/-- The message, a one bit, zeros up to eight bytes before the end of a block,
and its length in bits. -/
def pad (message : List UInt8) : List UInt8 :=
  message ++ [0x80] ++ List.replicate ((119 - message.length % 64) % 64) 0 ++
    beBytes 8 (8 * message.length)

def blocks : Nat → List UInt8 → List (List UInt8)
  | 0, _ => []
  | count + 1, bytes => bytes.take 64 :: blocks count (bytes.drop 64)

def final (message : List UInt8) : State :=
  let padded := pad message
  (blocks (padded.length / 64) padded).foldl compress .initial

def digest (message : List UInt8) : List UInt8 := (final message).words.flatMap (beBytes 4)

theorem length_digest (message : List UInt8) : (digest message).length = 32 := by
  simp [digest, State.words, length_beBytes]

/-- The message "abc". -/
example : digest [0x61, 0x62, 0x63] =
    [0xba, 0x78, 0x16, 0xbf, 0x8f, 0x01, 0xcf, 0xea, 0x41, 0x41, 0x40, 0xde, 0x5d, 0xae, 0x22, 0x23,
      0xb0, 0x03, 0x61, 0xa3, 0x96, 0x17, 0x7a, 0x9c, 0xb4, 0x10, 0xff, 0x61, 0xf2, 0x00, 0x15,
      0xad] := by
  decide +kernel

end Buzz.Lib.Sha256
