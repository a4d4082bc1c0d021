import Buzz.Audit.Hash
import Buzz.Lib.Scan

/-!
# Engram slugs and references

`validate_slug` and `extract_refs` of `buzz-core/src/engram.rs`. A body is a
text; the scanner walks over its bytes and cuts the candidates out of the text
by byte offsets. A cut inside a character would panic, which is `none` here.

An error of a slug is kept as what it says; the source prints the slug and the
segment with escapes.
-/

namespace Buzz.Core.Engram

open Buzz.Audit (utf8)
open Buzz.Lib

/-! ## Slugs -/

/-- `CORE_SLUG`. -/
def coreSlug : List Char := "core".toList

/-- `SLUG_MAX_LEN`. -/
def slugMaxLen : Nat := 255

/-- `MEM_PREFIX`. -/
def memStart : List Char := "mem/".toList

inductive SlugError where
  | tooLong (length : Nat)
  | notMem (slug : List Char)
  | emptyAfterMem
  | segment (index : Nat) (segment : List Char) (why : String)
deriving DecidableEq

def isLowerAlnum (b : UInt8) : Bool := (97 ≤ b && b ≤ 122) || (48 ≤ b && b ≤ 57)

def validateSegment (s : List Char) : Except String Unit :=
  match utf8 s with
  | [] => .error "empty"
  | first :: rest =>
    if 64 < (first :: rest).length then .error "longer than 64 bytes"
    else if !isLowerAlnum first then .error "first byte must be [a-z0-9]"
    else if rest.any fun b => !(isLowerAlnum b || b == 95 || b == 45) then
      .error "only [a-z0-9_-] allowed after the first byte"
    else .ok ()

/-- The loop over the segments, which are counted from one. -/
def validateSegments (index : Nat) : List (List Char) → Except SlugError Unit
  | [] => .ok ()
  | segment :: rest =>
    match validateSegment segment with
    | .error why => .error (.segment index segment why)
    | .ok () => validateSegments (index + 1) rest

def validateSlug (slug : List Char) : Except SlugError Unit :=
  if slug = coreSlug then .ok ()
  else if slugMaxLen < (utf8 slug).length then .error (.tooLong (utf8 slug).length)
  else
    match slug.dropPrefix? memStart with
    | none => .error (.notMem slug)
    | some rest =>
      if rest = [] then .error .emptyAfterMem
      else validateSegments 1 (rest.splitOn '/')

/-! ## Slices of a text -/

/-- `&text[offset..]`. -/
def dropBytes : List Char → Nat → Option (List Char)
  | text, 0 => some text
  | [], _ + 1 => none
  | c :: text, n + 1 => if c.utf8Size ≤ n + 1 then dropBytes text (n + 1 - c.utf8Size) else none

/-- `&text[..offset]`. -/
def takeBytes : List Char → Nat → Option (List Char)
  | _, 0 => some []
  | [], _ + 1 => none
  | c :: text, n + 1 =>
    if c.utf8Size ≤ n + 1 then (takeBytes text (n + 1 - c.utf8Size)).map (c :: ·) else none

/-- `&text[start..stop]`. -/
def slice (text : List Char) (start stop : Nat) : Option (List Char) :=
  (dropBytes text start).bind fun rest => takeBytes rest (stop - start)

/-! ## References -/

def openBracket : UInt8 := 91

def closeBracket : UInt8 := 93

/-- `bytes[i] == b && bytes[i + 1] == b`. -/
def twiceAt (b : UInt8) (bytes : List UInt8) (i : Nat) : Bool :=
  bytes[i]? = some b && bytes[i + 1]? = some b

/-- The inner loop: where the first closing pair from `j` on stands, unless an
opening pair or the end comes first. -/
def closesAt (bytes : List UInt8) (j : Nat) : Option Nat :=
  if j + 1 < bytes.length then
    if twiceAt openBracket bytes j then none
    else if twiceAt closeBracket bytes j then some j
    else closesAt bytes (j + 1)
  else none
termination_by bytes.length - j

theorem le_closesAt {bytes : List UInt8} {j k : Nat} (h : closesAt bytes j = some k) : j ≤ k := by
  fun_induction closesAt bytes j with
  | case1 => cases h
  | case2 =>
      cases h
      exact Nat.le_refl _
  | case3 j hlt hopen hclose ih => exact Nat.le_of_succ_le (ih h)
  | case4 => cases h

/-- The outer loop. -/
def scanRefs (body : List Char) (bytes : List UInt8) (i : Nat) (out : List (List Char)) :
    Option (List (List Char)) :=
  if i + 3 < bytes.length then
    if twiceAt openBracket bytes i then
      match _ : closesAt bytes (i + 2) with
      | some j => do
        let candidate ← slice body (i + 2) j
        scanRefs body bytes (j + 2)
          (if validateSlug candidate = .ok () then pushNew out candidate else out)
      -- an opening pair without its end, also when another one comes first
      | none => scanRefs body bytes (i + 2) out
    else scanRefs body bytes (i + 1) out
  else some out
termination_by bytes.length - i
decreasing_by
  · have := le_closesAt ‹closesAt bytes (i + 2) = some j›
    omega
  · omega
  · omega

def extractRefs (body : List Char) : Option (List (List Char)) :=
  scanRefs body (utf8 body) 0 []

end Buzz.Core.Engram
