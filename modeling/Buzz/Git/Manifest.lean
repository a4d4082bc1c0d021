import Buzz.Audit.Hash
import Buzz.Lib.SortedBy
import Mathlib.Data.Char
import Mathlib.Data.List.Infix
import Mathlib.Data.List.Lex
import Mathlib.Order.Fin.Basic

/-!
# Manifests

`buzz-relay/src/api/git/manifest.rs` and the pure half of `cas_publish.rs`. A
manifest is the published state of a repository: its refs, its HEAD, the packs
that cover them and the digest of the manifest it supersedes. Its own digest is
the SHA-256 of its JSON, and that is what the pointer of the repository holds.

Digests and pack keys are 32 bytes here, and text only in the JSON, so that
`MalformedParent` and `MalformedPackKey` cannot come up.
-/

namespace Buzz.Git

open Buzz.Lib (SortedBy)

abbrev RefName := List Char
abbrev Oid := List Char
abbrev Digest := Bytes32

def manifestVersion : Nat := 1
def maxManifestPacks : Nat := 128
def packCompactionThreshold : Nat := maxManifestPacks * 3 / 4
def maxManifestRefs : Nat := 10000
def maxManifestBytes : Nat := 4 * 1024 * 1024

/-! ## Refs -/

/-- `BTreeMap<String, String>`: names and object ids, in the order of the names. -/
structure RefMap where
  entries : List (RefName × Oid)
  sorted : SortedBy Prod.fst entries
deriving DecidableEq

namespace RefMap

def empty : RefMap := ⟨[], List.Pairwise.nil⟩

variable (m : RefMap)

def get (name : RefName) : Option Oid :=
  (m.entries.find? fun e => e.1 = name).map Prod.snd

def containsKey (name : RefName) : Bool := (m.get name).isSome

def keys : List RefName := m.entries.map Prod.fst

def values : List Oid := m.entries.map Prod.snd

def insert (name : RefName) (oid : Oid) : RefMap where
  entries := (m.entries.filter fun e => e.1 ≠ name).orderedInsert (fun a b => a.1 ≤ b.1) (name, oid)
  sorted := by
    refine (m.sorted.filter _).orderedInsert (fun _ _ => Iff.rfl) fun b hb => ?_
    exact of_decide_eq_true (List.mem_filter.1 hb).2

end RefMap

/-! ## Predicates -/

/-- `char::is_ascii_hexdigit`. -/
def isAsciiHexdigit (c : Char) : Bool := (hexValue c).isSome

/-- Starts with `refs/`, does not leave the directory, and has only letters,
digits and four marks. -/
def isSafeRefname (s : RefName) : Bool :=
  decide ("refs/".toList <+: s) && !decide (['.', '.'] <:+: s) && !decide (['/', '/'] <:+: s) &&
    s.getLast? != some '/' &&
    s.all fun c => c.isAlphanum || c == '/' || c == '_' || c == '.' || c == '-'

def isHexOid (s : Oid) : Bool := (s.length == 40 || s.length == 64) && s.all isAsciiHexdigit

/-! ## The manifest -/

structure Manifest where
  version : Nat
  head : RefName
  refs : RefMap
  packs : List Digest
  parent : Option Digest
deriving DecidableEq

inductive ManifestError where
  | unsupportedVersion (got expected : Nat)
  | unsafeRefName (name : RefName)
  | malformedOid (refname : RefName) (oid : Oid)
  | emptyHead
  | tooManyPacks (got max : Nat)
  | tooManyRefs (got max : Nat)
deriving DecidableEq

/-- The check of one ref. -/
def validateRef (refname : RefName) (oid : Oid) : Option ManifestError :=
  if !isSafeRefname refname then some (.unsafeRefName refname)
  else if !isHexOid oid then some (.malformedOid refname oid)
  else none

variable (m : Manifest)

/-- `Manifest::validate`, with the first thing wrong. -/
def Manifest.validate : Option ManifestError :=
  if maxManifestPacks < m.packs.length then some (.tooManyPacks m.packs.length maxManifestPacks)
  else if maxManifestRefs < m.refs.entries.length then
    some (.tooManyRefs m.refs.entries.length maxManifestRefs)
  else if m.head.isEmpty then some .emptyHead
  else if !isSafeRefname m.head then some (.unsafeRefName m.head)
  else m.refs.entries.findSome? fun e => validateRef e.1 e.2

/-- `Vec::dedup`: of equal neighbours one is left. -/
def dedup {α : Type} [DecidableEq α] : List α → List α
  | [] => []
  | a :: l => if l.head? = some a then dedup l else a :: dedup l

/-- The keys of the packs, sorted and without repetition. -/
def sortPacks (packs : List Digest) : List Digest :=
  dedup (packs.insertionSort fun a b => a.bytes ≤ b.bytes)

def Manifest.canonical : Manifest := { m with packs := sortPacks m.packs }

/-! ## Its bytes -/

def packKeyText (key : Digest) : List Char := "packs/".toList ++ hexEncode key.bytes

theorem toDigits_isNumberChar (n : Nat) : (Nat.toDigits 10 n).all isNumberChar = true := by
  refine List.all_eq_true.2 fun c hc => ?_
  have hdigit := Nat.isDigit_of_mem_toDigits (by decide) (by decide) hc
  unfold isNumberChar
  rw [hdigit]
  rfl

def jsonNat (n : Nat) : Json :=
  .number ⟨Nat.toDigits 10 n, Nat.toDigits_ne_nil, toDigits_isNumberChar n⟩

def Manifest.toJson : Json :=
  .object
    [("version".toList, jsonNat m.version),
      ("head".toList, .string m.head),
      ("refs".toList, .object (m.refs.entries.map fun e => (e.1, .string e.2))),
      ("packs".toList, .array (m.packs.map fun key => .string (packKeyText key))),
      ("parent".toList, (m.parent.map fun d => Json.string (hexEncode d.bytes)).getD .null)]

def Manifest.canonicalBytes : List UInt8 := Audit.utf8 m.canonical.toJson.render

/-- The key an object is stored under. -/
def contentKey (bytes : List UInt8) : Digest :=
  ⟨Lib.Sha256.digest bytes, Lib.Sha256.length_digest bytes⟩

def Manifest.digest : Digest := contentKey m.canonicalBytes

/-! ## What a push publishes -/

abbrev ETag := List Char

/-- The pointer as a push found it, and the manifest it named. -/
structure ParentState where
  ifMatch : Option ETag
  parentDigest : Option Digest
  parent : Manifest
deriving DecidableEq

namespace ParentState

def fresh : ParentState where
  ifMatch := none
  parentDigest := none
  parent := ⟨manifestVersion, [], .empty, [], none⟩

def fromLoaded (etag : ETag) (digest : Digest) (parent : Manifest) : ParentState :=
  ⟨some etag, some digest, parent⟩

end ParentState

/-- The packs of the parent and the new one. -/
def composeAfter (parent : Manifest) (parentDigest : Option Digest) (head : RefName)
    (refs : RefMap) (newPackKey : Option Digest) : Manifest where
  version := manifestVersion
  head := head
  refs := refs
  packs :=
    sortPacks
      (match newPackKey with
      | some key => if key ∈ parent.packs then parent.packs else parent.packs ++ [key]
      | none => parent.packs)
  parent := parentDigest

/-- The compacted packs instead of those of the parent. -/
def composeCompactedAfter (parentDigest : Option Digest) (head : RefName) (refs : RefMap)
    (compactedPackKeys : List Digest) : Manifest where
  version := manifestVersion
  head := head
  refs := refs
  packs := sortPacks compactedPackKeys
  parent := parentDigest

def isBranch (name : RefName) : Bool := decide ("refs/heads/".toList <+: name)

/-- A branch that is published whenever there is one. -/
def resolvePublishedHead (refs : RefMap) (observedHead parentHead : RefName) : RefName :=
  let isPublishedBranch (name : RefName) := isBranch name && refs.containsKey name
  if isPublishedBranch observedHead then observedHead
  else if isPublishedBranch parentHead then parentHead
  else
    match ["refs/heads/main".toList, "refs/heads/master".toList].find? refs.containsKey with
    | some preferred => preferred
    | none =>
        match refs.keys.find? isBranch with
        | some branch => branch
        | none => if observedHead.isEmpty then parentHead else observedHead

def shouldCompact (parentPackCount : Nat) : Bool := packCompactionThreshold ≤ parentPackCount

def compactedPackSetIsUsable (parentPackCount compactedPackCount : Nat) : Bool :=
  compactedPackCount < parentPackCount ||
    (maxManifestPacks ≤ parentPackCount && compactedPackCount ≤ maxManifestPacks)

end Buzz.Git
