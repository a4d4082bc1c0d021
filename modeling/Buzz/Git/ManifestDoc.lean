import Buzz.Core.JsonRead
import Buzz.Git.Manifest

/-!
# Manifests as documents

`Manifest` of `buzz-relay/src/api/git/manifest.rs` with its keys and digests as
the text they are there, since a reader takes any text before it validates; and
the read side of `hydrate.rs`. A manifest is read up to a size, parsed,
validated, and its refs are written as files of a bare repository.

Limits of the file system on names and paths are left out.
-/

namespace Buzz.Git

open Buzz.Audit (utf8)

structure ManifestDoc where
  version : UInt32
  head : RefName
  refs : RefMap
  packs : List (List Char)
  parent : Option (List Char)
deriving DecidableEq

inductive DocError where
  | serde
  | unsupportedVersion (got expected : UInt32)
  | unsafeRefName (name : RefName)
  | malformedOid (refname : RefName) (oid : Oid)
  | emptyHead
  | malformedParent (text : List Char)
  | tooManyPacks (got max : Nat)
  | tooManyRefs (got max : Nat)
  | malformedPackKey (text : List Char)
deriving DecidableEq

/-! ## Validation -/

/-- 64 hex digits, lower case. -/
def isManifestDigest (s : List Char) : Bool :=
  (utf8 s).length == 64 && s.all fun c => ('0' ≤ c && c ≤ '9') || ('a' ≤ c && c ≤ 'f')

def isPackKey (s : List Char) : Bool :=
  ("packs/".toList.isPrefixOf? s).any isManifestDigest

namespace ManifestDoc

def checkRef (refname : RefName) (oid : Oid) : Option DocError :=
  if !isSafeRefname refname then some (.unsafeRefName refname)
  else if !isHexOid oid then some (.malformedOid refname oid)
  else none

def validate (m : ManifestDoc) : Option DocError :=
  if maxManifestPacks < m.packs.length then some (.tooManyPacks m.packs.length maxManifestPacks)
  else if maxManifestRefs < m.refs.entries.length then
    some (.tooManyRefs m.refs.entries.length maxManifestRefs)
  else if m.head.isEmpty then some .emptyHead
  else if !isSafeRefname m.head then some (.unsafeRefName m.head)
  else
    (m.refs.entries.findSome? fun e => checkRef e.1 e.2) <|>
      (m.packs.find? fun pack => !isPackKey pack).map .malformedPackKey <|>
        (m.parent.filter fun p => !isManifestDigest p).map .malformedParent

/-! ## Writing -/

/-- `sort` and `dedup` of the keys. -/
def sortPacks (packs : List (List Char)) : List (List Char) :=
  dedup (packs.insertionSort (· ≤ ·))

def toJson (m : ManifestDoc) : Json :=
  .object
    [("version".toList, jsonNat m.version.toNat),
      ("head".toList, .string m.head),
      ("refs".toList, .object (m.refs.entries.map fun e => (e.1, .string e.2))),
      ("packs".toList, .array (m.packs.map Json.string)),
      ("parent".toList, (m.parent.map Json.string).getD .null)]

def canonicalBytes (m : ManifestDoc) : List UInt8 :=
  utf8 (toJson { m with packs := sortPacks m.packs }).render

/-! ## Reading -/

def asU32 : Json → Option UInt32
  | .number n =>
      if n.text.all Char.isDigit ∧ Nat.ofDigitChars 10 n.text 0 < 2 ^ 32 then
        some (UInt32.ofNat (Nat.ofDigitChars 10 n.text 0))
      else none
  | _ => none

def asString : Json → Option (List Char)
  | .string s => some s
  | _ => none

/-- A `BTreeMap`: of two entries with one key the later stays. -/
def asStringMap : Json → Option RefMap
  | .object fields =>
      fields.foldlM (fun m f => (asString f.2).map fun oid => m.insert f.1 oid) RefMap.empty
  | _ => none

def asStrings : Json → Option (List (List Char))
  | .array items => items.mapM asString
  | _ => none

def asOptional : Json → Option (Option (List Char))
  | .null => some none
  | v => (asString v).map some

/-- A field of a struct. That a field comes twice is an error. -/
def fieldOnce (fields : List (List Char × Json)) (name : String) : Option (Option Json) :=
  match fields.filter fun f => f.1 = name.toList with
  | [] => some none
  | [f] => some (some f.2)
  | _ => none

/-- The derived `Deserialize`. Other fields are ignored, and the values alone are
a struct too. -/
def ofJson : Json → Option ManifestDoc
  | .object fields => do
      let version ← (← fieldOnce fields "version") >>= asU32
      let head ← (← fieldOnce fields "head") >>= asString
      let refs ← (← fieldOnce fields "refs") >>= asStringMap
      let packs ← (← fieldOnce fields "packs") >>= asStrings
      let parent ← asOptional ((← fieldOnce fields "parent").getD .null)
      return ⟨version, head, refs, packs, parent⟩
  | .array [version, head, refs, packs, parent] => do
      let version ← asU32 version
      let head ← asString head
      let refs ← asStringMap refs
      let packs ← asStrings packs
      let parent ← asOptional parent
      return ⟨version, head, refs, packs, parent⟩
  | _ => none

def decodeUtf8 (bytes : List UInt8) : Option (List Char) :=
  bytes.toByteArray.utf8Decode?.map Array.toList

/-- `Manifest::from_bytes`. -/
def fromBytes (bytes : List UInt8) : Except DocError ManifestDoc :=
  match ((decodeUtf8 bytes).bind Json.parse).bind ofJson with
  | none => .error .serde
  | some m =>
      if m.version.toNat ≠ manifestVersion then
        .error (.unsupportedVersion m.version (UInt32.ofNat manifestVersion))
      else .ok m

end ManifestDoc

/-- The document of a manifest whose keys are digests. -/
def Manifest.doc (m : Manifest) : ManifestDoc where
  version := UInt32.ofNat m.version
  head := m.head
  refs := m.refs
  packs := m.packs.map packKeyText
  parent := m.parent.map fun d => hexEncode d.bytes

/-! ## Loose refs -/

abbrev Path := List (List Char)

/-- Directories and files of a repository. -/
structure FileTree where
  dirs : List Path
  files : List (Path × List Char)

namespace FileTree

def isFile (t : FileTree) (path : Path) : Bool := t.files.any fun f => f.1 = path

def read (t : FileTree) (path : Path) : Option (List Char) :=
  (t.files.find? fun f => f.1 = path).map Prod.snd

/-- `create_dir_all`: none of the directories may be a file. -/
def createDirAll (t : FileTree) (dir : Path) : Option FileTree :=
  if dir.inits.any t.isFile then none else some { t with dirs := dir.inits ++ t.dirs }

/-- `fs::write`. -/
def write (t : FileTree) (path : Path) (text : List Char) : Option FileTree :=
  if path ∈ t.dirs then none else some { t with files := (path, text) :: t.files }

end FileTree

/-- A path as the system resolves it. -/
def refPath (refname : RefName) : Path := (refname.splitOn '/').filter (· ≠ ['.'])

/-- What `git init --bare` makes below `refs`. -/
def bareRepo : FileTree where
  dirs := [["refs".toList], ["refs".toList, "heads".toList], ["refs".toList, "tags".toList]]
  files := []

inductive HydrateError where
  | resourceLimit
  | manifest (error : DocError)
  | hydrate
deriving DecidableEq

/-- The body of `load_pointer`, from the bytes of the manifest on. -/
def loadBytes (bytes : List UInt8) : Except HydrateError ManifestDoc :=
  if maxManifestBytes < bytes.length then .error .resourceLimit
  else
    match ManifestDoc.fromBytes bytes with
    | .error e => .error (.manifest e)
    | .ok m =>
        match m.validate with
        | some e => .error (.manifest e)
        | none => .ok m

/-- One ref of the second phase of `materialize_manifest`. -/
def installRef (t : FileTree) (refname : RefName) (oid : Oid) : Option FileTree :=
  if !isSafeRefname refname then none
  else if !isHexOid oid then none
  else
    (t.createDirAll (refPath refname).dropLast).bind fun t =>
      t.write (refPath refname) (oid ++ ['\n'])

/-- The second phase of `materialize_manifest`. -/
def installRefs (m : ManifestDoc) : Except HydrateError FileTree :=
  match m.refs.entries.foldlM (fun t e => installRef t e.1 e.2) bareRepo with
  | none => .error .hydrate
  | some t =>
      if !isSafeRefname m.head then .error .hydrate
      else
        match t.write ["HEAD".toList] ("ref: ".toList ++ m.head ++ ['\n']) with
        | none => .error .hydrate
        | some t => .ok t

end Buzz.Git
