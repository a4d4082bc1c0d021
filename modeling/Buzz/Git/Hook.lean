import Buzz.Git.Manifest
import Buzz.Lib.Shell
import Mathlib.Data.List.Infix

/-!
# The pre-receive hook and the endpoint it asks

`receive-pack` runs a shell script before it takes a push. The script tells the
relay's policy endpoint about every ref, and signs what it says with a secret of
the push. Both sides build the text that is signed for themselves: the script by
writing a line for each ref and sorting the lines, `compute_hmac` by sorting the
ref updates of the request.

The signature of a request and the parts of the script that only post it are
left out.
-/

namespace Buzz.Git

open Buzz.Audit (utf8)
open Buzz.Lib

/-! ## The request -/

structure HookRefUpdate where
  oldOid : Oid
  newOid : Oid
  refName : RefName
  isAncestor : Bool
deriving DecidableEq

structure HookCallbackRequest where
  repoId : List Char
  repoOwner : List Char
  communityId : List Char
  pusherPubkey : List Char
  refUpdates : List HookRefUpdate
  timestamp : UInt64
deriving DecidableEq

def isAsciiUppercase (c : Char) : Bool := 'A' ≤ c && c ≤ 'Z'

def isHyphenated (s : List Char) : Bool :=
  s.length == 36 && s.zipIdx.all fun (c, i) =>
    if i ∈ [8, 13, 18, 23] then c == '-' else isAsciiHexdigit c

/-- `Uuid::parse_str(..).is_ok()`: 32 digits, or with hyphens and then also in
braces or as an URN. -/
def parsesAsUuid (s : List Char) : Bool :=
  (s.length == 32 && s.all isAsciiHexdigit) || isHyphenated s ||
    (s.head? == some '\x7b' && s.getLast? == some '\x7d' && isHyphenated s.tail.dropLast) ||
    (decide ("urn:uuid:".toList <+: s) && isHyphenated (s.drop 9))

def isPubkeyHex (s : List Char) : Bool :=
  (utf8 s).length == 64 && s.all fun c => isAsciiHexdigit c && !isAsciiUppercase c

def isOidHex (s : List Char) : Bool := (utf8 s).length == 40 && s.all isAsciiHexdigit

def checkRefUpdate (r : HookRefUpdate) : Option String :=
  if !isOidHex r.oldOid then some "invalid old_oid"
  else if !isOidHex r.newOid then some "invalid new_oid"
  else if r.refName.isEmpty || 256 < (utf8 r.refName).length ||
      !decide ("refs/".toList <+: r.refName) || decide (['.', '.'] <:+: r.refName) ||
      (utf8 r.refName).any fun b => b ≤ 32 || b == 127 then
    some "invalid ref_name"
  else none

/-- The structural checks of `hook_policy_check`: the body of the 403, if one
fails. -/
def structuralCheck (req : HookCallbackRequest) : Option String :=
  if req.repoId.isEmpty || 64 < (utf8 req.repoId).length then some "invalid repo_id"
  else if !isPubkeyHex req.repoOwner then some "invalid repo_owner"
  else if !isPubkeyHex req.pusherPubkey then some "invalid pusher_pubkey"
  else if !parsesAsUuid req.communityId then some "invalid community_id"
  else if req.refUpdates.isEmpty || 500 < req.refUpdates.length then
    some "invalid ref_updates count"
  else req.refUpdates.findSome? checkRefUpdate

/-! ## `compute_hmac` -/

/-- `to_string().as_bytes()` of a number. -/
def decimal (n : Nat) : List UInt8 := utf8 (Nat.toDigits 10 n)

def colon : UInt8 := 58
def bar : UInt8 := 124

def flagByte (b : Bool) : List UInt8 := if b then [49] else [48]

def refBytes (r : HookRefUpdate) : List UInt8 :=
  utf8 r.oldOid ++ (utf8 r.newOid ++ (decimal (utf8 r.refName).length ++ colon ::
    (utf8 r.refName ++ flagByte r.isAncestor)))

/-- `sort_by_key(|r| r.ref_name.clone())`. -/
def refsSorted (refs : List HookRefUpdate) : List HookRefUpdate :=
  refs.insertionSort fun a b =>
    Shell.byteValues (utf8 a.refName) ≤ Shell.byteValues (utf8 b.refName)

/-- What goes into the MAC. -/
def hmacPreimage (req : HookCallbackRequest) : List UInt8 :=
  decimal (utf8 req.repoId).length ++ colon :: (utf8 req.repoId ++ bar :: (utf8 req.repoOwner ++
    bar :: (utf8 req.communityId ++ bar :: (utf8 req.pusherPubkey ++
      bar :: ((refsSorted req.refUpdates).flatMap refBytes ++
        bar :: decimal req.timestamp.toNat)))))

/-! ## `PRE_RECEIVE_HOOK` -/

/-- The variables the relay sets. -/
structure HookEnv where
  repoId : List Char
  repoOwner : List Char
  communityId : List Char
  pusherPubkey : List Char

/-- A ref update on the script's standard input, and what `git merge-base
--is-ancestor` has to say about it. -/
structure RefCommand where
  oldOid : Oid
  newOid : Oid
  refName : RefName
  mergeBase : Bool

def zeroOid : List UInt8 := List.replicate 40 48

def RefCommand.stdinLine (c : RefCommand) : List UInt8 :=
  Shell.joinWords [utf8 c.oldOid, utf8 c.newOid, utf8 c.refName]

/-- Creations and deletions are not asked about. -/
def isAncestor (oldOid newOid : List UInt8) (mergeBase : Bool) : Bool :=
  oldOid != zeroOid && newOid != zeroOid && mergeBase

/-- `read -r old_oid new_oid ref_name` and the line for the signature. -/
def hmacLine (line : List UInt8) (mergeBase : Bool) : List UInt8 :=
  match Shell.read true Shell.defaultIfs 3 line with
  | [oldOid, newOid, refName] =>
      Shell.joinWords [refName, oldOid, newOid, flagByte (isAncestor oldOid newOid mergeBase)]
  | _ => []

/-- `IFS=' ' read ref_name old_oid new_oid is_anc` and the `printf`. -/
def printRef (line : List UInt8) : List UInt8 :=
  match Shell.read false [Shell.blank] 4 line with
  | [refName, oldOid, newOid, isAnc] =>
      oldOid ++ (newOid ++ (decimal refName.length ++ colon :: (refName ++ isAnc)))
  | _ => []

/-- `HMAC_INPUT`. Without any ref there is no `HMAC_FILE`. -/
def hookInput (env : HookEnv) (commands : List RefCommand) (timestamp : UInt64) : List UInt8 :=
  let lines := commands.map fun c => hmacLine c.stdinLine c.mergeBase
  let refs :=
    if lines.isEmpty then [] else Shell.substitute ((Shell.sort lines).flatMap printRef)
  decimal (utf8 env.repoId).length ++ colon :: (utf8 env.repoId ++ bar :: (utf8 env.repoOwner ++
    bar :: (utf8 env.communityId ++ bar :: (utf8 env.pusherPubkey ++
      bar :: (refs ++ bar :: decimal timestamp.toNat)))))

/-- A ref as it is in the body of the callback. -/
def RefCommand.refUpdate (c : RefCommand) : HookRefUpdate where
  oldOid := c.oldOid
  newOid := c.newOid
  refName := c.refName
  isAncestor := isAncestor (utf8 c.oldOid) (utf8 c.newOid) c.mergeBase

/-- The request the script posts. -/
def hookRequest (env : HookEnv) (commands : List RefCommand) (timestamp : UInt64) :
    HookCallbackRequest where
  repoId := env.repoId
  repoOwner := env.repoOwner
  communityId := env.communityId
  pusherPubkey := env.pusherPubkey
  refUpdates := commands.map RefCommand.refUpdate
  timestamp := timestamp

/-! ## Ref names git takes -/

def slash : UInt8 := 47
def dot : UInt8 := 46

/-- `git check-ref-format`: a component does not begin with a dot or end in
`.lock`; two dots, control characters, blanks and a few marks are nowhere; no
slash is first, last or doubled; the last character is no dot. -/
def isLegalRefName (name : List UInt8) : Bool :=
  ((name.splitOn slash).all fun part =>
      part.head? != some dot && !decide ([46, 108, 111, 99, 107] <:+ part) && !part.isEmpty) &&
    decide (slash ∈ name) && !decide ([dot, dot] <:+: name) &&
    (name.all fun b =>
      32 < b && b != 127 && b ∉ [126, 94, 58, 63, 42, 91, Shell.backslash]) &&
    name.getLast? != some dot && !decide ([64, 123] <:+: name)

end Buzz.Git
