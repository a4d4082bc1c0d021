import Buzz.Core.Kind
import Buzz.Core.Nip10
import Buzz.Lib.HashMap
import Mathlib.Algebra.GroupWithZero.Nat

/-!
# Artifact revisions

`buzz-core/src/artifact.rs`. A revision is an event
whose tags carry an envelope: the artifact's identity, its home channel, its
type, and the operation. Each envelope tag occurs once and has exactly two
entries, so what the relay stores about a revision can be read back from the
event alone.

`Codec` holds what comes from other crates: `str::parse::<Uuid>`, which reads
several spellings of one UUID, and the length of an event's JSON. The
development relies on one fact about them, that a UUID's own text parses back
to it.
-/

namespace Buzz

structure Codec where
  parseUuid : String → Option Uuid
  jsonLen : Event → Nat

namespace Core

open Buzz.Lib

def maxTags : Nat := 256
def maxTagNameBytes : Nat := 128
def maxTagValueBytes : Nat := 4096
def maxTagBytes : Nat := 65536

inductive ArtifactOp where
  | create
  | update
  | move
  | delete
  | restore
deriving DecidableEq

def ArtifactOp.parse (value : String) : Option ArtifactOp :=
  if value = "create" then some .create
  else if value = "update" then some .update
  else if value = "move" then some .move
  else if value = "delete" then some .delete
  else if value = "restore" then some .restore
  else none

structure ArtifactEnvelope where
  id : Uuid
  home : Uuid
  artifactType : String
  op : ArtifactOp
  prev : Option EventId
  root : Option EventId
deriving DecidableEq

/-- `canonical_uuid`. -/
def canonicalUuid (codec : Codec) (value : String) : Except String Uuid :=
  match codec.parseUuid value with
  | none => .error "invalid UUID"
  | some id =>
      if id = .ofByte 0 ∨ id.toText ≠ value then
        .error "UUID must be canonical lowercase and non-nil"
      else .ok id

/-- `event_id`. -/
def parseEventId (value : String) : Except String EventId :=
  if value.utf8ByteSize ≠ 64 ∨
      !(value.toList.all fun c => c.isDigit || ('a' ≤ c && c ≤ 'f')) then
    .error "event ID must be 64 lowercase hex characters"
  else
    match Bytes32.ofHex value with
    | some id => .ok id
    | none => .error "invalid event ID"

/-! ## The envelope -/

def envelopeNames : List String :=
  ["ar", "d", "h", "type", "title", "op", "root", "prev"]

/-- What the tag loop of `validate` has read so far. -/
structure EnvelopeScan where
  fields : HMap String String := ∅
  bytes : Nat := 0

/-- One round of the tag loop. -/
def EnvelopeScan.read (scan : EnvelopeScan) (tag : Tag) : Except String EnvelopeScan :=
  if maxTagNameBytes < tag.name.utf8ByteSize then .error "tag name too long"
  else if tag.asSlice.any (maxTagValueBytes < ·.utf8ByteSize) then
    .error "tag value too long"
  else
    let bytes := scan.bytes + (tag.asSlice.map String.utf8ByteSize).sum
    if tag.name ∉ envelopeNames then .ok { scan with bytes }
    else
      match tag.rest, scan.fields.lookup tag.name with
      | [value], none => .ok ⟨scan.fields.insert tag.name value, bytes⟩
      | _, _ => .error "envelope tags must occur once with exactly two elements"

def EnvelopeScan.readAll (scan : EnvelopeScan) : List Tag → Except String EnvelopeScan
  | [] => .ok scan
  | tag :: rest =>
      match scan.read tag with
      | .ok scan => scan.readAll rest
      | .error reason => .error reason

def EnvelopeScan.field (scan : EnvelopeScan) (name : String) : Except String String :=
  match scan.fields.lookup name with
  | some value => .ok value
  | none => .error "missing required envelope tag"

/-- An optional event id, read when its tag is there. -/
def EnvelopeScan.optionalId (scan : EnvelopeScan) (name : String) :
    Except String (Option EventId) :=
  match scan.fields.lookup name with
  | some value => (parseEventId value).map some
  | none => .ok none

def isAsciiLowercase (c : Char) : Bool := 'a' ≤ c && c ≤ 'z'

/-- Dot-separated parts, each a lower-case letter followed by letters,
digits, `_` and `-`. -/
def isArtifactType (name : String) : Bool :=
  name.utf8ByteSize ≤ 128 && name.toList.contains '.' &&
    (name.toList.splitOn '.').all fun part =>
      part.head?.any isAsciiLowercase &&
        part.all fun c => isAsciiLowercase c || c.isDigit || c == '_' || c == '-'

/-- `char::is_whitespace`: the code points with the `White_Space` property. -/
def isWhitespace (c : Char) : Bool :=
  (9 ≤ c.toNat && c.toNat ≤ 13) || (8192 ≤ c.toNat && c.toNat ≤ 8202) ||
    [32, 133, 160, 5760, 8232, 8233, 8239, 8287, 12288].contains c.toNat

/-- `title.trim().is_empty() || title.len() > 512`. -/
def isBadTitle (title : String) : Bool :=
  title.toList.all isWhitespace || 512 < title.utf8ByteSize

/-- The checks after `op` is known: `delete` carries no payload, any other
operation a title. -/
def checkPayload (scan : EnvelopeScan) (op : ArtifactOp) (event : Event)
    (content : String) : Except String Unit :=
  if op = .delete then
    if (scan.fields.lookup "title").isSome || content ≠ "" then
      .error "delete must omit title and have empty content"
    else if event.tags.any fun t => t.name ∉ envelopeNames && t.name != "auth" then
      .error "delete allows only envelope and verified auth tags"
    else .ok ()
  else do
    let title ← scan.field "title"
    if isBadTitle title then
      .error "title must be nonblank and at most 512 UTF-8 bytes"
    else .ok ()

/-- Read the envelope out of the scanned fields. -/
def EnvelopeScan.envelope (codec : Codec) (scan : EnvelopeScan) (event : Event)
    (content : String) : Except String ArtifactEnvelope := do
  let ar ← scan.field "ar"
  if ar ≠ "1" then .error "unsupported artifact envelope version"
  let id ← canonicalUuid codec (← scan.field "d")
  let home ← canonicalUuid codec (← scan.field "h")
  let artifactType ← scan.field "type"
  if !isArtifactType artifactType then .error "invalid namespaced artifact type"
  let op ← match ArtifactOp.parse (← scan.field "op") with
    | some op => .ok op
    | none => .error "invalid artifact operation"
  let prev ← scan.optionalId "prev"
  if decide (op = .create) ≠ prev.isNone then
    .error "prev required exactly on non-create revisions"
  let root ← scan.optionalId "root"
  checkPayload scan op event content
  return { id, home, artifactType, op, prev, root }

/-- `validate`. The event model has no `content`, so it comes beside the
event. -/
def validate (codec : Codec) (event : Event) (content : String) :
    Except String ArtifactEnvelope :=
  if eventKind event ≠ kindArtifact then .error "not an artifact revision"
  else if maxTags < event.tags.length then .error "too many tags"
  else
    match EnvelopeScan.readAll {} event.tags with
    | .error reason => .error reason
    | .ok scan =>
        if maxTagBytes < scan.bytes then .error "total tag bytes exceeded"
        else scan.envelope codec event content

/-! ## What a reader takes from an event -/

/-- `artifact_id`: the `d` of a revision or a removal. -/
def artifactId (codec : Codec) (event : Event) : Option Uuid :=
  ((event.tags.find? (·.name == "d")).bind Tag.content).bind codec.parseUuid

/-! ## Sync -/

def maxSyncEvents : Nat := 4096

end Core

end Buzz
