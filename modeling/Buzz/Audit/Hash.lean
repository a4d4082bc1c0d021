import Buzz.Core.Json
import Buzz.Core.Text
import Buzz.Lib.Sha256

/-!
# The hash of an audit entry

An entry is written out as bytes and hashed. New entries are written with
tagged and length-prefixed fields; the older encoding, which concatenates them,
is still read. Times are cut to what the database keeps, and the keys of the
JSON context are sorted.

The length of a text or a byte string is below `2 ^ 64`, as that of every Rust
slice is.
-/

namespace Buzz.Audit

open Buzz.Lib (Sha256.digest Sha256.beBytes)

/-- The bytes of a text. -/
def utf8 (s : List Char) : List UInt8 := s.flatMap String.utf8EncodeChar

/-- One more than the length any slice has. -/
def sliceBound : Nat := 18446744073709551616

/-- `Vec<u8>`. -/
structure Bytes where
  val : List UInt8
  fits : val.length < sliceBound
deriving DecidableEq

theorem Bytes.nil_fits : ([] : List UInt8).length < sliceBound := by decide

/-- `String`. -/
structure Text where
  chars : List Char
  fits : (utf8 chars).length < sliceBound
deriving DecidableEq

inductive AuditAction where
  | eventCreated
  | eventDeleted
  | channelCreated
  | channelUpdated
  | channelDeleted
  | memberAdded
  | memberRemoved
  | authSuccess
  | authFailure
  | rateLimitExceeded
  | mediaUploaded
deriving DecidableEq

namespace AuditAction

def asStr : AuditAction → List Char
  | eventCreated => "event_created".toList
  | eventDeleted => "event_deleted".toList
  | channelCreated => "channel_created".toList
  | channelUpdated => "channel_updated".toList
  | channelDeleted => "channel_deleted".toList
  | memberAdded => "member_added".toList
  | memberRemoved => "member_removed".toList
  | authSuccess => "auth_success".toList
  | authFailure => "auth_failure".toList
  | rateLimitExceeded => "rate_limit_exceeded".toList
  | mediaUploaded => "media_uploaded".toList

def all : List AuditAction :=
  [eventCreated, eventDeleted, channelCreated, channelUpdated, channelDeleted, memberAdded,
    memberRemoved, authSuccess, authFailure, rateLimitExceeded, mediaUploaded]

def fromStr (s : List Char) : Option AuditAction := all.find? fun a => a.asStr == s

end AuditAction

/-! ## Times -/

/-- `DateTime<Utc>`, by its calendar fields. Not every such date is one of the
calendar; nothing depends on that. -/
structure DateTime where
  year : Int
  month : Nat
  day : Nat
  hour : Nat
  minute : Nat
  second : Nat
  nanos : Nat
  year_lt : year.natAbs < 262144
  month_lt : month < 100
  day_lt : day < 100
  hour_lt : hour < 100
  minute_lt : minute < 100
  second_lt : second < 100
  nanos_lt : nanos < 1000000000
deriving DecidableEq

/-- So many decimal digits of a number, zeros in front. -/
def fixedDigits : Nat → Nat → List Char
  | 0, _ => []
  | width + 1, n => fixedDigits width (n / 10) ++ [Nat.digitChar (n % 10)]

/-- Four digits, or a sign and at least four of them. -/
def yearText (year : Int) : List Char :=
  if 0 ≤ year ∧ year ≤ 9999 then fixedDigits 4 year.toNat
  else
    let n := year.natAbs
    (if year < 0 then '-' else '+') :: (if n < 10000 then fixedDigits 4 n else Nat.toDigits 10 n)

/-- As many digits as it takes, in steps of three. -/
def fractionText (nanos : Nat) : List Char :=
  if nanos = 0 then []
  else if nanos % 1000000 = 0 then '.' :: fixedDigits 3 (nanos / 1000000)
  else if nanos % 1000 = 0 then '.' :: fixedDigits 6 (nanos / 1000)
  else '.' :: fixedDigits 9 nanos

def DateTime.toRfc3339 (t : DateTime) : List Char :=
  yearText t.year ++ '-' :: (fixedDigits 2 t.month ++ '-' :: (fixedDigits 2 t.day ++
    'T' :: (fixedDigits 2 t.hour ++ ':' :: (fixedDigits 2 t.minute ++
      ':' :: (fixedDigits 2 t.second ++ (fractionText t.nanos ++ "+00:00".toList))))))

/-- `TIMESTAMPTZ` keeps microseconds. -/
def toStoragePrecision (t : DateTime) : DateTime :=
  { t with
    nanos := t.nanos - t.nanos % 1000
    nanos_lt := Nat.lt_of_le_of_lt (Nat.sub_le _ _) t.nanos_lt }

/-! ## Canonical JSON -/

/-- The entries of an object, their values written out already. -/
def joinFields : List (List Char × List Char) → List Char
  | [] => []
  | [(k, v)] => Json.renderString k ++ ':' :: v
  | (k, v) :: f :: rest => Json.renderString k ++ ':' :: (v ++ ',' :: joinFields (f :: rest))

mutual

def canonicalJson : Json → List Char
  | .object fields =>
      '{' :: (joinFields ((canonicalFields fields).insertionSort fun f g => f.1 ≤ g.1) ++ ['}'])
  | .array items => '[' :: (canonicalItems items ++ [']'])
  | .null => Json.null.render
  | .bool b => (Json.bool b).render
  | .number n => (Json.number n).render
  | .string s => (Json.string s).render

def canonicalItems : List Json → List Char
  | [] => []
  | [v] => canonicalJson v
  | v :: w :: rest => canonicalJson v ++ ',' :: canonicalItems (w :: rest)

def canonicalFields : List (List Char × Json) → List (List Char × List Char)
  | [] => []
  | (k, v) :: rest => (k, canonicalJson v) :: canonicalFields rest

end

/-- `serde_json::Value`, as an audit entry carries it. -/
structure Detail where
  value : Json
  wf : value.Wf
  fits : (utf8 (canonicalJson value)).length < sliceBound

/-! ## The hash -/

structure AuditEntry where
  communityId : Uuid
  seq : Int64
  hashVersion : Int16
  hash : Bytes
  prevHash : Option Bytes
  action : AuditAction
  actorPubkey : Option Bytes
  objectId : Option Text
  detail : Detail
  createdAt : DateTime

inductive AuditError where
  | database
  | admission
  | chainViolation (seq : Int64)
  | hashMismatch (seq : Int64)
  | unknownAction
  | unsupportedHashVersion (version : Int16)
deriving DecidableEq

def genesisHash : List UInt8 := List.replicate 32 0

def currentHashVersion : Int16 := 2

/-- `i64::to_be_bytes`. -/
def seqBytes (seq : Int64) : List UInt8 := Sha256.beBytes 8 seq.toBitVec.toNat

def appendTlv (tag : UInt8) (value : List UInt8) : List UInt8 :=
  tag :: (Sha256.beBytes 8 value.length ++ value)

/-- An absent field is left out. -/
def appendOptional (tag : UInt8) (value : Option (List UInt8)) : List UInt8 :=
  match value with
  | some value => appendTlv tag value
  | none => []

/-- `b"buzz:audit:v2\0"` -/
def tlvMagic : List UInt8 :=
  [98, 117, 122, 122, 58, 97, 117, 100, 105, 116, 58, 118, 50, 0]

/-- What `compute_tlv_hash` feeds to the hash. -/
def tlvEncoding (e : AuditEntry) : List UInt8 :=
  tlvMagic ++ (appendTlv 1 e.communityId.bytes ++ (appendTlv 2 (seqBytes e.seq) ++
    (appendTlv 3 (utf8 (toStoragePrecision e.createdAt).toRfc3339) ++
      (appendTlv 4 (utf8 e.action.asStr) ++
        (appendOptional 5 (e.actorPubkey.map Bytes.val) ++
          (appendOptional 6 (e.objectId.map fun id => utf8 id.chars) ++
            (appendTlv 7 (utf8 (canonicalJson e.detail.value)) ++
              appendOptional 8 (e.prevHash.map Bytes.val))))))))

def presence (value : Option (List UInt8)) : List UInt8 :=
  match value with
  | some value => 1 :: value
  | none => [0]

/-- What `compute_legacy_hash` feeds to the hash. -/
def legacyEncoding (e : AuditEntry) : List UInt8 :=
  e.communityId.bytes ++ (seqBytes e.seq ++
    (utf8 (toStoragePrecision e.createdAt).toRfc3339 ++ (utf8 e.action.asStr ++
      (presence (e.actorPubkey.map Bytes.val) ++
        (presence (e.objectId.map fun id => utf8 id.chars) ++
          (utf8 (canonicalJson e.detail.value) ++
            (e.prevHash.map Bytes.val).getD genesisHash))))))

/-- The bytes an entry is hashed as, in the version it names. -/
def encoding (e : AuditEntry) : Except AuditError (List UInt8) :=
  if e.hashVersion = 1 then .ok (legacyEncoding e)
  else if e.hashVersion = currentHashVersion then .ok (tlvEncoding e)
  else .error (.unsupportedHashVersion e.hashVersion)

def computeHash (e : AuditEntry) : Except AuditError (List UInt8) :=
  (encoding e).map Sha256.digest

/-- So many nanoseconds into the year 2026. -/
def DateTime.newYear (nanos : Nat) (h : nanos < 1000000000) : DateTime :=
  ⟨2026, 1, 1, 0, 0, 0, nanos, by decide, by decide, by decide, by decide, by decide, by decide, h⟩

/-- An entry without details. -/
def Detail.null : Detail := ⟨.null, trivial, by decide⟩

/-- The entry of the source's own digests. -/
def sampleEntry (version : Int16) : AuditEntry where
  communityId := ⟨List.replicate 15 0 ++ [1], rfl⟩
  seq := 1
  hashVersion := version
  hash := ⟨[], Bytes.nil_fits⟩
  prevHash := none
  action := .eventCreated
  actorPubkey := some ⟨List.replicate 32 0xab, by decide⟩
  objectId := some ⟨"abc123".toList, by decide⟩
  detail := .null
  createdAt := .newYear 0 (by decide)

example : (computeHash (sampleEntry 2)).toOption.map hexEncode =
    some "e12c899d941af9794679602ae83ef2ab1c8f029fe380349263a046a93374d580".toList := by
  decide +kernel

example : (computeHash (sampleEntry 1)).toOption.map hexEncode =
    some "5fd6c48ddbd39979bd7fcc94357d78b5fcffa0d1443a0cdda997ad7e22f4f2ce".toList := by
  decide +kernel

end Buzz.Audit
