import Buzz.Audit.Hash
import Buzz.Core.Artifact
import Buzz.Core.JsonValue
import Buzz.Core.Text
import Buzz.Db.EventQuery
import Buzz.Lib.Sha256

/-!
# Thread windows

`buzz-core/src/thread_window.rs`. A client asks for a window of a thread with a raw filter.
The filter is read strictly, and what is read is in a normal form: defaults are filled in,
hex is in lower case, the kinds are sorted without repetition. The answer is bound to the
request by the hash of a JSON array that holds every field of it, with the host and the
reader.

A raw filter is a `Json` value, whose numbers are the texts `serde_json` prints for them;
an unsigned integer is printed as its digits.
-/

namespace Buzz.Relay.ThreadWindow

def maxLimit : Nat := 200

/-- Conversation row kinds. -/
def rowKinds : List Nat := [9, 40002, 45001, 45003]

/-- A position in `(created_at DESC, id ASC)` order. -/
structure Cursor where
  createdAt : Int
  id : List Char
deriving DecidableEq

def Cursor.timestamp (c : Cursor) : Except String Int :=
  match (fromTimestamp c.createdAt).filter fun _ => 0 ≤ c.createdAt with
  | some time => .ok time
  | none => .error "thread_window: cursor timestamp out of range"

structure Request where
  channel : Uuid
  root : List Char
  limit : Nat
  depth : Nat
  kinds : List Nat
  cursor : Option Cursor
  includeAux : Bool
deriving DecidableEq

/-! ## Reading values -/

variable (raw : Json)

/-- `Value::get` with a string. -/
def get (key : String) : Option Json :=
  match raw with
  | .object fields => (fields.find? fun f => f.1 = key.toList).map (·.2)
  | _ => none

def asStr : Json → Option (List Char)
  | .string s => some s
  | _ => none

def asArray : Json → Option (List Json)
  | .array items => some items
  | _ => none

def asBool : Json → Option Bool
  | .bool b => some b
  | _ => none

def asU64 : Json → Option Nat
  | .number n =>
      if n.text.all Char.isDigit ∧ Nat.ofDigitChars 10 n.text 0 < 2 ^ 64 then
        some (Nat.ofDigitChars 10 n.text 0)
      else none
  | _ => none

def asI64 : Json → Option Int
  | .number n => string2ll n.text
  | _ => none

/-- `ok_or`. -/
def okOr {α : Type} (message : String) : Option α → Except String α
  | some a => .ok a
  | none => .error message

/-! ## Parsing -/

def eventId (v : Json) : Except String (List Char) :=
  okOr "thread_window: expected a full 64-hex event id"
    (((asStr v).filter fun s => s.length = 64 && s.all Db.isAsciiHexdigit).map (·.map Char.toLower))

def singleton (key : String) : Except String Json :=
  okOr ("thread_window requires exactly one " ++ key)
    ((((get raw key).bind asArray).filter fun a => a.length = 1).bind (·.head?))

def bounded (key : String) (default max : Nat) : Except String Nat :=
  match get raw key with
  | none => .ok default
  | some v =>
      okOr ("thread_window: " ++ key ++ " must be an integer in 1..=" ++ toString max)
        ((asU64 v).filter fun n => 1 ≤ n && n ≤ max)

def fields : List String :=
  ["thread_window", "#h", "#e", "kinds", "limit", "depth_limit", "until", "before_id",
    "include_aux"]

def parseChannel (codec : Codec) (raw : Json) : Except String Uuid := do
  let v ← singleton raw "#h"
  okOr "thread_window: #h must be a channel UUID"
    ((asStr v).bind fun s => codec.parseUuid (String.ofList s))

def parseRoot : Except String (List Char) := do
  let v ← singleton raw "#e"
  eventId v

def parseKind (v : Json) : Except String Nat :=
  okOr "thread_window supports row kinds 9, 40002, 45001, 45003 only"
    ((asU64 v).filter fun n => n < 2 ^ 32 && rowKinds.contains n)

/-- The kinds as they are given. -/
def rawKinds : Except String (List Json) :=
  okOr "thread_window requires nonempty conversation kinds"
    (((get raw "kinds").bind asArray).filter fun a => !a.isEmpty && a.length ≤ rowKinds.length)

/-- `sort_unstable` and `dedup`: of equal neighbours one is left. -/
def sortKinds (kinds : List Nat) : List Nat := (kinds.insertionSort (· ≤ ·)).dedup

def parseKinds : Except String (List Nat) := do
  let given ← rawKinds raw
  let kinds ← given.mapM parseKind
  return sortKinds kinds

def parseCursor : Except String (Option Cursor) :=
  match get raw "until", get raw "before_id" with
  | none, none => .ok none
  | some ts, some id => do
      let createdAt ← okOr "thread_window: until must be nonnegative integer seconds"
        ((asI64 ts).filter fun n => 0 ≤ n)
      let id ← eventId id
      let cursor : Cursor := ⟨createdAt, id⟩
      let _ ← cursor.timestamp
      return some cursor
  | _, _ => .error "thread_window requires both until and before_id, or neither"

def parseAux : Except String Bool :=
  match get raw "include_aux" with
  | none => .ok false
  | some v => okOr "thread_window: include_aux must be boolean" (asBool v)

def isTrue : Option Json → Bool
  | some (.bool true) => true
  | _ => false

/-- The keys of the filter, if it is an object. -/
def objectKeys : Json → Option (List (List Char))
  | .object fields => some (fields.map (·.1))
  | _ => none

def Request.parse (codec : Codec) (raw : Json) : Except String Request := do
  let keys ← okOr "thread_window: expected object" (objectKeys raw)
  if keys.any fun key => !(fields.map String.toList).contains key then
    .error "thread_window: unsupported or conflicting filter field"
  else if !isTrue (get raw "thread_window") then .error "thread_window must be true"
  else do
    let channel ← parseChannel codec raw
    let root ← parseRoot raw
    let limit ← bounded raw "limit" 50 maxLimit
    let depth ← bounded raw "depth_limit" 100 100
    let kinds ← parseKinds raw
    let cursor ← parseCursor raw
    let includeAux ← parseAux raw
    return { channel, root, limit, depth, kinds, cursor, includeAux }

/-! ## Binding -/

def jsonInt (n : Int) : Json := .number (.ofInt n)

def Request.canonical (r : Request) (resolvedHost readerHex : List Char) : Json :=
  .array
    [.string "tw".toList, jsonInt 1, .string "older".toList, .string resolvedHost,
      .string readerHex, .string r.channel.toText.toList, .string r.root, jsonInt r.limit,
      jsonInt r.depth, .array (r.kinds.map fun k : Nat => jsonInt k),
      (r.cursor.map fun c => Json.array [jsonInt c.createdAt, .string c.id]).getD .null,
      .bool r.includeAux]

/-- The bytes that are hashed. -/
def Request.preimage (r : Request) (resolvedHost readerHex : List Char) : List UInt8 :=
  Audit.utf8 (r.canonical resolvedHost readerHex).render

def Request.binding (r : Request) (resolvedHost readerHex : List Char) : List Char :=
  "tw:1:".toList ++ hexEncode (Lib.Sha256.digest (r.preimage resolvedHost readerHex))

end Buzz.Relay.ThreadWindow
