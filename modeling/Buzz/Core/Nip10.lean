import Buzz.Core.Event

/-!
# Thread markers

`buzz-core/src/nip10.rs`: one parser for the `root` and `reply` markers of an
event's `e` tags, and the rule that turns them into a root and a parent.
-/

namespace Buzz

/-- The value of an ASCII hex digit of either case. -/
def hexValue (c : Char) : Option Nat :=
  if '0' ≤ c ∧ c ≤ '9' then some (c.toNat - 48)
  else if 'a' ≤ c ∧ c ≤ 'f' then some (c.toNat - 87)
  else if 'A' ≤ c ∧ c ≤ 'F' then some (c.toNat - 55)
  else none

/-- `hex::decode`. -/
def hexDecode : List Char → Option (List UInt8)
  | [] => some []
  | [_] => none
  | a :: b :: rest => do
      let high ← hexValue a
      let low ← hexValue b
      let bytes ← hexDecode rest
      return UInt8.ofNat (high * 16 + low) :: bytes

/-- `hex::decode` of an event id; every 64-digit id decodes. -/
def Bytes32.ofHex (text : String) : Option Bytes32 :=
  (hexDecode text.toList).bind fun bytes =>
    if h : bytes.length = 32 then some ⟨bytes, h⟩ else none

namespace Core

structure ThreadMarkers where
  root : Option String := none
  reply : Option String := none
deriving DecidableEq

/-- A reply's `(root, parent)`. Without a `reply` marker the event is
top-level, whatever its `root` marker says. -/
def ThreadMarkers.resolve (m : ThreadMarkers) : Option (String × String) :=
  match m.root, m.reply with
  | some root, some reply => some (root, reply)
  | none, some reply => some (reply, reply)
  | some _, none | none, none => none

def isEventIdHex (id : String) : Bool :=
  id.utf8ByteSize == 64 && id.toList.all fun c => (hexValue c).isSome

/-- One round of the loop; the last valid occurrence of a marker wins. -/
def ThreadMarkers.read (m : ThreadMarkers) (tag : Tag) : ThreadMarkers :=
  match tag.asSlice with
  | name :: id :: _ :: marker :: _ =>
      if name = "e" ∧ isEventIdHex id then
        if marker = "root" then { m with root := some id }
        else if marker = "reply" then { m with reply := some id }
        else m
      else m
  | _ => m

def parseThreadMarkers (tags : List Tag) : ThreadMarkers :=
  tags.foldl ThreadMarkers.read {}

end Core

end Buzz
