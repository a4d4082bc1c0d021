import Mathlib.Data.List.AList
import Mathlib.Data.List.Dedup

/-!
# Nostr data as the relay sees it

The relay takes its wire types from the `nostr` and `uuid` crates. This file
holds the parts of them the modelled code reads: event ids and public keys
are 32 bytes, a tag is a non-empty list of strings, a filter is the NIP-01
filter with every field optional. A `BTreeSet` field keeps the one property
of the Rust set that the code relies on, that no value occurs twice; the
order of iteration is never observed.

An `Event` drops `content` and `sig`, which nothing below reads, and a
`StoredEvent` drops `received_at` and `verified` for the same reason.
-/

namespace Buzz

/-- `uuid::Uuid`: sixteen bytes. -/
structure Uuid where
  bytes : List UInt8
  size : bytes.length = 16
deriving DecidableEq

/-- Sixteen copies of one byte; `ofByte 0` is the nil UUID. -/
def Uuid.ofByte (b : UInt8) : Uuid := ⟨List.replicate 16 b, List.length_replicate⟩

/-- Thirty-two bytes, the shape of an event id and of a public key. -/
structure Bytes32 where
  bytes : List UInt8
  size : bytes.length = 32
deriving DecidableEq

theorem Bytes32.ext {a b : Bytes32} (h : a.bytes = b.bytes) : a = b := by
  cases a; cases b; cases h; rfl

def Bytes32.ofByte (b : UInt8) : Bytes32 := ⟨List.replicate 32 b, List.length_replicate⟩

abbrev EventId := Bytes32
abbrev PublicKey := Bytes32

/-- `nostr::Kind`, compared and hashed by its `u16` value. -/
abbrev Kind := UInt16

/-- The server-resolved community a connection belongs to. -/
structure CommunityId where
  uuid : Uuid
deriving DecidableEq

/-! ## Text forms -/

/-- The lower-case digit of a nibble, as `hex::encode` writes it. -/
def hexDigit (n : Nat) : Char :=
  if n < 10 then Char.ofNat (48 + n) else Char.ofNat (87 + n)

/-- `hex::encode`: two lower-case digits a byte. -/
def hexEncode (bytes : List UInt8) : List Char :=
  bytes.flatMap fun b => [hexDigit (b.toNat / 16), hexDigit (b.toNat % 16)]

def Bytes32.toHex (b : Bytes32) : String := String.ofList (hexEncode b.bytes)

/-- `Uuid`'s `Display`: lower-case hex in the hyphenated 8-4-4-4-12 form. -/
def Uuid.toText (u : Uuid) : String :=
  let group (start len : Nat) := hexEncode ((u.bytes.drop start).take len)
  String.ofList (['-'].intercalate
    [group 0 4, group 4 2, group 6 2, group 8 2, group 10 6])

theorem hexDigit_injOn : ∀ a < 16, ∀ b < 16, hexDigit a = hexDigit b → a = b := by
  decide

theorem hexEncode_injective : Function.Injective hexEncode := by
  intro a
  induction a with
  | nil => intro b h; cases b with
    | nil => rfl
    | cons y ys => simp [hexEncode] at h
  | cons x xs ih =>
      intro b h
      cases b with
      | nil => simp [hexEncode] at h
      | cons y ys =>
          have hx := x.toNat_lt
          have hy := y.toNat_lt
          simp only [hexEncode, List.flatMap_cons, List.cons_append,
            List.nil_append, List.cons.injEq] at h
          obtain ⟨h₁, h₂, h₃⟩ := h
          have h₁ := hexDigit_injOn _ (by omega) _ (by omega) h₁
          have h₂ := hexDigit_injOn _ (by omega) _ (by omega) h₂
          have hxy : x = y := UInt8.toNat_inj.1 (by omega)
          rw [hxy, ih h₃]

theorem hexEncode_length (bytes : List UInt8) :
    (hexEncode bytes).length = 2 * bytes.length := by
  induction bytes with
  | nil => rfl
  | cons x xs ih =>
      have : hexEncode (x :: xs) =
        hexDigit (x.toNat / 16) :: hexDigit (x.toNat % 16) :: hexEncode xs := rfl
      rw [this, List.length_cons, List.length_cons, ih, List.length_cons]
      omega

theorem Bytes32.toHex_injective : Function.Injective Bytes32.toHex := by
  intro a b h
  exact Bytes32.ext (hexEncode_injective (String.ofList_injective h))

/-! ## Time -/

/-- `secs as i64` for a `u64` timestamp. -/
def secsAsI64 (secs : UInt64) : Int := secs.toInt64.toInt

/-- `DateTime::from_timestamp(secs, 0)`: the seconds, inside the years chrono
represents. -/
def fromTimestamp (secs : Int) : Option Int :=
  if -8334601228800 ≤ secs ∧ secs ≤ 8210266876799 then some secs else none

/-- The first second a `timestamptz` holds, in 4714 BC. Its last one lies
past chrono's. -/
def minTimestamptz : Int := -210866803200

/-- A timestamp as a column or a query parameter. -/
def timestamptz (secs : Int) : Option Int :=
  (fromTimestamp secs).filter (minTimestamptz ≤ ·)

/-! ## Tags, events, filters -/

/-- One tag. The wire form is a non-empty string array: the first entry is
the tag's name, the second, when there is one, its value. -/
structure Tag where
  name : String
  rest : List String
deriving DecidableEq

/-- `Tag::as_slice`. -/
def Tag.asSlice (t : Tag) : List String := t.name :: t.rest

/-- `tag.kind().to_string()`: the name, whatever kind the crate parsed. -/
def Tag.kindText (t : Tag) : String := t.name

/-- `Tag::content`: the second entry. -/
def Tag.content (t : Tag) : Option String := t.rest.head?

structure Event where
  id : EventId
  pubkey : PublicKey
  createdAt : UInt64
  kind : Kind
  tags : List Tag
deriving DecidableEq

/-- An event with the channel the relay stored it under; `none` for a
community-global event. -/
structure StoredEvent where
  event : Event
  channelId : Option Uuid
deriving DecidableEq

/-- `std::collections::BTreeSet`, as a list without repeats. -/
structure BTreeSet (α : Type) where
  elems : List α
  nodup : elems.Nodup
deriving DecidableEq

namespace BTreeSet

variable {α : Type}

def contains [DecidableEq α] (s : BTreeSet α) (a : α) : Bool := a ∈ s.elems

def len (s : BTreeSet α) : Nat := s.elems.length

def isEmpty (s : BTreeSet α) : Bool := s.elems.isEmpty

def ofList [DecidableEq α] (l : List α) : BTreeSet α := ⟨l.dedup, l.nodup_dedup⟩

def single (a : α) : BTreeSet α := ⟨[a], List.nodup_singleton a⟩

@[simp] theorem contains_iff [DecidableEq α] {s : BTreeSet α} {a : α} :
    s.contains a = true ↔ a ∈ s.elems := by
  simp [contains]

end BTreeSet

/-- `nostr::SingleLetterTag`: an ASCII letter of either case. -/
structure SingleLetterTag where
  letter : Char
  alpha : letter.isAlpha = true
deriving DecidableEq

namespace SingleLetterTag

/-- Its `Display`, the one-letter string. -/
def toText (t : SingleLetterTag) : String := String.singleton t.letter

theorem toText_injective : Function.Injective toText := by
  intro a b h
  have h : [a.letter] = [b.letter] := by
    have := congrArg String.toList h
    simpa [toText] using this
  cases a; cases b; simp_all

def d : SingleLetterTag := ⟨'d', by decide⟩
def e : SingleLetterTag := ⟨'e', by decide⟩
def h : SingleLetterTag := ⟨'h', by decide⟩
def p : SingleLetterTag := ⟨'p', by decide⟩
def t : SingleLetterTag := ⟨'t', by decide⟩
/-- The upper-case `#P`, a channel's creator. -/
def upperP : SingleLetterTag := ⟨'P', by decide⟩

end SingleLetterTag

abbrev GenericTags := AList (fun _ : SingleLetterTag => BTreeSet String)

/-- `nostr::Filter`. An absent field does not constrain; a present but empty
set is kept apart from an absent one, as the crate keeps it. -/
structure Filter where
  ids : Option (BTreeSet EventId) := none
  authors : Option (BTreeSet PublicKey) := none
  kinds : Option (BTreeSet Kind) := none
  search : Option String := none
  since : Option UInt64 := none
  until' : Option UInt64 := none
  limit : Option Nat := none
  genericTags : GenericTags := ∅
deriving DecidableEq

end Buzz
