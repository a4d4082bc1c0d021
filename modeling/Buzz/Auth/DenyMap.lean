import Buzz.Core.Event
import Buzz.Lib.HashMap

/-!
# The deny set of federated identities

Each issuer has a shard with its deny entries and the `jti`s of the commands
that made them. A command holds a pending slot in its issuer's shard while the
other pods are asked, and then either commits or gives the slot back.

An issuer and a `jti` are strings, and a target is its public key: the hex form
the shard is keyed by says the same. A point in time is a number of nanoseconds.
A shard's lock is not modelled beyond its effect, that each operation is one
step, and neither is poisoning: no operation panics while it holds the lock.
-/

namespace Buzz.Auth

open Buzz.Lib

structure IssuerShard where
  /-- Target key to `until`. -/
  entries : HMap PublicKey Int := ∅
  /-- `jti` to the expiry of its command. -/
  jtis : HMap String Int := ∅
  capacity : Nat
  maxJtiCount : Nat
  pendingJtis : Finset String := ∅
  /-- How many uncommitted reservations name the key. -/
  pendingKeys : HMap PublicKey Nat := ∅

inductive ReserveError where
  | jtiAlreadyReserved
  | capacityExceeded
deriving DecidableEq

namespace IssuerShard

/-- `usize::MAX`. -/
def usizeMax : Nat := 2 ^ 64 - 1

def new (capacity : Nat) : IssuerShard where
  capacity := capacity
  maxJtiCount := max (min (capacity * 2) usizeMax) 1

variable (s : IssuerShard)

def entrySlots : Nat :=
  s.entries.keys.length +
    (s.pendingKeys.keys.filter fun k => !(s.entries.lookup k).isSome).length

def evictExpired (now : Int) : IssuerShard :=
  { s with
      entries := s.entries.retain fun k deniedUntil =>
        now < deniedUntil || (s.pendingKeys.lookup k).isSome
      jtis := s.jtis.retain fun j exp => now < exp || j ∈ s.pendingJtis }

/-- Whether `full` holds even without the expired state. The sweep runs only
when it is needed. -/
def fullAfterEviction (now : Int) (full : IssuerShard → Bool) :
    IssuerShard × Bool :=
  if full s then
    let s' := s.evictExpired now
    (s', full s')
  else (s, false)

def isDenied (key : PublicKey) (now : Int) : Bool :=
  (s.entries.lookup key).any (now < ·)

/-- The check of the `jti` budget. -/
def jtisFull : Bool :=
  s.maxJtiCount ≤ s.jtis.keys.length + s.pendingJtis.card

def entriesFull : Bool := s.capacity ≤ s.entrySlots

/-- The `jti` check, then its budget; an expired `jti` is used again. -/
def reserveJti (jti : String) (now : Int) :
    IssuerShard × Option ReserveError :=
  if jti ∈ s.pendingJtis ∨ (s.jtis.lookup jti).any (now < ·) then
    (s, some .jtiAlreadyReserved)
  else if (s.jtis.lookup jti).isSome then (s, none)
  else
    match s.fullAfterEviction now jtisFull with
    | (s', true) => (s', some .capacityExceeded)
    | (s', false) => (s', none)

/-- Room for the key's entry. -/
def reserveEntry (key : PublicKey) (now : Int) :
    IssuerShard × Option ReserveError :=
  if (s.entries.lookup key).isSome ∨ (s.pendingKeys.lookup key).isSome then (s, none)
  else
    match s.fullAfterEviction now entriesFull with
    | (s', true) => (s', some .capacityExceeded)
    | (s', false) => (s', none)

/-- The pending slot itself. -/
def hold (jti : String) (key : PublicKey) : IssuerShard :=
  { s with
      pendingJtis := insert jti s.pendingJtis
      pendingKeys := s.pendingKeys.insert key ((s.pendingKeys.lookup key).getD 0 + 1) }

def reserve (jti : String) (key : PublicKey) (now : Int) :
    IssuerShard × Option ReserveError :=
  match s.reserveJti jti now with
  | (s₁, some e) => (s₁, some e)
  | (s₁, none) =>
      match s₁.reserveEntry key now with
      | (s₂, some e) => (s₂, some e)
      | (s₂, none) => (s₂.hold jti key, none)

def release (jti : String) (key : PublicKey) : IssuerShard :=
  { s with
      pendingJtis := s.pendingJtis.erase jti
      pendingKeys :=
        match s.pendingKeys.lookup key with
        | none => s.pendingKeys
        | some count =>
            if count - 1 = 0 then s.pendingKeys.erase key
            else s.pendingKeys.insert key (count - 1) }

/-- `max(existing_until, until)`. -/
def mergeUntil (key : PublicKey) (deniedUntil : Int) : IssuerShard :=
  let effective := (s.entries.lookup key).elim deniedUntil (max · deniedUntil)
  { s with entries := s.entries.insert key effective }

def commit (jti : String) (effectiveExpiry : Int) (key : PublicKey)
    (deniedUntil : Int) : IssuerShard :=
  let s' := (s.release jti key).mergeUntil key deniedUntil
  { s' with jtis := s'.jtis.insert jti effectiveExpiry }

/-- `false` is `CapacityExceeded`. -/
def mergeEntry (key : PublicKey) (deniedUntil now : Int) :
    IssuerShard × Bool :=
  match s.reserveEntry key now with
  | (s', some _) => (s', false)
  | (s', none) => (s'.mergeUntil key deniedUntil, true)

end IssuerShard

inductive CrossPodMergeResult where
  | merged
  | unknownIssuer
  | capacityExceeded
deriving DecidableEq

structure NipFiDenyMap where
  shards : HMap String IssuerShard := ∅
  defaultCapacity : Nat

namespace NipFiDenyMap

def new (defaultCapacity : Nat) (issuerCapacities : List (String × Nat)) : NipFiDenyMap where
  shards := issuerCapacities.foldl (fun m ic => m.insert ic.1 (.new ic.2)) ∅
  defaultCapacity := defaultCapacity

variable (m : NipFiDenyMap)

def isDenied (issuer : String) (key : PublicKey) (now : Int) : Bool :=
  (m.shards.lookup issuer).any (·.isDenied key now)

/-- The issuer's shard; `reserve` makes one where there is none. -/
def shard (issuer : String) : IssuerShard :=
  (m.shards.lookup issuer).getD (.new m.defaultCapacity)

def setShard (issuer : String) (s : IssuerShard) : NipFiDenyMap :=
  { m with shards := m.shards.insert issuer s }

def reserve (issuer jti : String) (key : PublicKey) (now : Int) :
    NipFiDenyMap × Option ReserveError :=
  let (s, e) := (m.shard issuer).reserve jti key now
  (m.setShard issuer s, e)

/-- `Reservation::commit`. -/
def commit (issuer jti : String) (effectiveExpiry : Int) (key : PublicKey)
    (deniedUntil : Int) : NipFiDenyMap :=
  match m.shards.lookup issuer with
  | none => m
  | some s => m.setShard issuer (s.commit jti effectiveExpiry key deniedUntil)

/-- `Reservation::drop`. -/
def release (issuer jti : String) (key : PublicKey) : NipFiDenyMap :=
  match m.shards.lookup issuer with
  | none => m
  | some s => m.setShard issuer (s.release jti key)

def mergeCrossPodDeny (issuer : String) (key : PublicKey)
    (deniedUntil now : Int) : NipFiDenyMap × CrossPodMergeResult :=
  match m.shards.lookup issuer with
  | none => (m, .unknownIssuer)
  | some s =>
      match s.mergeEntry key deniedUntil now with
      | (s', true) => (m.setShard issuer s', .merged)
      | (s', false) => (m.setShard issuer s', .capacityExceeded)

end NipFiDenyMap

end Buzz.Auth
