import Buzz.Core.Event
import Buzz.Lib.HashMap

/-!
# The push wake outbox

A wake is one row of `push_wake_outbox`: a push to send for one event to one
installation's lease. A worker claims due rows for a while, checks each one
again before it sends, and ends it with a write fenced by the claim. Each
statement is one function on the tables.

Row and claim ids come from a random source that does not repeat, so here they
count up. Times are microseconds on the database's clock. Rows are never
deleted by the modelled code: nothing calls `prune_wake_outbox`.
-/

namespace Buzz.Db

open Buzz.Lib

inductive WakeState where
  | pending
  | sending
  | delivered
  | failed
deriving DecidableEq

/-- The key of a wake, and the lease address of an installation. -/
abbrev WakeKey := CommunityId × Nat
abbrev LeaseKey := CommunityId × PublicKey × String

structure WakeRow where
  author : PublicKey
  installationId : String
  leaseGeneration : Int
  endpointHash : Bytes32
  eventId : EventId
  /-- In seconds, like every `expires_at`. -/
  expiresAt : Int
  state : WakeState := .pending
  attempts : Nat := 0
  nextAttemptAt : Int
  leaseUntil : Option Int := none
  claimId : Option Nat := none
deriving DecidableEq

structure PushLeaseRow where
  generation : Int
  active : Bool
  endpointEnabled : Bool := true
  endpointHash : Option Bytes32
  expiresAt : Int
deriving DecidableEq

/-- The columns of `events` a wake's queries read. -/
structure PushEventRow where
  channelId : Option Uuid
  deleted : Bool := false
deriving DecidableEq

structure PushStore where
  now : Int := 0
  wakes : HMap WakeKey WakeRow := ∅
  leases : HMap LeaseKey PushLeaseRow := ∅
  events : HMap (CommunityId × EventId) PushEventRow := ∅
  /-- The rows `is_member` counts. -/
  members : List (CommunityId × Uuid × PublicKey) := []
  /-- Communities whose write admission refuses. -/
  refusing : List CommunityId := []
  nextWake : Nat := 0
  nextClaim : Nat := 0

/-- `EXTRACT(EPOCH FROM now())::bigint`, which rounds to the nearest second. -/
def epochSecs (now : Int) : Int := (now + 500000) / 1000000

/-- A wake as a worker holds it. -/
structure ClaimedWake where
  community : CommunityId
  id : Nat
  claimId : Nat
  channelId : Option Uuid
  author : PublicKey
  installationId : String
  leaseGeneration : Int
  attempt : Nat
deriving DecidableEq

def ClaimedWake.key (w : ClaimedWake) : WakeKey := (w.community, w.id)

namespace PushStore

variable (s : PushStore)

variable (community : CommunityId)

/-- The join with `push_leases`, and its `active` conditions. -/
def leaseAuthorizes (o : WakeRow) : Bool :=
  (s.leases.lookup (community, o.author, o.installationId)).any fun l =>
    l.generation = o.leaseGeneration && l.endpointHash = some o.endpointHash && l.active &&
      l.endpointEnabled && epochSecs s.now < l.expiresAt

/-- The join with `events`: the row, unless it is deleted. -/
def liveEvent (o : WakeRow) : Option PushEventRow :=
  (s.events.lookup (community, o.eventId)).filter (!·.deleted)

def isMember (channel : Uuid) (pubkey : PublicKey) :
    Bool :=
  s.members.contains (community, channel, pubkey)

/-- `begin_community_write_transaction` admits the community. -/
def admits : Bool := !s.refusing.contains community

/-! ## Enqueueing -/

structure WakeRequest where
  author : PublicKey
  installationId : String
  leaseGeneration : Int
  eventId : EventId
  expiresAt : Int

inductive EnqueueWakeOutcome where
  | enqueued (id : Nat)
  | duplicate (id : Nat)
  | inactiveLease

/-- The endpoint of the requested lease, if the lease is still current. -/
def requestEndpoint (r : WakeRequest) :
    Option Bytes32 :=
  (s.leases.lookup (community, r.author, r.installationId)).bind fun l =>
    if l.active && l.endpointEnabled && epochSecs s.now < l.expiresAt &&
        l.generation = r.leaseGeneration then l.endpointHash
    else none

/-- `UNIQUE (community_id, endpoint_hash, event_id)`. -/
def findDuplicate (endpoint : Bytes32) (eventId : EventId) : Option Nat :=
  (s.wakes.entries.find? fun e =>
    e.1.1 = community ∧ e.2.endpointHash = endpoint ∧ e.2.eventId = eventId).map (·.1.2)

def enqueueWake (r : WakeRequest) :
    PushStore × EnqueueWakeOutcome :=
  match s.requestEndpoint community r with
  | none => (s, .inactiveLease)
  | some endpoint =>
      match s.findDuplicate community endpoint r.eventId with
      | some id => (s, .duplicate id)
      | none =>
          let row : WakeRow :=
            { author := r.author, installationId := r.installationId
              leaseGeneration := r.leaseGeneration, endpointHash := endpoint
              eventId := r.eventId, expiresAt := r.expiresAt, nextAttemptAt := s.now }
          ({ s with
              wakes := s.wakes.insert (community, s.nextWake) row
              nextWake := s.nextWake + 1 },
            .enqueued s.nextWake)

/-- `enqueue_wakes`: one transaction, so the leases it reads do not move. -/
def enqueueWakes (s : PushStore) (community : CommunityId) :
    List WakeRequest → PushStore × List EnqueueWakeOutcome
  | [] => (s, [])
  | r :: rs =>
      let (s', outcome) := s.enqueueWake community r
      let (s'', outcomes) := enqueueWakes s' community rs
      (s'', outcome :: outcomes)

/-! ## Claiming, checking, finishing -/

/-- The row may be claimed: its time has come and nobody holds it. -/
def due (o : WakeRow) : Bool :=
  (s.liveEvent community o).isSome && epochSecs s.now < o.expiresAt &&
    o.nextAttemptAt ≤ s.now &&
    (o.state = .pending || (o.state = .sending && o.leaseUntil.any (· < s.now))) &&
    s.leaseAuthorizes community o

def claimedWake (key : WakeKey) (o : WakeRow) (claimId : Nat) (event : Option PushEventRow) :
    ClaimedWake where
  community := key.1
  id := key.2
  claimId := claimId
  channelId := event.bind (·.channelId)
  author := o.author
  installationId := o.installationId
  leaseGeneration := o.leaseGeneration
  attempt := o.attempts

/-- Claim one of the candidate rows, if it is due. -/
def claimOne (id claimId : Nat) (leaseUntil : Int) :
    PushStore × Option ClaimedWake :=
  match s.wakes.lookup (community, id) with
  | some o =>
      if s.due community o then
        let o' := { o with
          state := .sending, claimId := some claimId, leaseUntil := some leaseUntil
          attempts := o.attempts + 1 }
        ({ s with wakes := s.wakes.insert (community, id) o' },
          some (claimedWake (community, id) o' claimId (s.liveEvent community o)))
      else (s, none)
  | none => (s, none)

/-- The claims of one statement, row by row. -/
def claimRows (s : PushStore) (community : CommunityId) (claimId : Nat) (leaseUntil : Int) :
    List Nat → PushStore × List ClaimedWake
  | [] => (s, [])
  | id :: ids =>
      let (s', claimed) := s.claimOne community id claimId leaseUntil
      let (s'', rest) := claimRows s' community claimId leaseUntil ids
      (s'', claimed.toList ++ rest)

/-- `claim_due_wakes`. Which due rows it takes depends on the rows other
transactions hold locked, so the caller names them. -/
def claimDueWakes (limit : Nat) (leaseUntil : Int) (ids : List Nat) :
    PushStore × List ClaimedWake :=
  ({ s with nextClaim := s.nextClaim + 1 } : PushStore).claimRows community s.nextClaim
    leaseUntil (ids.dedup.take limit)

/-- `revalidate_wake_for_send`; `none` is `Suppressed`. -/
def revalidateWakeForSend (id claimId : Nat) :
    Option ClaimedWake :=
  (s.wakes.lookup (community, id)).bind fun o =>
    (s.liveEvent community o).bind fun e =>
      if s.leaseAuthorizes community o && o.claimId = some claimId && o.state = .sending &&
          o.leaseUntil.any (s.now ≤ ·) && epochSecs s.now < o.expiresAt then
        some (claimedWake (community, id) o claimId (some e))
      else none

/-- A write `WHERE claim_id = … AND state = 'sending'`. -/
def fencedUpdate (id claimId : Nat) (set : WakeRow → WakeRow) : PushStore :=
  match s.wakes.lookup (community, id) with
  | some o =>
      if o.claimId = some claimId ∧ o.state = .sending then
        { s with wakes := s.wakes.insert (community, id) (set o) }
      else s
  | none => s

def completeWake (id claimId : Nat) : PushStore :=
  s.fencedUpdate community id claimId fun o =>
    { o with state := .delivered, claimId := none, leaseUntil := none }

def retryWake (id claimId : Nat) (nextAttemptAt : Int) :
    PushStore :=
  s.fencedUpdate community id claimId fun o =>
    { o with state := .pending, nextAttemptAt := nextAttemptAt, claimId := none,
             leaseUntil := none }

def failWake (id claimId : Nat) : PushStore :=
  s.fencedUpdate community id claimId fun o =>
    { o with state := .failed, claimId := none, leaseUntil := none }

def disableEndpointGeneration (author : PublicKey) (installationId : String)
    (generation : Int) : PushStore :=
  match s.leases.lookup (community, author, installationId) with
  | some l =>
      if l.generation = generation ∧ l.active ∧ l.endpointEnabled then
        { s with leases := s.leases.insert (community, author, installationId)
                   { l with endpointEnabled := false } }
      else s
  | none => s

end PushStore

end Buzz.Db
