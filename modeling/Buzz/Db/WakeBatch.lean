import Buzz.Db.PushWake
import Mathlib.Data.List.Sort

/-!
# Enqueueing wakes, set-wise

`enqueue_wakes` as it is written: one transaction with a constant number of statements
for any number of requests. It reads the leases of all requests, inserts one row for each
request whose lease is current, looks up the rows that were there before, and tells the
requests apart in memory afterwards. Requests come as raw bytes and texts, and the
checks of the tables are part of the statements that meet them.

The tables carry their keys. A job id is a number: the ids of `gen_random_uuid()` are the
values of a function, and the tables count how many were drawn.
-/

namespace Buzz.Db

open Buzz.Lib

inductive WakeError where
  /-- `begin_community_write_transaction` refuses the community. -/
  | refused
  /-- Postgres has no text with a NUL in it. -/
  | invalidText
  /-- `try_get` of a column that is NULL. -/
  | unexpectedNull
  | checkViolation
  | uniqueViolation
  | invalidData (message : String)
deriving DecidableEq

/-- One matcher-produced wake request. -/
structure WakeRequest where
  author : List UInt8
  installationId : String
  leaseGeneration : Int
  eventId : List UInt8
  wakeClass : String
  expiresAt : Int
deriving DecidableEq

namespace WakeBatch

/-- The columns of `push_leases` that are read here. -/
structure LeaseRow where
  community : CommunityId
  author : List UInt8
  installationId : String
  generation : Int
  active : Bool
  endpointEnabled : Bool
  endpointHash : Option (List UInt8)
  expiresAt : Int
deriving DecidableEq

def LeaseRow.key (l : LeaseRow) : CommunityId × List UInt8 × String :=
  (l.community, l.author, l.installationId)

/-- The columns of `push_wake_outbox` that are written here. -/
structure OutboxRow where
  community : CommunityId
  id : Nat
  author : List UInt8
  installationId : String
  leaseGeneration : Int
  endpointHash : List UInt8
  eventId : List UInt8
  wakeClass : String
  expiresAt : Int
deriving DecidableEq

/-- What one endpoint is woken for. -/
abbrev JobKey := List UInt8 × List UInt8

namespace OutboxRow

def jobKey (o : OutboxRow) : JobKey := (o.endpointHash, o.eventId)

/-- The primary key, and the key a conflict is about. -/
def primaryKey (o : OutboxRow) : CommunityId × Nat := (o.community, o.id)
def conflictKey (o : OutboxRow) : CommunityId × JobKey := (o.community, o.jobKey)

/-- The `CHECK`s of the table, which come before the keys. -/
def passesChecks (o : OutboxRow) : Bool :=
  o.author.length = 32 && 0 < o.leaseGeneration && o.endpointHash.length = 32 &&
    o.eventId.length = 32 && ["silent", "default", "time_sensitive", "urgent"].contains o.wakeClass

end OutboxRow

structure Tables where
  leases : List LeaseRow
  outbox : List OutboxRow
  /-- Communities whose write admission refuses. -/
  refusing : List CommunityId := []
  /-- How many ids were drawn. -/
  drawn : Nat := 0
  lease_keys : (leases.map LeaseRow.key).Nodup
  primary_keys : (outbox.map OutboxRow.primaryKey).Nodup
  conflict_keys : (outbox.map OutboxRow.conflictKey).Nodup

theorem nodup_map_concat {α β : Type} {f : α → β} {l : List α} {a : α} (h : (l.map f).Nodup)
    (ha : f a ∉ l.map f) : ((l ++ [a]).map f).Nodup := by
  rw [List.map_append]
  refine List.nodup_append.2 ⟨h, List.nodup_singleton _, fun x hx y hy heq => ?_⟩
  rw [List.map_singleton, List.mem_singleton] at hy
  exact ha (hy ▸ heq ▸ hx)

namespace Tables

/-- One row of `INSERT … ON CONFLICT (community_id, endpoint_hash, event_id) DO NOTHING`, with
the row if it was inserted. The id of a row that is skipped is drawn all the same. -/
def insertRow (gen : Nat → Nat) (t : Tables) (columns : OutboxRow) :
    Except WakeError (Tables × Option OutboxRow) :=
  let row := { columns with id := gen t.drawn }
  if !row.passesChecks then .error .checkViolation
  else if conflict : row.conflictKey ∈ t.outbox.map OutboxRow.conflictKey then
    .ok ({ t with drawn := t.drawn + 1 }, none)
  else if taken : row.primaryKey ∈ t.outbox.map OutboxRow.primaryKey then
    .error .uniqueViolation
  else
    .ok ({ t with
            outbox := t.outbox ++ [row]
            drawn := t.drawn + 1
            primary_keys := nodup_map_concat t.primary_keys taken
            conflict_keys := nodup_map_concat t.conflict_keys conflict }, some row)

/-- The whole statement, with what it returns. -/
def insertRows (gen : Nat → Nat) (t : Tables) :
    List OutboxRow → Except WakeError (Tables × List OutboxRow)
  | [] => .ok (t, [])
  | columns :: rest =>
      match t.insertRow gen columns with
      | .error e => .error e
      | .ok (t', row) =>
          match insertRows gen t' rest with
          | .error e => .error e
          | .ok (t'', rows) => .ok (t'', row.toList ++ rows)

end Tables

/-! ## The leases -/

/-- The order of the locks: authors by their bytes, then installations. -/
def pairLe (a b : List UInt8 × String) : Prop := a.1 < b.1 ∨ (a.1 = b.1 ∧ a.2 ≤ b.2)

instance decidablePairLe (a b : List UInt8 × String) : Decidable (pairLe a b) :=
  inferInstanceAs (Decidable (a.1 < b.1 ∨ (a.1 = b.1 ∧ a.2 ≤ b.2)))

/-- Every distinct requested installation, in order. -/
def lockPairs (requests : List WakeRequest) : List (List UInt8 × String) :=
  ((requests.map fun r : WakeRequest => (r.author, r.installationId)).insertionSort pairLe).dedup

/-- The lease may be used now. -/
def LeaseRow.current (now : Int) (community : CommunityId) (l : LeaseRow) : Bool :=
  l.community = community && l.active && l.endpointEnabled && epochSecs now < l.expiresAt

/-- The rows `SELECT … FOR UPDATE` returns. Their order says nothing to what follows. -/
def lockLeases (t : Tables) (now : Int) (community : CommunityId)
    (pairs : List (List UInt8 × String)) : List LeaseRow :=
  t.leases.filter fun l =>
    l.current now community && pairs.contains (l.author, l.installationId)

abbrev LeaseMap := HMap (List UInt8 × String) (Int × List UInt8)

def readLeases : LeaseMap → List LeaseRow → Except WakeError LeaseMap
  | leases, [] => .ok leases
  | leases, row :: rows =>
      match row.endpointHash with
      | none => .error .unexpectedNull
      | some endpointHash =>
          readLeases
            (leases.insert (row.author, row.installationId) (row.generation, endpointHash)) rows

/-- `None` marks an inactive lease. -/
def resolve (leases : LeaseMap) (r : WakeRequest) : Option (List UInt8) :=
  ((leases.lookup (r.author, r.installationId)).filter (·.1 = r.leaseGeneration)).map (·.2)

/-! ## The jobs -/

/-- The columns a request gives for the insert; the id is drawn there. -/
def columns (community : CommunityId) (r : WakeRequest) (endpointHash : List UInt8) :
    OutboxRow :=
  { community := community, id := 0, author := r.author, installationId := r.installationId
    leaseGeneration := r.leaseGeneration, endpointHash := endpointHash, eventId := r.eventId
    wakeClass := r.wakeClass, expiresAt := r.expiresAt }

/-- The arrays of the insert: the requests with a lease, in their order. -/
def insertArrays (community : CommunityId) (resolved : List (WakeRequest × Option (List UInt8))) :
    List OutboxRow :=
  resolved.filterMap fun (r, endpointHash) => endpointHash.map (columns community r)

/-- `SELECT endpoint_hash, event_id, id … WHERE (endpoint_hash, event_id) IN …` -/
def duplicateRows (t : Tables) (community : CommunityId) (keys : List JobKey) : List OutboxRow :=
  t.outbox.filter fun o => o.community = community && keys.contains o.jobKey

/-- `job_ids.insert` for the rows of the insert. -/
def insertIds : HMap JobKey Nat → List OutboxRow → HMap JobKey Nat
  | ids, [] => ids
  | ids, o :: rows => insertIds (ids.insert o.jobKey o.id) rows

/-- `job_ids.entry(key).or_insert(id)` for the rows that were there. -/
def orInsertIds : HMap JobKey Nat → List OutboxRow → HMap JobKey Nat
  | ids, [] => ids
  | ids, o :: rows =>
      orInsertIds (if (ids.lookup o.jobKey).isSome then ids else ids.insert o.jobKey o.id) rows

inductive Outcome where
  | enqueued (id : Nat)
  | duplicate (id : Nat)
  | inactiveLease
deriving DecidableEq

/-- The first request to claim an inserted key reports `Enqueued`. -/
def report (jobIds : HMap JobKey Nat) (insertedKeys : Finset JobKey) :
    Finset JobKey → List (WakeRequest × Option (List UInt8)) → Except WakeError (List Outcome)
  | _, [] => .ok []
  | reported, (_, none) :: rest =>
      (report jobIds insertedKeys reported rest).map (.inactiveLease :: ·)
  | reported, (r, some endpointHash) :: rest =>
      let key := (endpointHash, r.eventId)
      match jobIds.lookup key with
      | none => .error (.invalidData "wake enqueue resolved neither insert nor duplicate")
      | some id =>
          if key ∈ insertedKeys ∧ key ∉ reported then
            (report jobIds insertedKeys (insert key reported) rest).map (.enqueued id :: ·)
          else (report jobIds insertedKeys reported rest).map (.duplicate id :: ·)

/-- The statements from the insert on, and the outcomes. -/
def insertAndReport (gen : Nat → Nat) (t : Tables) (community : CommunityId)
    (resolved : List (WakeRequest × Option (List UInt8))) :
    Except WakeError (Tables × List Outcome) :=
  let arrays := insertArrays community resolved
  match t.insertRows gen arrays with
  | .error e => .error e
  | .ok (t', inserted) =>
      let insertedKeys := (inserted.map OutboxRow.jobKey).toFinset
      let jobIds := insertIds ∅ inserted
      let jobIds :=
        if insertedKeys.card < arrays.length then
          orInsertIds jobIds (duplicateRows t' community (arrays.map OutboxRow.jobKey))
        else jobIds
      (report jobIds insertedKeys ∅ resolved).map fun outcomes => (t', outcomes)

def enqueueWakes (gen : Nat → Nat) (now : Int) (t : Tables) (community : CommunityId)
    (requests : List WakeRequest) : Except WakeError (Tables × List Outcome) :=
  if requests.isEmpty then .ok (t, [])
  else if t.refusing.contains community then .error .refused
  else if requests.any fun r => r.installationId.toList.contains '\x00' then .error .invalidText
  else
    match readLeases ∅ (lockLeases t now community (lockPairs requests)) with
    | .error e => .error e
    | .ok leases =>
        insertAndReport gen t community (requests.zip (requests.map (resolve leases)))

/-- The batch of one. -/
def enqueueWake (gen : Nat → Nat) (now : Int) (t : Tables) (community : CommunityId)
    (r : WakeRequest) : Except WakeError (Tables × Outcome) :=
  match enqueueWakes gen now t community [r] with
  | .error e => .error e
  | .ok (t', outcomes) =>
      match outcomes.head? with
      | none => .error (.invalidData "missing wake enqueue outcome")
      | some outcome => .ok (t', outcome)

/-- One call after the other, until one fails. -/
def enqueueEach (gen : Nat → Nat) (now : Int) (t : Tables) (community : CommunityId) :
    List WakeRequest → Except WakeError (Tables × List Outcome)
  | [] => .ok (t, [])
  | r :: rest =>
      match enqueueWake gen now t community r with
      | .error e => .error e
      | .ok (t', outcome) =>
          match enqueueEach gen now t' community rest with
          | .error e => .error e
          | .ok (t'', outcomes) => .ok (t'', outcome :: outcomes)

end WakeBatch

end Buzz.Db
