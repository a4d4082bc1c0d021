import Buzz.Audit.Hash
import Mathlib.Data.List.Sort

/-!
# The audit service

`audit_log` holds one chain of rows for each community. `log` appends to the
chain under the community's advisory lock, so a whole call is one step;
`verify_chain` reads a range of one chain and follows its links.

What the database does with a row it is given is a parameter: which value the
`JSONB` column gives back, and what else may refuse an insert.
-/

namespace Buzz.Audit

/-- A row of `audit_log`. The action is the text in the column, and the JSON
context may be `NULL`. -/
structure AuditRow where
  communityId : Uuid
  seq : Int64
  hash : Bytes
  prevHash : Option Bytes
  action : List Char
  actorPubkey : Option Bytes
  objectId : Option Text
  detail : Option Detail
  createdAt : DateTime
  hashVersion : Int16
  stored : createdAt.nanos % 1000 = 0

/-- The primary key. -/
def AuditRow.key (r : AuditRow) : Uuid × Int64 := (r.communityId, r.seq)

/-- What `idx_audit_log_hash` keeps unique. -/
def AuditRow.hashKey (r : AuditRow) : Uuid × Bytes := (r.communityId, r.hash)

structure AuditLog where
  rows : List AuditRow
  keys : (rows.map AuditRow.key).Nodup
  hashes : (rows.map AuditRow.hashKey).Nodup

def AuditLog.empty : AuditLog := ⟨[], List.nodup_nil, List.nodup_nil⟩

/-- PostgreSQL as the table sees it: what a `JSONB` column gives back for a
value, if it takes it, and whether nothing else is in the way of a row. A
relation never has room for `i64::MAX` rows. -/
structure Postgres where
  column : Detail → Option Detail
  takes : AuditLog → AuditRow → Bool
  room : ∀ log row, takes log row = true → log.rows.length < 9223372036854775807

/-- The column keeps a number by its value, so that a float may come back
written in another way. This one comes back as it was. -/
def Postgres.ReadsBack (pg : Postgres) (d : Detail) : Prop :=
  ∀ d' ∈ pg.column d, d' = d

/-- The insert, unless a column, a constraint or something else refuses it. -/
def Postgres.insert (pg : Postgres) (log : AuditLog) (row : AuditRow) : Option AuditLog :=
  match row.detail.map pg.column with
  | some none => none
  | detail =>
      let stored := { row with detail := detail.join }
      if hkey : stored.key ∈ log.rows.map AuditRow.key then none
      else if hhash : stored.hashKey ∈ log.rows.map AuditRow.hashKey then none
      else if pg.takes log stored then
        some
          { rows := stored :: log.rows
            keys := List.nodup_cons.2 ⟨hkey, log.keys⟩
            hashes := List.nodup_cons.2 ⟨hhash, log.hashes⟩ }
      else none

structure NewAuditEntry where
  communityId : Uuid
  action : AuditAction
  actorPubkey : Option Bytes
  objectId : Option Text
  detail : Detail

/-- A call of `log`: what it is given, the clock, and whether the community
still takes writes. -/
structure LogCall where
  entry : NewAuditEntry
  now : DateTime
  admitted : Bool

/-- The last row of a community's chain: `ORDER BY seq DESC LIMIT 1`. -/
def chainHead (log : AuditLog) (community : Uuid) : Option AuditRow :=
  ((log.rows.filter fun r => r.communityId == community).insertionSort
    fun a b => b.seq ≤ a.seq).head?

theorem toStoragePrecision_stored (t : DateTime) : (toStoragePrecision t).nanos % 1000 = 0 := by
  show (t.nanos - t.nanos % 1000) % 1000 = 0
  omega

theorem length_digest_lt (bytes : List UInt8) :
    (Lib.Sha256.digest bytes).length < sliceBound := by
  rw [Lib.Sha256.length_digest]
  decide

/-- The row `INSERT` is given for an entry. -/
def AuditEntry.toRow (e : AuditEntry) (h : e.createdAt.nanos % 1000 = 0) : AuditRow where
  communityId := e.communityId
  seq := e.seq
  hash := e.hash
  prevHash := e.prevHash
  action := e.action.asStr
  actorPubkey := e.actorPubkey
  objectId := e.objectId
  detail := some e.detail
  createdAt := e.createdAt
  hashVersion := e.hashVersion
  stored := h

/-- The entry before its hash is known. -/
def NewAuditEntry.unhashed (entry : NewAuditEntry) (head : Option AuditRow) (now : DateTime) :
    AuditEntry where
  communityId := entry.communityId
  seq := (head.map AuditRow.seq).getD 0 + 1
  hashVersion := currentHashVersion
  hash := ⟨[], Bytes.nil_fits⟩
  prevHash := head.map AuditRow.hash
  action := entry.action
  actorPubkey := entry.actorPubkey
  objectId := entry.objectId
  detail := entry.detail
  createdAt := toStoragePrecision now

/-- `AuditService::log` -/
def log (pg : Postgres) (log : AuditLog) (call : LogCall) :
    Except AuditError AuditEntry × AuditLog :=
  if call.admitted = false then (.error .admission, log)
  else
    let unhashed := call.entry.unhashed (chainHead log call.entry.communityId) call.now
    match encoding unhashed with
    | .error e => (.error e, log)
    | .ok bytes =>
        let entry := { unhashed with hash := ⟨Lib.Sha256.digest bytes, length_digest_lt bytes⟩ }
        match pg.insert log (entry.toRow (toStoragePrecision_stored call.now)) with
        | some log => (.ok entry, log)
        | none => (.error .database, log)

/-- The table after a sequence of calls. -/
def logAll (pg : Postgres) (calls : List LogCall) : AuditLog :=
  calls.foldl (fun log' call => (log pg log' call).2) AuditLog.empty

/-! ## Verification -/

/-- `verify_chain` fails with an error, or `row.get` panics on a `NULL`. -/
inductive Failure where
  | error (e : AuditError)
  | panicked
deriving DecidableEq

def rowToAuditEntry (r : AuditRow) : Except Failure AuditEntry :=
  match AuditAction.fromStr r.action with
  | none => .error (.error .unknownAction)
  | some action =>
      match r.detail with
      | none => .error .panicked
      | some detail =>
          .ok
            { communityId := r.communityId
              seq := r.seq
              hashVersion := r.hashVersion
              hash := r.hash
              prevHash := r.prevHash
              action := action
              actorPubkey := r.actorPubkey
              objectId := r.objectId
              detail := detail
              createdAt := r.createdAt }

/-- The rows of a community in a range of sequence numbers, in their order. -/
def rangeRows (log : AuditLog) (community : Uuid) (fromSeq toSeq : Int64) : List AuditRow :=
  (log.rows.filter fun r =>
    r.communityId == community && (fromSeq ≤ r.seq && r.seq ≤ toSeq)).insertionSort
      fun a b => a.seq ≤ b.seq

/-- The loop of `verify_chain`, with the hash the next row has to name. -/
def verifyRows : Option Bytes → List AuditRow → Except Failure Unit
  | _, [] => .ok ()
  | expected, r :: rest =>
      match rowToAuditEntry r with
      | .error e => .error e
      | .ok entry =>
          if expected.isSome ∧ entry.prevHash ≠ expected then
            .error (.error (.chainViolation entry.seq))
          else
            match computeHash entry with
            | .error e => .error (.error e)
            | .ok computed =>
                if computed ≠ entry.hash.val then .error (.error (.hashMismatch entry.seq))
                else verifyRows (some entry.hash) rest

def verifyChain (log : AuditLog) (community : Uuid) (fromSeq toSeq : Int64) :
    Except Failure Bool :=
  let rows := rangeRows log community fromSeq toSeq
  if rows.isEmpty then .ok false
  else (verifyRows none rows).map fun _ => true

end Buzz.Audit
