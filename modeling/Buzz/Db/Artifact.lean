import Buzz.Core.Artifact

/-!
# The artifact tables

`buzz-db/src/store/artifact.rs`, for one community. An artifact's head row
points at the event that is its current revision; the event row carries the soft
delete that a redaction sets. A write is one transaction, so each function below
takes the whole database to the next one. The model keeps only what these
functions read; a database error leaves the database as it was.
-/

namespace Buzz.Db

open Buzz.Core Buzz.Lib

/-! ## Tables -/

/-- A row of `events`. -/
structure ArtifactEventRow where
  event : Event
  channelId : Option Uuid
  /-- `deleted_at IS NOT NULL`. -/
  deleted : Bool := false
deriving DecidableEq

/-- A row of `artifact_heads`. -/
structure ArtifactHead where
  eventId : EventId
  channelId : Uuid
  artifactType : String
  root : Option EventId
  deleted : Bool
deriving DecidableEq

structure ArtifactDb where
  events : HMap EventId ArtifactEventRow := ∅
  heads : HMap Uuid ArtifactHead := ∅
  /-- `artifact_revisions`, the ledger of accepted event ids. -/
  revisions : List EventId := []

namespace ArtifactDb

variable (db : ArtifactDb)

/-- `insert_event_in_transaction`: `ON CONFLICT DO NOTHING`. -/
def insertEvent (event : Event) (channelId : Option Uuid) : ArtifactDb :=
  match db.events.lookup event.id with
  | some _ => db
  | none => { db with events := db.events.insert event.id ⟨event, channelId, false⟩ }

/-! ## Accepting a revision -/

inductive ArtifactOutcome where
  | accepted (events : List StoredEvent)
  | duplicate
  | conflict (reason : String)
  | rejected (reason : String)
deriving DecidableEq

def headUnavailable : String := "artifact head unavailable"

/-- The id and the time of the event the relay signs for a move. -/
structure Signing where
  relayKey : PublicKey
  id : EventId
  createdAt : UInt64

/-- `removal_marker`. -/
def removalMarker (signing : Signing) (artifact source : Uuid) (prev : EventId) : Event where
  id := signing.id
  pubkey := signing.relayKey
  createdAt := signing.createdAt
  kind := 45011
  tags := [⟨"ar", ["1"]⟩, ⟨"d", [artifact.toText]⟩, ⟨"h", [source.toText]⟩,
    ⟨"reason", ["moved"]⟩, ⟨"prev", [prev.toHex]⟩]

/-- Kinds a revision may name as its conversation anchor. -/
def anchorKinds : List Nat := [9, 40002, 45001, 45003]

def isAnchor (root : EventId) (home : Uuid) : Bool :=
  (db.events.lookup root).any fun row =>
    row.channelId == some home && !row.deleted && eventKind row.event ∈ anchorKinds

/-- Why the envelope does not follow the current head, if it does not. -/
def checkHead (head : Option ArtifactHead) (env : ArtifactEnvelope)
    (authorizedSource : Option Uuid) : Option ArtifactOutcome :=
  match head with
  | none => if env.op = .create then none else some (.conflict headUnavailable)
  | some head =>
      if env.op = .create then some (.conflict "artifact identity is taken")
      -- A head outside the channels the caller authorized reads as missing.
      else if some head.channelId ≠
          (if env.op = .move then authorizedSource else some env.home) then
        some (.conflict headUnavailable)
      else if env.prev ≠ some head.eventId then some (.conflict "artifact head changed")
      else if env.artifactType ≠ head.artifactType then
        some (.rejected "artifact type is immutable")
      else if head.deleted ≠ decide (env.op = .restore) then
        some (.rejected "deleted artifacts require restore; live artifacts cannot restore")
      else if decide (env.op = .move) ≠ decide (head.channelId ≠ env.home) then
        some (.rejected "only move changes home and move must change home")
      else if env.op = .delete ∧ env.root ≠ head.root then
        some (.rejected "delete preserves root")
      else none

/-- Whether the revision's root has to be looked up, and is no anchor. -/
def badRoot (head : Option ArtifactHead) (env : ArtifactEnvelope) : Bool :=
  (head.isNone || env.root != head.bind (·.root) ||
    head.map (·.channelId) != some env.home) &&
    env.root.any fun root => !db.isAnchor root env.home

/-- The head row an acceptance writes. The upsert leaves the type of an
existing row alone. -/
def revisedHead (event : Event) (env : ArtifactEnvelope) (old : Option ArtifactHead) :
    ArtifactHead where
  eventId := event.id
  channelId := env.home
  artifactType := (old.map (·.artifactType)).getD env.artifactType
  root := env.root
  deleted := decide (env.op = .delete)

/-- The writes of an acceptance: ledger, head, revision. -/
def writeRevision (event : Event) (env : ArtifactEnvelope) : ArtifactDb :=
  let db := { db with
    revisions := event.id :: db.revisions
    heads := HMap.alter db.heads env.id fun old => some (revisedHead event env old) }
  db.insertEvent event (some env.home)

/-- `accept_artifact`. -/
def acceptArtifact (event : Event) (env : ArtifactEnvelope)
    (authorizedSource : Option Uuid) (signing : Signing) :
    ArtifactOutcome × ArtifactDb :=
  if event.id ∈ db.revisions then (.duplicate, db)
  else
    let head := db.heads.lookup env.id
    match checkHead head env authorizedSource with
    | some outcome => (outcome, db)
    | none =>
        if db.badRoot head env then
          (.rejected "root must be an existing conversation anchor in home", db)
        else
          let db := db.writeRevision event env
          let revision : StoredEvent := ⟨event, some env.home⟩
          match env.op, head, env.prev with
          | .move, some head, some prev =>
              let removal := removalMarker signing env.id head.channelId prev
              (.accepted [revision, ⟨removal, some head.channelId⟩],
                db.insertEvent removal (some head.channelId))
          | _, _, _ => (.accepted [revision], db)

/-- The soft delete of a kind 9005 target. A target of another channel, or of
none, is refused. -/
def redact (channel : Uuid) (target : EventId) : ArtifactDb :=
  match db.events.lookup target with
  | some row =>
      if row.channelId = some channel then
        { db with events := db.events.insert target { row with deleted := true } }
      else db
  | none => db

end ArtifactDb

end Buzz.Db
