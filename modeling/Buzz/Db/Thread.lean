import Buzz.Core.Event
import Buzz.Core.Kind
import Buzz.Lib.HashMap

/-!
# Thread metadata

The part of `buzz-db` that keeps a message's place in its thread: the insert
of an event with its `thread_metadata` row, and the soft delete that takes a
reply out of the counters. Each is one transaction, so each is one function
on the two tables.

An event id commits to the event's `created_at`, so the primary key of
`events` conflicts exactly when the id does and the table is a map by id. The
key of `thread_metadata` is `(event_created_at, event_id)`, and the time of a
stub row comes from its caller: there two rows can share an id.
-/

namespace Buzz.Db

open Buzz.Core Buzz.Lib

structure EventRow where
  event : Event
  channelId : Option Uuid
  /-- `deleted_at IS NOT NULL`. -/
  deleted : Bool := false
  /-- The parent the event was accepted with. Not a column. -/
  inReplyTo : Option EventId := none

structure ThreadMetadataParams where
  eventId : EventId
  eventCreatedAt : Int
  channelId : Uuid
  parentEventId : Option EventId
  parentEventCreatedAt : Option Int
  rootEventId : Option EventId
  rootEventCreatedAt : Option Int
  depth : Nat
  broadcast : Bool
deriving DecidableEq

structure ThreadRow extends ThreadMetadataParams where
  replyCount : Nat := 0
  descendantCount : Nat := 0
deriving DecidableEq

structure ThreadStore where
  events : HMap EventId EventRow := ∅
  threads : List ThreadRow := []

variable (rows : List ThreadRow)

/-- `INSERT … ON CONFLICT DO NOTHING`, with whether the row went in. -/
def insertThreadRow (row : ThreadRow) : List ThreadRow × Bool :=
  if rows.any fun r =>
      r.eventCreatedAt == row.eventCreatedAt && r.eventId == row.eventId then
    (rows, false)
  else (rows ++ [row], true)

/-- `UPDATE thread_metadata … WHERE event_id = id`. -/
def updateThreadRows (id : EventId) (set : ThreadRow → ThreadRow) :
    List ThreadRow :=
  rows.map fun r => if r.eventId = id then set r else r

/-- The row that stands in for a message nobody gave one. -/
def stubRow (createdAt : Int) (id : EventId) (channelId : Uuid) : ThreadRow where
  eventId := id
  eventCreatedAt := createdAt
  channelId := channelId
  parentEventId := none
  parentEventCreatedAt := none
  rootEventId := none
  rootEventCreatedAt := none
  depth := 0
  broadcast := false

def bumpReplies (r : ThreadRow) : ThreadRow := { r with replyCount := r.replyCount + 1 }

def bumpDescendants (r : ThreadRow) : ThreadRow :=
  { r with descendantCount := r.descendantCount + 1 }

/-- Make sure the root has a row, when it is not the parent. -/
def insertRootStub (params : ThreadMetadataParams) (parentId : EventId) :
    List ThreadRow :=
  match params.rootEventId with
  | some rootId =>
      if rootId = parentId then rows
      else
        let rootTs := params.rootEventCreatedAt.getD params.eventCreatedAt
        (insertThreadRow rows (stubRow rootTs rootId params.channelId)).1
  | none => rows

/-- The thread half of the insert: the event's own row, then stubs for its
parent and root, then their counters. -/
def insertThreadMetadata (params : ThreadMetadataParams) :
    List ThreadRow :=
  let (rows, inserted) := insertThreadRow rows { toThreadMetadataParams := params }
  match inserted, params.parentEventId with
  | true, some parentId =>
      let parentTs := params.parentEventCreatedAt.getD params.eventCreatedAt
      let rows := (insertThreadRow rows (stubRow parentTs parentId params.channelId)).1
      let rows := insertRootStub rows params parentId
      let rows := updateThreadRows rows parentId bumpReplies
      match params.rootEventId with
      | some rootId => updateThreadRows rows rootId bumpDescendants
      | none => rows
  | _, _ => rows

namespace ThreadStore

variable (s : ThreadStore)

/-- `get_thread_metadata_by_event`; the query takes any one row. -/
def getThreadMetadataByEvent (id : EventId) : Option ThreadRow :=
  s.threads.find? (·.eventId = id)

/-- `get_event_by_id_for_event_write`: soft-deleted events are not found. -/
def getEventById (id : EventId) : Option EventRow :=
  (s.events.lookup id).filter (!·.deleted)

/-- Insert an event and, when it is new, its thread metadata. Events whose
kind is never stored and timestamps no column holds are errors. -/
def insertEventWithThreadMetadata (event : Event) (channelId : Option Uuid)
    (params : Option ThreadMetadataParams) :
    Option (ThreadStore × Bool) :=
  if event.kind.toNat = kindAuth ∨ isEphemeral event.kind.toNat then none
  else
    match timestamptz (secsAsI64 event.createdAt), s.events.lookup event.id with
    | none, _ => none
    | some _, some _ => some (s, false)
    | some _, none =>
        let row := { event, channelId, inReplyTo := params.bind (·.parentEventId) }
        let threads := params.elim s.threads (insertThreadMetadata s.threads)
        some (⟨s.events.insert event.id row, threads⟩, true)

def dropReply (r : ThreadRow) : ThreadRow := { r with replyCount := r.replyCount - 1 }

def dropDescendant (r : ThreadRow) : ThreadRow :=
  { r with descendantCount := r.descendantCount - 1 }

/-- Soft-delete an event and take it out of the counters of the parent and
root its caller read. Deleting twice changes nothing. -/
def softDeleteEventAndUpdateThread (id : EventId)
    (parentEventId rootEventId : Option EventId) : ThreadStore :=
  match s.events.lookup id with
  | none => s
  | some row =>
      if row.event.kind.toNat = kindArtifactRemoval ∨ row.deleted then s
      else
        let threads := match parentEventId with
          | some parentId =>
              let rows := updateThreadRows s.threads parentId dropReply
              match rootEventId with
              | some rootId => updateThreadRows rows rootId dropDescendant
              | none => rows
          | none => s.threads
        ⟨s.events.insert id { row with deleted := true }, threads⟩

end ThreadStore

end Buzz.Db
