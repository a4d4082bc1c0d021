import Buzz.Db.EventQuery
import Mathlib.Algebra.Group.Int.Defs
import Mathlib.Algebra.GroupWithZero.Nat

/-!
# Tables by commit, and the pages read from them

A writer's history is the list of its commits, and what a session sees is the
tables a prefix of that list makes. Below are the tables the covered reads use,
the writes that reach them, and the three reads themselves:
`get_channel_window_on`, `query_events_on` and `get_thread_replies_on`.

A row is an event with what its pages join to it: whether its `event_mentions`
rows are there, and its own `thread_metadata` row. An event's metadata comes in
with its insert. Later commits can delete the row, take the head off it, index
its mentions, or give it a depth-0 stub, and nothing else a page tests; no
statement of the source rewrites `created_at` or `channel_id`. Thread summaries,
participants and `has_more` are not modelled.

A point in time is a number of microseconds, an event's `created_at` whole
seconds.
-/

namespace Buzz.Db

open Buzz.Core

def micros (secs : Int) : Int := secs * 1000000

/-- The columns of an event's `thread_metadata` row that pages test. -/
structure ThreadPlace where
  rootEventId : Option EventId
  depth : Nat
  broadcast : Bool
deriving DecidableEq

/-- Ingest resolves a thread only for an event of a channel. -/
structure TableRow where
  stored : StoredRow
  /-- The `event_mentions` rows of the event are there. -/
  mentionsIndexed : Bool := true
  place : Option ThreadPlace := none
  inChannel : (place.any (·.rootEventId.isSome)) → stored.channelId.isSome
deriving DecidableEq

namespace TableRow

variable (row : TableRow)

def id : EventId := row.stored.event.id

def createdAt : Int := row.stored.columns.createdAt

/-- What pages sort by. -/
def key : Int × List UInt8 := (row.createdAt, row.id.bytes)

def softDelete : TableRow :=
  { row with stored := { row.stored with deleted := true } }

/-- The `artifact_heads` row moves on to another revision. -/
def supersede : TableRow :=
  { row with stored := { row.stored with isHead := false } }

def indexMentions : TableRow := { row with mentionsIndexed := true }

/-- The depth-0 stub a reply leaves for its parent or root; `ON CONFLICT DO
NOTHING`. -/
def stub : TableRow :=
  match h : row.place with
  | some _ => row
  | none =>
      { row with
          place := some { rootEventId := none, depth := 0, broadcast := false }
          inChannel := fun h' => by cases h' }

end TableRow

inductive Write where
  | insert (row : TableRow)
  | softDelete (id : EventId)
  /-- A row is deleted for good. -/
  | purge (id : EventId)
  | supersede (id : EventId)
  | indexMentions (id : EventId)
  | stub (id : EventId)
deriving DecidableEq

/-- The one row of the heartbeat table. -/
structure Beat where
  token : Nat
  epoch : Nat
deriving DecidableEq

structure Commit where
  /-- Which commit of the deployment's life this is. Not a column. -/
  serial : Nat
  writes : List Write := []
  /-- The heartbeat row, when the transaction updated it. -/
  beat : Option Beat := none
deriving DecidableEq

/-- The rows of one community. -/
abbrev Tables := List TableRow

namespace Tables

def onRow (t : Tables) (id : EventId) (f : TableRow → TableRow) : Tables :=
  t.map fun row => if row.id = id then f row else row

def apply (t : Tables) : Write → Tables
  | .insert row => if t.any (·.id = row.id) then t else t ++ [row]
  | .softDelete id => t.onRow id .softDelete
  | .purge id => t.filter (·.id ≠ id)
  | .supersede id => t.onRow id .supersede
  | .indexMentions id => t.onRow id .indexMentions
  | .stub id => t.onRow id .stub

def applyCommit (t : Tables) (c : Commit) : Tables := c.writes.foldl apply t

end Tables

/-- The tables a session that has replayed these commits sees. -/
def tablesOf (cs : List Commit) : Tables := cs.foldl Tables.applyCommit []

/-- The heartbeat row after these commits; migration 0026 inserts the first. -/
def heartbeat (cs : List Commit) : Beat :=
  ((cs.filterMap (·.beat)).getLast?).getD { token := 0, epoch := 0 }

/-! ## Pages -/

/-- The byte order of `bytea`. -/
def bytesLe (a b : List UInt8) : Bool := a ≤ b

/-- `ORDER BY created_at DESC, id ASC`. -/
def newestFirst (a b : Int × List UInt8) : Bool :=
  b.1 < a.1 || (a.1 == b.1 && bytesLe a.2 b.2)

/-- `ORDER BY created_at ASC, id ASC`. -/
def oldestFirst (a b : Int × List UInt8) : Bool :=
  a.1 < b.1 || (a.1 == b.1 && bytesLe a.2 b.2)

/-- A thread cursor: a time, and the id that breaks ties unless the cursor is a
legacy one. -/
abbrev ThreadCursor := Int × Option (List UInt8)

inductive Statement where
  | window (channelId : Uuid) (cursor : Option (Int × List UInt8)) (kinds : Option (List Nat))
  | events (q : EventQuery)
  /-- `build_thread_reply_sql`. -/
  | threadReply (q : EventQuery) (root : EventId)
  | thread (root : EventId) (depthLimit : Option Nat) (cursor : Option ThreadCursor)

/-- Top-level rows: depth 0, no metadata, or a broadcast reply. -/
def topLevel (place : Option ThreadPlace) : Bool :=
  place.all fun p => p.depth == 0 || (p.depth == 1 && p.broadcast)

/-- The keyset cursor of a window. -/
def windowCursorClause (cursor : Option (Int × List UInt8)) (row : TableRow) : Bool :=
  cursor.all fun (ts, id) =>
    micros row.createdAt < ts || (micros row.createdAt == ts && id < row.id.bytes)

def threadCursorClause (cursor : Option ThreadCursor) (row : TableRow) : Bool :=
  match cursor with
  | none => true
  | some (ts, some id) => ts < row.createdAt || (ts == row.createdAt && id < row.id.bytes)
  | some (ts, none) => ts < row.createdAt

/-- The `WHERE` of a statement, its joins included. -/
def Statement.selects : Statement → TableRow → Bool
  | .window channelId cursor kinds, row =>
      row.stored.columns.channelId == some channelId && !row.stored.deleted &&
        topLevel row.place && windowCursorClause cursor row &&
        kinds.all fun ks => ks.isEmpty || ks.contains row.stored.columns.kind
  | .events q, row =>
      queryEventsSql q row.stored && (q.pTagHex.isNone || row.mentionsIndexed)
  | .threadReply q root, row =>
      (row.place.any (·.rootEventId == some root)) &&
        (q.since.all fun s => s ≤ row.createdAt) && (q.until'.all fun u => row.createdAt ≤ u) &&
        !row.stored.deleted && pushEventFilters q row.stored
  | .thread root depthLimit cursor, row =>
      (row.place.any fun p => p.rootEventId == some root && depthLimit.all (p.depth ≤ ·)) &&
        !row.stored.deleted && threadCursorClause cursor row

def Statement.order : Statement → Int × List UInt8 → Int × List UInt8 → Bool
  | .thread .. => oldestFirst
  | _ => newestFirst

/-- The rows of a statement, in its order. -/
def Statement.rows (st : Statement) (t : Tables) : List TableRow :=
  (t.filter st.selects).mergeSort fun a b => st.order a.key b.key

/-- `LIMIT n`. -/
def Statement.page (st : Statement) (n : Nat) (t : Tables) : List TableRow :=
  (st.rows t).take n

/-- Whether the row becomes an answer. -/
def TableRow.reconstructs (row : TableRow) : Bool :=
  (rowToStoredEvent row.stored.columns).isSome

/-- `get_channel_window_on`. -/
def getChannelWindowOn (t : Tables) (channelId : Uuid) (limit : Nat)
    (cursor : Option (Int × List UInt8)) (kinds : Option (List Nat)) : List StoredEvent :=
  let dbRows := ((Statement.window channelId cursor kinds).page (limit + 1) t).take limit
  dbRows.filterMap fun row => rowToStoredEvent row.stored.columns

/-- `is_recorded_reply`. A stub says nothing, so the message's own markers
do. -/
def isRecordedReply (t : Tables) (id : EventId) : Bool :=
  (t.find? (·.id = id)).any fun row =>
    row.place.any fun p =>
      p.rootEventId.isSome || (parseThreadMarkers row.stored.columns.tags).resolve.isSome

/-- Which of its two statements `query_events_on` runs. -/
def queryStatement (q : EventQuery) (t : Tables) : Statement :=
  match threadReplyRoot q with
  | some root => if isRecordedReply t root then .events q else .threadReply q root
  | none => .events q

/-- What Postgres answers to a negative `LIMIT`. -/
def negativeLimit : DbError :=
  .sqlx false "error returned from database: LIMIT must not be negative"

/-- `query_events_on`, after `answer_without_db`. -/
def queryEventsOn (q : EventQuery) (t : Tables) : Except DbError (List StoredEvent) :=
  match bindError q with
  | some e => .error e
  | none =>
      if pageLimit q < 0 then .error negativeLimit
      else
        let page := (queryStatement q t).page (pageLimit q).toNat t
        .ok (page.filterMap fun row => rowToStoredEvent row.stored.columns)

/-! ## Thread pages -/

/-- Eight big-endian bytes, as `i64`. -/
def beI64 (bytes : List UInt8) : Int :=
  let n : Nat := (bytes.take 8).foldl (fun n b => n * 256 + b.toNat) 0
  if n < 2 ^ 63 then (n : Int) else (n : Int) - 2 ^ 64

/-- A cursor too short, or of a time no `DateTime` holds, is no cursor. -/
def decodeCursor (bytes : List UInt8) : Option ThreadCursor :=
  if 8 ≤ bytes.length then
    (fromTimestamp (beI64 bytes)).map fun ts =>
      (ts, if 8 < bytes.length then some (bytes.drop 8) else none)
  else none

def maxRawPages : Nat := 64

def refillLimit : DbError :=
  .invalidData "thread page exceeded the corrupt-row refill limit"

/-- The loop of `get_thread_replies_on`, with the rounds left. A raw page that
loses rows to reconstruction is filled up from where it ended. -/
def threadRounds (t : Tables) (root : EventId) (depthLimit : Option Nat) (limit : Nat) :
    Nat → Option ThreadCursor → List TableRow → Except DbError (List TableRow)
  | 0, _, _ => .error refillLimit
  | rounds + 1, cursor, replies =>
      let remaining := limit - replies.length
      if remaining = 0 then .ok replies
      -- `remaining as i32`.
      else if 2 ^ 31 ≤ remaining then .error negativeLimit
      else
        let rows := (Statement.thread root depthLimit cursor).page remaining t
        let cursor' := rows.getLast?.elim cursor fun last =>
          some (last.createdAt, some last.id.bytes)
        let replies' := replies ++ rows.filter (·.reconstructs)
        if rows.length < remaining ∨ replies'.length = limit then .ok replies'
        else threadRounds t root depthLimit limit rounds cursor' replies'

/-- `get_thread_replies_on`. -/
def getThreadRepliesOn (t : Tables) (root : EventId) (depthLimit : Option Nat) (limit : Nat)
    (cursor : Option (List UInt8)) : Except DbError (List TableRow) :=
  threadRounds t root depthLimit limit maxRawPages (cursor.bind decodeCursor) []

end Buzz.Db
