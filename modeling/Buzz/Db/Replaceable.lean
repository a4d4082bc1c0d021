import Buzz.Db.EventQuery
import Buzz.Lib.Machine
import Buzz.Lib.Shell
import Mathlib.Data.List.Lex
import Mathlib.Data.List.Sort
import Mathlib.Data.Prod.Lex

/-!
# Replaceable heads

`buzz-db/src/store/replaceable.rs`: the two writers that keep one live row for
a coordinate. `replace_addressable_event` keys on `(kind, pubkey, channel_id)`,
`replace_parameterized_event` on `(kind, pubkey, d_tag)`, and both take the
transaction-scoped advisory lock of their coordinate before they read.

A call is two steps here. Under the lock it selects the live head (and, for
NIP-RS read state, the watermark) and may answer at once; otherwise it writes,
and the supersede, the insert and the commit are one step, because no other
transaction sees what an open one wrote. A NIP-09 deletion takes no advisory
lock, so it may stand between the two steps. The state is the rows of one
coordinate: a lock key shared with another coordinate only makes calls wait.

`guard_channel_roster_event`, the mention index and a lost connection can only
fail a call; a failure before the commit is the `failed` of a step.
-/

namespace Buzz.Db

open Buzz.Core Buzz.Lib

/-- What an event shares with the ones it replaces. -/
inductive Place where
  /-- NIP-33: the `d` tag, across channels. -/
  | dTag (value : String)
  /-- NIP-16 and NIP-29 discovery state: the channel it is stored under. -/
  | channel (id : Option Uuid)
deriving DecidableEq

structure Coordinate where
  kind : Kind
  pubkey : PublicKey
  place : Place
deriving DecidableEq

/-! ## Rows -/

/-- What a replacement compares of a row. -/
structure Version where
  createdAt : Int
  id : EventId
deriving DecidableEq

/-- `created_at DESC, id ASC`, the greatest first. -/
def Version.key (v : Version) : Int ×ₗ (List Nat)ᵒᵈ :=
  toLex (v.createdAt, OrderDual.toDual (Shell.byteValues v.id.bytes))

/-- The comparison both writers make with what was accepted before. -/
def Version.dominated (incoming accepted : Version) : Bool :=
  decide (incoming.createdAt < accepted.createdAt) ||
    (decide (incoming.createdAt = accepted.createdAt) &&
      decide (Shell.byteValues accepted.id.bytes ≤ Shell.byteValues incoming.id.bytes))

/-- A row of `events` at the coordinate. -/
structure HeadRow where
  event : Event
  createdAt : Int
  channelId : Option Uuid
  dTag : Option String
  /-- `deleted_at IS NOT NULL`. -/
  deleted : Bool := false
deriving DecidableEq

namespace HeadRow

def version (row : HeadRow) : Version := ⟨row.createdAt, row.event.id⟩

def softDelete (row : HeadRow) : HeadRow := { row with deleted := true }

end HeadRow

/-- The coordinate's rows of `events` and its row of
`parameterized_event_watermarks`. -/
structure HeadTables where
  rows : List HeadRow
  watermark : Option Version
deriving DecidableEq

namespace HeadTables

def live (tables : HeadTables) : List HeadRow := tables.rows.filter fun row => !row.deleted

/-- `SELECT created_at, id … ORDER BY created_at DESC, id ASC LIMIT 1`. -/
def existing (tables : HeadTables) : Option Version :=
  ((tables.live.map HeadRow.version).insertionSort fun v w => w.key ≤ v.key).head?

end HeadTables

/-! ## What keeps no history -/

def kindReadState : Nat := 30078
def kindBookmarkSet : Nat := 30003

/-- `strip_prefix`. -/
def stripPrefix (lead text : List Char) : Option (List Char) :=
  if lead.isPrefixOf text then some (text.drop lead.length) else none

def isLowerHexdigit (c : Char) : Bool := isAsciiHexdigit c && !c.isUpper

/-- A read-state slot: `read-state:` and 32 lower-case hex digits. -/
def isReadStateSlot (dTag : String) : Bool :=
  (stripPrefix "read-state:".toList dTag.toList).any fun slot =>
    slot.length == 32 && slot.all isLowerHexdigit

def hasMeshStatusPrefix (dTag : String) : Bool :=
  (stripPrefix "buzz-mesh-member-status:".toList dTag.toList).isSome

/-- `is_nip_rs`. -/
def isNipRs (event : Event) (dTag : String) : Bool :=
  decide (eventKind event = kindReadState) &&
    (event.tags.countP fun tag => tag.asSlice.head? == some "d") == 1 &&
    (event.tags.any fun tag =>
      match tag.asSlice with
      | name :: value :: _ => name == "d" && value == dTag
      | _ => false) &&
    isReadStateSlot dTag &&
    (event.tags.countP fun tag => tag.asSlice == ["t", "read-state"]) == 1

/-- `is_buzz_mesh_status`. -/
def isBuzzMeshStatus (event : Event) (dTag : String) : Bool :=
  decide (eventKind event = kindBookmarkSet) && hasMeshStatusPrefix dTag &&
    event.tags.any fun tag => tag.asSlice == ["k", "buzz-mesh-status"]

/-- `retention_free_event_predicate!` on a row. `tags @> [["k", …]]` asks for
one tag that has both texts, wherever they stand in it. -/
def retentionFree (row : HeadRow) : Bool :=
  row.dTag.any fun dTag =>
    isNipRs row.event dTag ||
      (decide (eventKind row.event = kindBookmarkSet) && hasMeshStatusPrefix dTag &&
        row.event.tags.any fun tag =>
          tag.asSlice.contains "k" && tag.asSlice.contains "buzz-mesh-status")

/-! ## Calls -/

inductive ParameterizedReplaceStatus where
  | inserted
  | duplicate
  | superseded
  | revisionMissing
  | revisionMismatch
  | replayOnlyMiss
deriving DecidableEq

inductive ParameterizedReplacePrecondition where
  | unconditional
  | expectedRevision (id : List UInt8)
  | exactReplayOnly
deriving DecidableEq

/-- One call on the coordinate. `replace_parameterized_event` passes no
precondition, and `replace_addressable_event` has none. -/
structure ReplaceCall where
  event : Event
  channelId : Option Uuid := none
  precondition : ParameterizedReplacePrecondition := .unconditional
deriving DecidableEq

/-- What a call returns: a status from the parameterized writer, `was_inserted`
from the addressable one, or an error. -/
inductive ReplaceAnswer where
  | status (result : ParameterizedReplaceStatus)
  | wasInserted (was : Bool)
  | error
deriving DecidableEq

namespace ReplaceAnswer

/-- The call reported its event as inserted. -/
def inserted : ReplaceAnswer → Bool
  | .status result => result == .inserted
  | .wasInserted was => was
  | .error => false

/-- The call was put in order with the head: it neither failed nor was refused
for its precondition. -/
def ordered : ReplaceAnswer → Bool
  | .status result =>
      result == .inserted || result == .duplicate || result == .superseded
  | .wasInserted _ => true
  | .error => false

end ReplaceAnswer

/-- A requested revision against the live head. -/
def revisionStatus (precondition : ParameterizedReplacePrecondition) (existing : Option Version) :
    Option ParameterizedReplaceStatus :=
  match precondition with
  | .expectedRevision expected =>
      match existing with
      | none => some .revisionMissing
      | some head => if head.id.bytes = expected then none else some .revisionMismatch
  | _ => none

/-- The parameterized writer up to its savepoint: the status it returns with,
or `none` when it goes on to write. -/
def checkParameterized (call : ReplaceCall) (incoming : Version)
    (existing watermark : Option Version) : Option ParameterizedReplaceStatus :=
  if (existing.any fun head => head.id == incoming.id) ||
      (watermark.any fun mark => mark.id == incoming.id) then some .duplicate
  else if call.precondition = .exactReplayOnly then some .replayOnlyMiss
  else
    match revisionStatus call.precondition existing with
    | some status => some status
    | none =>
        if (existing.toList ++ watermark.toList).any fun accepted =>
            incoming.dominated accepted then some .superseded
        else none

/-- The addressable writer's stale-write check. -/
def checkAddressable (incoming : Version) (existing : Option Version) : Option Bool :=
  if existing.any fun head => incoming.dominated head then some false else none

/-- `INSERT … ON CONFLICT DO NOTHING` under the primary key
`(community_id, created_at, id)`; `none` when no row was affected. -/
def insertHead (rows : List HeadRow) (row : HeadRow) : Option (List HeadRow) :=
  if rows.any fun old => old.version == row.version then none else some (rows ++ [row])

/-- `UPDATE events SET deleted_at = NOW() WHERE … deleted_at IS NULL`. -/
def softDeleteLive (rows : List HeadRow) : List HeadRow :=
  rows.map fun row => if row.deleted then row else row.softDelete

/-- `DELETE FROM events WHERE … deleted_at IS NULL`. -/
def hardDeleteLive (rows : List HeadRow) : List HeadRow := rows.filter HeadRow.deleted

/-- The call that holds the coordinate's lock, with what it selected. -/
structure Replacing where
  call : ReplaceCall
  createdAt : Int
  existing : Option Version
deriving DecidableEq

def Replacing.incoming (r : Replacing) : Version := ⟨r.createdAt, r.call.event.id⟩

/-- The rows after the parameterized writer's supersede, which it skips when it
selected no head. -/
def supersede (rows : List HeadRow) (r : Replacing) (dTag : String) : List HeadRow :=
  if r.existing.isSome then
    if isNipRs r.call.event dTag || isBuzzMeshStatus r.call.event dTag then hardDeleteLive rows
    else softDeleteLive rows
  else rows

/-- The parameterized writer from its savepoint to the commit. -/
def writeParameterized (tables : HeadTables) (r : Replacing) (dTag : String) :
    HeadTables × ParameterizedReplaceStatus :=
  let event := r.call.event
  match insertHead (supersede tables.rows r dTag)
      ⟨event, r.createdAt, r.call.channelId, some dTag, false⟩ with
  -- Back to the savepoint: the supersede is undone with it.
  | none => (tables, .duplicate)
  | some rows =>
      (⟨rows, if isNipRs event dTag then some r.incoming else tables.watermark⟩, .inserted)

/-- The addressable writer from its supersede to the commit. -/
def writeAddressable (tables : HeadTables) (r : Replacing) (channelId : Option Uuid) :
    HeadTables × Bool :=
  let event := r.call.event
  match insertHead (softDeleteLive tables.rows)
      ⟨event, r.createdAt, channelId, extractDTag event, false⟩ with
  | none => (tables, false)
  | some rows => (⟨rows, tables.watermark⟩, true)

/-! ## Deletions -/

/-- Which live rows a deletion names: an event by its id, or the coordinate up
to the instant of the deletion request. -/
inductive HeadDeletion where
  | event (id : EventId)
  | coordinate (dTag : String) (createdAtOrBefore : Int)
deriving DecidableEq

def HeadDeletion.names (deletion : HeadDeletion) (row : HeadRow) : Bool :=
  match deletion with
  | .event id => row.event.id == id
  | .coordinate dTag createdAtOrBefore =>
      row.dTag == some dTag && decide (row.createdAt ≤ createdAtOrBefore)

def mayBeRetentionFree (kind : Nat) : Bool := kind == kindReadState || kind == kindBookmarkSet

/-- `soft_delete_event_and_update_thread` and `soft_delete_by_coordinate`: a
retention-free row goes for good, another one is marked. The watermark stays. -/
def deleteHead (tables : HeadTables) (deletion : HeadDeletion) : HeadTables :=
  let isPurged (row : HeadRow) :=
    mayBeRetentionFree (eventKind row.event) && deletion.names row && !row.deleted &&
      retentionFree row
  let isMarked (row : HeadRow) := deletion.names row && !row.deleted && !retentionFree row
  { tables with
    rows := (tables.rows.filter fun row => !isPurged row).map fun row =>
      if isMarked row then row.softDelete else row }

/-! ## Runs -/

structure HeadRun where
  tables : HeadTables := ⟨[], none⟩
  holder : Option Replacing := none
  /-- What each finished call was told, in order. -/
  answers : List (ReplaceCall × ReplaceAnswer) := []
deriving DecidableEq

inductive HeadMove where
  /-- A call takes the lock, selects, and answers if it need not write. -/
  | read (call : ReplaceCall) (failed : Bool)
  /-- The lock's holder writes and commits, or fails and rolls back. -/
  | write (failed : Bool)
  | delete (deletion : HeadDeletion)
deriving DecidableEq

namespace HeadRun

def answer (s : HeadRun) (call : ReplaceCall) (answer : ReplaceAnswer) : HeadRun :=
  { s with answers := s.answers ++ [(call, answer)] }

end HeadRun

namespace Coordinate

variable (c : Coordinate)

/-- The event is NIP-RS read state at this coordinate. -/
def readState (event : Event) : Bool :=
  match c.place with
  | .dTag dTag => isNipRs event dTag
  | .channel _ => false

/-- What the call selects, and what it answers without writing. -/
def check (tables : HeadTables) (call : ReplaceCall) (incoming : Version) : Option ReplaceAnswer :=
  match c.place with
  | .dTag dTag =>
      let watermark := if isNipRs call.event dTag then tables.watermark else none
      (checkParameterized call incoming tables.existing watermark).map .status
  | .channel _ => (checkAddressable incoming tables.existing).map .wasInserted

def writeHead (tables : HeadTables) (r : Replacing) : HeadTables × ReplaceAnswer :=
  match c.place with
  | .dTag dTag => (writeParameterized tables r dTag).map id .status
  | .channel channelId => (writeAddressable tables r channelId).map id .wasInserted

def read (s : HeadRun) (call : ReplaceCall) (failed : Bool) : HeadRun :=
  match fromTimestamp (secsAsI64 call.event.createdAt) with
  | none => s.answer call .error
  | some createdAt =>
      if failed then s.answer call .error
      else
        match s.holder with
        -- The lock is taken: the call waits.
        | some _ => s
        | none =>
            match c.check s.tables call ⟨createdAt, call.event.id⟩ with
            | some answer => s.answer call answer
            | none => { s with holder := some ⟨call, createdAt, s.tables.existing⟩ }

def write (s : HeadRun) (failed : Bool) : HeadRun :=
  match s.holder with
  | none => s
  | some r =>
      if failed then { s with holder := none }.answer r.call .error
      else
        let written := c.writeHead s.tables r
        { s with tables := written.1, holder := none }.answer r.call written.2

def stepHead (s : HeadRun) : HeadMove → HeadRun
  | .read call failed => c.read s call failed
  | .write failed => c.write s failed
  | .delete deletion => { s with tables := deleteHead s.tables deletion }

/-- The coordinate, from before its first event. -/
def machine : Machine HeadRun HeadMove := ⟨{}, c.stepHead⟩

end Coordinate

end Buzz.Db
