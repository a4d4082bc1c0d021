import Buzz.Core.Nip10
import Buzz.Db.Thread

/-!
# Thread ancestry at ingest

`handlers/ingest.rs` resolves a reply's parent, root and depth from reads that
run before the insert's transaction, on connections of their own. Each read
therefore sees the store as some earlier transaction left it, and not
necessarily the same one: `Reads` has one store for each.
-/

namespace Buzz.Relay

open Buzz.Core Buzz.Db Buzz.Lib

/-- What each lookup of a resolution sees. -/
structure Reads where
  parentEvent : ThreadStore
  parentMeta : ThreadStore
  rootEvent : ThreadStore

/-- `thread depth limit`. -/
def maxThreadDepth : Nat := 100

structure ReplyAncestry where
  parentEventId : EventId
  parentEventCreatedAt : Int
  rootEventId : EventId
  rootEventCreatedAt : Int
  depth : Nat
deriving DecidableEq

def ReplyAncestry.intoThreadMeta (a : ReplyAncestry) (id : EventId) (createdAt : Int)
    (channelId : Uuid) (broadcast : Bool) : ThreadMetadataParams where
  eventId := id
  eventCreatedAt := createdAt
  channelId := channelId
  parentEventId := some a.parentEventId
  parentEventCreatedAt := some a.parentEventCreatedAt
  rootEventId := some a.rootEventId
  rootEventCreatedAt := some a.rootEventCreatedAt
  depth := a.depth
  broadcast := broadcast

/-- `target_readable_in_channel`; `visible` is `event_visible_to_reader` for
the message's author. -/
def targetReadableInChannel (visible : Event → Bool) (channelId : Uuid)
    (target : EventRow) : Bool :=
  target.channelId == some channelId && visible target.event

/-- The time of the thread's root, or the parent's when the root is not
found. -/
def rootCreatedAt (reads : Reads) (root : EventId) (parentCreated : Int) : Int :=
  match reads.rootEvent.getEventById root with
  | some row => (fromTimestamp (secsAsI64 row.event.createdAt)).getD parentCreated
  | none => parentCreated

/-- The parent's own root, by its markers. -/
def markedRoot (parent : Event) (parentId : EventId) : EventId :=
  (((parseThreadMarkers parent.tags).resolve.map (·.1)).bind Bytes32.ofHex).getD parentId

/-- The root, its time and the reply's depth, for a parent without a row. -/
def deriveAncestryFromParentTags (reads : Reads) (parent : Event) (parentId : EventId)
    (parentCreated : Int) : EventId × Int × Nat :=
  let parentRoot := markedRoot parent parentId
  if parentRoot = parentId then (parentRoot, parentCreated, 1)
  else (parentRoot, rootCreatedAt reads parentRoot parentCreated, 2)

/-- The parent, if the author may reply to it, with its time. -/
def findParent (reads : Reads) (parentId : EventId) (channelId : Uuid)
    (visible : Event → Bool) (now : Int) : Except String (EventRow × Int) :=
  match (reads.parentEvent.getEventById parentId).filter
      (targetReadableInChannel visible channelId) with
  | none => .error "reply parent not found"
  | some row => .ok (row, (fromTimestamp (secsAsI64 row.event.createdAt)).getD now)

def decodeId (hex error : String) : Except String EventId :=
  (Bytes32.ofHex hex).elim (.error error) .ok

/-- The root, its time and the depth of a client's reply, whose own root tag
must name that root. -/
def clientAncestry (reads : Reads) (parent : Event) (parentId : EventId)
    (parentCreated : Int) (clientRoot : EventId) : Except String (EventId × Int × Nat) :=
  match reads.parentMeta.getThreadMetadataByEvent parentId with
  | some row =>
      let effectiveRoot := row.rootEventId.getD parentId
      if clientRoot ≠ effectiveRoot then .error "root tag does not match thread ancestry"
      else if maxThreadDepth < row.depth + 1 then .error "thread depth limit exceeded"
      else .ok (effectiveRoot, rootCreatedAt reads effectiveRoot parentCreated, row.depth + 1)
  | none =>
      let derived := deriveAncestryFromParentTags reads parent parentId parentCreated
      if clientRoot ≠ derived.1 then .error "root tag does not match thread ancestry"
      else .ok derived

/-- A client's reply: the ancestry its `e` tags claim, checked against the
stored thread. -/
def resolveNip10ThreadMeta (reads : Reads) (event : Event) (channelId : Uuid)
    (visible : Event → Bool) (now : Int) :
    Except String (Option ThreadMetadataParams) :=
  match (parseThreadMarkers event.tags).resolve with
  | none => .ok none
  | some (rootHex, parentHex) => do
      let parentId ← decodeId parentHex "invalid parent event ID hex"
      let (parent, parentCreated) ← findParent reads parentId channelId visible now
      let clientRoot ← decodeId rootHex "invalid root event ID hex"
      let (root, rootCreated, depth) ←
        clientAncestry reads parent.event parentId parentCreated clientRoot
      let broadcast := event.tags.any fun t =>
        t.name == "broadcast" && t.content == some "1"
      let createdAt := (fromTimestamp (secsAsI64 event.createdAt)).getD now
      let ancestry : ReplyAncestry := ⟨parentId, parentCreated, root, rootCreated, depth⟩
      return some (ancestry.intoThreadMeta event.id createdAt channelId broadcast)

/-- The ancestry of a relay-built reply, computed rather than checked. -/
def relayAncestry (reads : Reads) (parent : Event) (parentId : EventId)
    (parentCreated : Int) : EventId × Int × Nat :=
  match reads.parentMeta.getThreadMetadataByEvent parentId with
  | some row =>
      let effectiveRoot := row.rootEventId.getD parentId
      let rootTs := if effectiveRoot = parentId then parentCreated
        else rootCreatedAt reads effectiveRoot parentCreated
      (effectiveRoot, rootTs, row.depth + 1)
  | none => deriveAncestryFromParentTags reads parent parentId parentCreated

def resolveRelayReplyThreadMeta (reads : Reads) (parentHex : String) (channelId : Uuid)
    (visible : Event → Bool) (now : Int) : Except String ReplyAncestry := do
  let parentId ← decodeId parentHex "invalid parent event ID hex"
  let (parent, parentCreated) ← findParent reads parentId channelId visible now
  let (root, rootCreated, depth) := relayAncestry reads parent.event parentId parentCreated
  if maxThreadDepth < depth then .error "thread depth limit exceeded"
  else .ok ⟨parentId, parentCreated, root, rootCreated, depth⟩

/-! ## Runs -/

/-- `requires_h_channel_scope`, less the canvas (40100), whose revisions are
stored by a path of their own and never as messages. -/
def isChannelMessageKind (kind : Nat) : Bool :=
  [9, 40002, 40003, 40004, 40005, 40006, 40007, 40008, 45001, 45002, 45003,
    9000, 9001, 9002, 9005, 9008, 9022,
    48100, 48101, 48102, 48103, 48106].contains kind

/-- The store, and every store a transaction left before it. -/
structure ThreadRun where
  store : ThreadStore := {}
  past : List ThreadStore := []

namespace ThreadRun

/-- The stores a read may still see, oldest first. -/
def history (s : ThreadRun) : List ThreadStore := s.past ++ [s.store]

/-- The store a read that started at time `i` sees. -/
def readAt (s : ThreadRun) (i : Nat) : ThreadStore := s.history[i]?.getD s.store

def commit (s : ThreadRun) (store : ThreadStore) : ThreadRun := ⟨store, s.history⟩

end ThreadRun

/-- When each lookup of a resolution ran. -/
structure ReadTimes where
  parentEvent : Nat
  parentMeta : Nat
  rootEvent : Nat

def ReadTimes.reads (t : ReadTimes) (s : ThreadRun) : Reads :=
  ⟨s.readAt t.parentEvent, s.readAt t.parentMeta, s.readAt t.rootEvent⟩

inductive ThreadMove where
  /-- A client's message or reply. -/
  | ingest (event : Event) (channelId : Uuid) (visible : Event → Bool) (now : Int)
      (times : ReadTimes)
  /-- A workflow's message, or its reply to `replyTo`. The relay signs an
  event that carries the ancestry. -/
  | relay (sign : Option ReplyAncestry → Event) (replyTo : Option String)
      (channelId : Uuid) (visible : Event → Bool) (now : Int) (times : ReadTimes)
  /-- A deletion finds its target, then reads the target's thread. -/
  | delete (id : EventId) (targetTime metaTime : Nat)

namespace ThreadRun

/-- The parameters of a workflow message that is not a reply. -/
def topLevelParams (event : Event) (channelId : Uuid) (now : Int) :
    ThreadMetadataParams where
  eventId := event.id
  eventCreatedAt := (fromTimestamp (secsAsI64 event.createdAt)).getD now
  channelId := channelId
  parentEventId := none
  parentEventCreatedAt := none
  rootEventId := none
  rootEventCreatedAt := none
  depth := 0
  broadcast := false

/-- What a move hands to the insert, if it is accepted: the event and its
thread parameters. -/
def accepted (s : ThreadRun) : ThreadMove → Option (Event × Uuid × Option ThreadMetadataParams)
  | .ingest event channelId visible now times =>
      if isChannelMessageKind event.kind.toNat then
        match resolveNip10ThreadMeta (times.reads s) event channelId visible now with
        | .ok params => some (event, channelId, params)
        | .error _ => none
      else none
  | .relay sign none channelId _ now _ =>
      let event := sign none
      some (event, channelId, some (topLevelParams event channelId now))
  | .relay sign (some parentHex) channelId visible now times =>
      match resolveRelayReplyThreadMeta (times.reads s) parentHex channelId visible now with
      | .ok ancestry =>
          let event := sign (some ancestry)
          let createdAt := (fromTimestamp (secsAsI64 event.createdAt)).getD now
          some (event, channelId,
            some (ancestry.intoThreadMeta event.id createdAt channelId false))
      | .error _ => none
  | .delete _ _ _ => none

def step (s : ThreadRun) (m : ThreadMove) : ThreadRun :=
  match m with
  | .delete id targetTime metaTime =>
      if ((s.readAt targetTime).events.lookup id).isSome ∧ targetTime ≤ metaTime then
        let row := (s.readAt metaTime).getThreadMetadataByEvent id
        s.commit (s.store.softDeleteEventAndUpdateThread id
          (row.bind (·.parentEventId)) (row.bind (·.rootEventId)))
      else s
  | m =>
      match s.accepted m with
      | none => s
      | some (event, channelId, params) =>
          match s.store.insertEventWithThreadMetadata event (some channelId) params with
          | none => s
          | some (store, _) => s.commit store

def run (moves : List ThreadMove) : ThreadRun := moves.foldl step {}

end ThreadRun

end Buzz.Relay
