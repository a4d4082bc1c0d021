import Buzz.Core.Filter
import Buzz.Core.Nip10

/-!
# The event store's generic reads

`buzz-db/src/store/event.rs`: what an insert derives from an event, and the
dynamic SQL of `query_events` and `count_events`. A `push_*` function of the
source appends one `AND …` to the statement; here it is the predicate the
clause puts on a row.

Every read is bound to one community, so a store is the rows of one. Rows
carry the columns the insert wrote and the two facts about a row that change
later: `deleted_at`, and whether an `artifact_heads` row points at it.
`offset` is left out, no caller below sets it, and so is
`guard_channel_roster_event`, which can only refuse an insert.
-/

namespace Buzz.Db

open Buzz.Core

inductive DbError where
  | authEventRejected
  | ephemeralEventRejected (kind : Kind)
  | invalidTimestamp (secs : Int)
  | invalidData (message : String)
  /-- A driver error: whether the statement was cancelled, and its text. -/
  | sqlx (cancelled : Bool) (message : String)
deriving DecidableEq

def DbError.isStatementCancelled : DbError → Bool
  | .sqlx cancelled _ => cancelled
  | _ => false

def DbError.toText : DbError → String
  | .authEventRejected => "AUTH events (kind 22242) must not be stored"
  | .ephemeralEventRejected kind =>
      "ephemeral events (kind " ++ toString kind.toNat ++ ") must not be stored"
  | .invalidTimestamp secs => "invalid timestamp: " ++ toString secs
  | .invalidData message => "invalid data: " ++ message
  | .sqlx _ message => "database error: " ++ message

/-- What Postgres answers to a `timestamptz` before `minTimestamptz`. -/
def timestampOutOfRange : DbError :=
  .sqlx false "error returned from database: timestamp out of range"

/-- What it answers to a NUL character in `text` or `jsonb`. -/
def nulCharacter : DbError :=
  .sqlx false "error returned from database: unsupported Unicode escape sequence"

def hasNul (s : String) : Bool := s.toList.contains (Char.ofNat 0)

/-! ## Inserts -/

/-- `extract_d_tag`: the first `d` tag's value, `""` without one, and no
value at all outside NIP-33. -/
def extractDTag (event : Event) : Option String :=
  if isParameterizedReplaceable (eventKind event) then
    some ((event.tags.findSome? fun tag =>
      match tag.asSlice with
      | name :: value :: _ => if name = "d" then some value else none
      | _ => none).getD "")
  else none

/-- `char::is_ascii_hexdigit`. -/
def isAsciiHexdigit (c : Char) : Bool :=
  c.isDigit || ('a' ≤ c && c ≤ 'f') || ('A' ≤ c && c ≤ 'F')

/-- 64 hex digits of either case. The length is in bytes in the source, the
same number when every character is a digit. -/
def isPubkeyHex (s : String) : Bool :=
  s.toList.length == 64 && s.toList.all isAsciiHexdigit

/-- `str::to_ascii_lowercase`. -/
def toAsciiLowercase (s : String) : String := s.map Char.toLower

/-- `insert_mentions_in_transaction`: the `pubkey_hex` of the event's
`event_mentions` rows. An owner attribution is no mention, a malformed value
is skipped, and `ON CONFLICT DO NOTHING` keeps one row a key. -/
def mentionKeys (event : Event) : List String :=
  (event.tags.filterMap fun tag =>
    match tag.asSlice with
    | name :: value :: _ =>
        if name = "p" && !isWorkflowOwnerAttribution event tag &&
            isPubkeyHex value then
          some (toAsciiLowercase value)
        else none
    | _ => none).dedup

/-- The columns an insert writes, with the row's `event_mentions` keys. A
mention row repeats the event's `created_at` and `kind`. -/
structure Columns where
  id : EventId
  pubkey : PublicKey
  createdAt : Int
  kind : Nat
  tags : List Tag
  channelId : Option Uuid
  dTag : Option String
  mentions : List String
deriving DecidableEq

/-- `insert_event_on` with its mention rows. -/
def insertEvent (event : Event) (channelId : Option Uuid) :
    Except DbError Columns :=
  if eventKind event = kindAuth then .error .authEventRejected
  else if isEphemeral (eventKind event) then
    .error (.ephemeralEventRejected event.kind)
  else
    match fromTimestamp (secsAsI64 event.createdAt) with
    | none => .error (.invalidTimestamp (secsAsI64 event.createdAt))
    | some createdAt =>
        if createdAt < minTimestamptz then .error timestampOutOfRange
        else if event.tags.any fun t => t.asSlice.any hasNul then
          .error nulCharacter
        else
          .ok {
            id := event.id
            pubkey := event.pubkey
            createdAt := createdAt
            kind := eventKind event
            tags := event.tags
            channelId := channelId
            dTag := extractDTag event
            mentions := mentionKeys event }

/-- A stored event: the columns are the ones its insert wrote. -/
structure StoredRow where
  event : Event
  channelId : Option Uuid
  columns : Columns
  inserted : insertEvent event channelId = .ok columns
  /-- `deleted_at IS NOT NULL`. -/
  deleted : Bool := false
  /-- An `artifact_heads` row has this `event_id`. -/
  isHead : Bool := false
deriving DecidableEq

namespace StoredRow

/-- The stored event behind the row. -/
def stored (row : StoredRow) : StoredEvent := ⟨row.event, row.channelId⟩

end StoredRow

/-- The rows of one community. An event id commits to its `created_at`, so
the primary key is the id. -/
structure EventStore where
  rows : List StoredRow
  nodup : (rows.map fun row => row.event.id).Nodup

/-! ## Queries -/

/-- `EventQuery` without its community and `offset`. -/
structure EventQuery where
  channelId : Option Uuid := none
  kinds : Option (List Nat) := none
  pubkey : Option PublicKey := none
  since : Option Int := none
  until' : Option Int := none
  limit : Option Int := none
  pTagHex : Option String := none
  dTag : Option String := none
  dTags : Option (List String) := none
  beforeId : Option EventId := none
  globalOnly : Bool := false
  authors : Option (List PublicKey) := none
  ids : Option (List EventId) := none
  eTags : Option (List String) := none
  dTagValues : Option (List String) := none
  customTag : Option (String × String) := none
  tagValues : List (String × List String) := []
  channelIds : Option (List Uuid) := none
  channelIdsIncludeGlobal : Bool := true
  maxLimit : Option Int := none
  sharedGatedReader : Option PublicKey := none
  noticeChannelTypes : Option (List String) := none
  exactMatch : Bool := false
deriving DecidableEq

def defaultMaxPageLimit : Int := 1000

/-- NIP-AR revision and removal. -/
def artifactKinds : List Nat := [kindArtifact, kindArtifactRemoval]

/-- `push_exact_tag_match`: jsonb containment of `[[name, value]]`, which asks
only that one tag hold both strings somewhere, and then the positional test. -/
def exactTagMatch (name : String) (values : List String) (tags : List Tag) : Bool :=
  (values.any fun value =>
    tags.any fun t => t.asSlice.contains name && t.asSlice.contains value) &&
  tags.any fun t => t.name == name && t.content.any fun v => values.contains v

/-- `push_tag_value_filters`: an entry without values is skipped. -/
def tagValueFilters (entries : List (String × List String)) (tags : List Tag) : Bool :=
  entries.all fun (name, values) => values.isEmpty || exactTagMatch name values tags

variable (q : EventQuery)

/-- `push_channel_scope`. -/
def channelScope (channelId : Option Uuid) : Bool :=
  match q.channelIds with
  | none => true
  | some ids =>
      (q.channelIdsIncludeGlobal && channelId.isNone) ||
        channelId.any fun ch => ids.contains ch

/-- The channel clauses: `channel_id =`, `global_only`, then the scope. -/
def channelClauses (channelId : Option Uuid) : Bool :=
  (match q.channelId with
    | some ch => channelId == some ch
    | none => !q.globalOnly || channelId.isNone) &&
  channelScope q channelId

/-- The types `push_notice_visibility` binds; `none` when the query's kinds
cannot select a notice and the clause is skipped. -/
def noticeTypesPushed : Option (List String) :=
  if q.kinds.all fun ks => ks.any fun k => membershipNoticeKinds.contains k then
    some (q.noticeChannelTypes.getD legacyChannelTypes)
  else none

variable (row : Columns)

/-- `push_notice_visibility`. -/
def noticeVisibility : Bool :=
  match noticeTypesPushed q with
  | none => true
  | some visible =>
      !membershipNoticeKinds.contains row.kind ||
        exactTagMatch noticeChannelTypeTag visible row.tags ||
        ((visible.any fun t => legacyChannelTypes.contains t) &&
          !row.tags.any fun t => t.name == noticeChannelTypeTag)

/-- `push_artifact_d_tag_predicate`. -/
def artifactDTagPredicate (values : List String) (row : Columns) : Bool :=
  values.isEmpty || !artifactKinds.contains row.kind ||
    exactTagMatch "d" values row.tags

/-- The current-revision rule: explicit ids also read earlier revisions. -/
def currentRevision (row : StoredRow) : Bool :=
  q.ids.isSome || !(row.columns.kind == kindArtifact && !row.isHead)

/-- `kind IN`, `pubkey =`, `pubkey IN`, `id IN` and the exact `e` match; an
empty list adds no clause. -/
def selectors : Bool :=
  (q.kinds.all fun ks => ks.isEmpty || ks.contains row.kind) &&
  (q.pubkey.all fun pk => row.pubkey == pk) &&
  (q.authors.all fun as => as.isEmpty || as.contains row.pubkey) &&
  (q.ids.all fun ids => ids.isEmpty || ids.contains row.id) &&
  (q.eTags.all fun es => es.isEmpty || exactTagMatch "e" es row.tags)

/-- The artifact `d` predicate, the custom tag and the `tag_values`. -/
def tagClauses : Bool :=
  (q.dTagValues.all fun values => artifactDTagPredicate values row) &&
  (q.customTag.all fun (name, value) => exactTagMatch name [value] row.tags) &&
  tagValueFilters q.tagValues row.tags

/-- `d_tag =`, or `d_tag IN` when there is no single value. -/
def dTagColumn : Bool :=
  match q.dTag, q.dTags with
  | some d, _ => row.dTag == some d
  | none, some ds => ds.isEmpty || row.dTag.any fun d => ds.contains d
  | none, none => true

/-- `created_at <=`, or the composite keyset cursor. -/
def untilClause : Bool :=
  match q.until', q.beforeId with
  | none, _ => true
  | some u, none => row.createdAt ≤ u
  | some u, some bid =>
      row.createdAt < u || (row.createdAt == u && bid.bytes < row.id.bytes)

/-- The shared-gate clause of `push_event_filters`. -/
def sharedGate : Bool :=
  q.sharedGatedReader.all fun reader =>
    !sharedGatedKinds.contains row.kind || row.pubkey == reader ||
      exactTagMatch "shared" ["true"] row.tags

/-- `push_event_filters`. -/
def pushEventFilters (row : StoredRow) : Bool :=
  currentRevision q row &&
  noticeVisibility q row.columns &&
  channelClauses q row.columns.channelId &&
  selectors q row.columns &&
  tagClauses q row.columns &&
  (q.since.all fun s => s ≤ row.columns.createdAt) &&
  untilClause q row.columns &&
  dTagColumn q row.columns &&
  sharedGate q row.columns

/-- `push_mention_join` on the row's mentions: at most one has the key, so
the join never repeats a row. The time and kind tests are those of the row,
which the mention repeats. -/
def mentionJoin : Bool :=
  q.pTagHex.all fun p =>
    row.mentions.contains (toAsciiLowercase p) &&
    (q.since.all fun s => s ≤ row.createdAt) &&
    (q.until'.all fun u => row.createdAt ≤ u) &&
    (q.kinds.all fun ks => ks.isEmpty || ks.contains row.kind)

/-- The `WHERE` of `build_query_events_sql`. -/
def queryEventsSql (row : StoredRow) : Bool :=
  !row.deleted && mentionJoin q row.columns && pushEventFilters q row

/-- The `WHERE` of `count_events_sql`, which has neither the keyset cursor nor
the shared gate. -/
def countEventsSql (row : StoredRow) : Bool :=
  !row.deleted && mentionJoin q row.columns &&
  currentRevision q row &&
  noticeVisibility q row.columns &&
  channelClauses q row.columns.channelId &&
  selectors q row.columns &&
  tagClauses q row.columns &&
  (q.since.all fun s => s ≤ row.columns.createdAt) &&
  (q.until'.all fun u => row.columns.createdAt ≤ u) &&
  dTagColumn q row.columns

/-- The texts a statement binds. -/
def textParams : List String :=
  q.pTagHex.toList ++ q.dTag.toList ++ q.dTags.getD [] ++ q.eTags.getD [] ++
    q.dTagValues.getD [] ++
    (q.customTag.toList.flatMap fun (name, value) => [name, value]) ++
    (q.tagValues.flatMap fun (name, values) => name :: values) ++
    (noticeTypesPushed q).getD []

/-- Whether Postgres takes the statement's parameters. -/
def bindError : Option DbError :=
  if (textParams q).any hasNul then some nulCharacter
  else if q.since.any (· < minTimestamptz) || q.until'.any (· < minTimestamptz) then
    some timestampOutOfRange
  else none

/-- `count_events_on`. -/
def countEvents (db : EventStore) : Except DbError Nat :=
  if q.kinds.any (·.isEmpty) || q.authors.any (·.isEmpty) ||
      q.ids.any (·.isEmpty) || q.eTags.any (·.isEmpty) then .ok 0
  else
    match bindError q with
    | some e => .error e
    | none => .ok (db.rows.countP (countEventsSql q))

/-- `page_limit`. -/
def pageLimit : Int :=
  min (q.limit.getD 100) (q.maxLimit.getD defaultMaxPageLimit)

/-- `answer_without_db`. -/
def answerWithoutDb : Option (Except DbError (List StoredEvent)) :=
  if q.beforeId.isSome && q.until'.isNone then
    some (.error (.invalidData "before_id requires until to be set"))
  else if q.globalOnly && q.channelId.isSome then
    some (.error (.invalidData "global_only and channel_id are mutually exclusive"))
  else if pageLimit q = 0 || q.kinds.any (·.isEmpty) || q.authors.any (·.isEmpty) ||
      q.ids.any (·.isEmpty) || q.eTags.any (·.isEmpty) then
    some (.ok [])
  else none

/-- `ORDER BY created_at DESC, id ASC`. -/
def pageOrder (a b : StoredRow) : Bool :=
  b.columns.createdAt < a.columns.createdAt ||
    (a.columns.createdAt == b.columns.createdAt &&
      a.columns.id.bytes ≤ b.columns.id.bytes)

/-- `row_to_stored_event`: a time before 1970 is no `nostr` timestamp, and
such a row is left out of the answer. -/
def rowToStoredEvent : Option StoredEvent :=
  if row.createdAt < 0 then none
  else some {
    event := {
      id := row.id
      pubkey := row.pubkey
      createdAt := UInt64.ofNat row.createdAt.toNat
      kind := UInt16.ofNat row.kind
      tags := row.tags }
    channelId := row.channelId }

/-- Kinds whose replies can be read from `thread_metadata`. -/
def threadReplyKinds : List Nat := [kindStreamMessage, kindStreamMessageV2]

/-- `thread_reply_root`: the candidate root of a "replies to this message"
read. -/
def threadReplyRoot : Option EventId :=
  match q.eTags, q.kinds with
  | some [root], some kinds =>
      if q.channelId.isSome && !q.exactMatch && q.pTagHex.isNone && q.pubkey.isNone &&
          q.authors.isNone && q.ids.isNone && !kinds.isEmpty &&
          (kinds.all fun k => threadReplyKinds.contains k) && root.utf8ByteSize == 64 &&
          (root.toList.all fun c => c.isDigit || ('a' ≤ c && c ≤ 'f')) then
        Bytes32.ofHex root
      else none
  | _, _ => none

/-- The generic route of `query_events_on`, with `build_query_events_sql`. -/
def queryEvents (db : EventStore) :
    Except DbError (List StoredEvent) :=
  match answerWithoutDb q with
  | some answer => answer
  | none =>
      match bindError q with
      | some e => .error e
      | none =>
          if pageLimit q < 0 then
            .error (.sqlx false
              "error returned from database: LIMIT must not be negative")
          else
            let page := ((db.rows.filter (queryEventsSql q)).mergeSort pageOrder).take
              (pageLimit q).toNat
            .ok (page.filterMap fun row => rowToStoredEvent row.columns)

end Buzz.Db
