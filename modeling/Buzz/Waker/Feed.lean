import Buzz.Core.Artifact
import Buzz.Core.Kind
import Buzz.Db.ReplicaPages
import Buzz.Lib.Page
import Buzz.Relay.ThreadWindow
import Buzz.Waker.Cursor

/-!
# The waker's event feed

`buzz-waker/src/feed.rs`: what a relay frame means, the paged walk over the
stored backlog, and `step`, which folds a frame into the cursor and the walk.
A frame is what the transport made of a message: an event whose signature does
not verify is already told apart.

The second half is the walk at work: the relay answers every page the feed
asks for with rows and an EOSE, refuses it or closes the subscription, and the
loop of `wake_loop.rs` asks for the next page, or again after a refusal. Fan-out
never reaches the backfill subscription, because its filter names no channel and
the kinds it asks for are channel-scoped; whatever comes on the other
subscriptions comes between these frames.
-/

namespace Buzz.Waker.Feed

open Buzz.Lib
open Buzz.Relay.ThreadWindow (get asStr asArray asU64)

/-! ## Subscriptions and frames -/

def wakeBackfillSubscriptionId : List Char := "buzz-waker-backfill".toList

def wakeMembershipSubscriptionId : List Char := "buzz-waker-membership".toList

def wakeLiveSubscriptionPrefix : List Char := "buzz-waker-live-".toList

inductive WakeSubscription where
  | live (channelId : Uuid)
  | backfill
  | membership
deriving DecidableEq

def WakeSubscription.fromId (codec : Codec) (subscriptionId : List Char) :
    Option WakeSubscription :=
  if subscriptionId = wakeBackfillSubscriptionId then some .backfill
  else if subscriptionId = wakeMembershipSubscriptionId then some .membership
  else if wakeLiveSubscriptionPrefix <+: subscriptionId then
    let rest := subscriptionId.drop wakeLiveSubscriptionPrefix.length
    (codec.parseUuid (String.ofList rest)).map .live
  else none

inductive MembershipChangeKind where
  | added
  | removed
deriving DecidableEq

structure TriggerEvent where
  id : String
  author : String
  kind : Nat
  pTags : List String
  createdAt : Nat
deriving DecidableEq

inductive FeedSignal where
  | trigger (sub : WakeSubscription) (event : TriggerEvent)
  | unparsed (sub : WakeSubscription)
  | rejected (sub : WakeSubscription) (eventId reason : List Char)
  | replayComplete (sub : WakeSubscription)
  | closed (sub : WakeSubscription) (reason : List Char)
  | membershipChanged (channelId : Uuid) (change : MembershipChangeKind)
  | ignored

inductive FeedFrame where
  | event (subscriptionId : List Char) (event : Json)
  | eose (subscriptionId : List Char)
  | closed (subscriptionId message : List Char)
  | rejected (subscriptionId eventId reason : List Char)
  | other

/-! ## Reading an event -/

/-- `str::trim`. -/
def trim (text : List Char) : List Char :=
  ((text.dropWhile Core.isWhitespace).reverse.dropWhile Core.isWhitespace).reverse

/-- The value of a tag with this name. -/
def tagValue (name : String) (tag : Json) : Option (List Char) := do
  let parts ← asArray tag
  let first ← parts[0]?.bind asStr
  if first = name.toList then parts[1]?.bind asStr else none

/-- The kind, if it fits in a `u32`. -/
def eventKind (event : Json) : Option Nat := ((get event "kind").bind asU64).filter (· < 2 ^ 32)

def triggerEventFromJson (event : Json) : Option TriggerEvent := do
  let id := trim (← (get event "id").bind asStr)
  let author := trim (← (get event "pubkey").bind asStr)
  if id.isEmpty || author.isEmpty then none
  else
    let kind ← eventKind event
    let createdAt ← (get event "created_at").bind asU64
    let tags := ((get event "tags").bind asArray).getD []
    some
      { id := String.ofList id
        author := String.ofList author
        kind := kind
        pTags := (tags.filterMap (tagValue "p")).map String.ofList
        createdAt := createdAt }

def membershipChangeFromJson (codec : Codec) (event : Json) :
    Option (Uuid × MembershipChangeKind) := do
  let kind ← eventKind event
  let change ← if kind = Core.kindMemberAddedNotification then some .added
    else if kind = Core.kindMemberRemovedNotification then some .removed
    else none
  let tags ← (get event "tags").bind asArray
  let channelId ← tags.findSome? fun tag =>
    (tagValue "h" tag).bind fun value => codec.parseUuid (String.ofList value)
  some (channelId, change)

/-- The id of the subscription a frame came on. -/
def FeedFrame.subscriptionId : FeedFrame → Option (List Char)
  | .event subscriptionId _ | .eose subscriptionId | .closed subscriptionId _ |
    .rejected subscriptionId _ _ => some subscriptionId
  | .other => none

def FeedFrame.subscription (codec : Codec) (frame : FeedFrame) : Option WakeSubscription :=
  frame.subscriptionId.bind (WakeSubscription.fromId codec)

def classify (codec : Codec) (frame : FeedFrame) : FeedSignal :=
  match frame.subscription codec with
  | none => .ignored
  | some sub =>
      match frame with
      | .event _ event =>
          if sub = .membership then
            match membershipChangeFromJson codec event with
            | some (channelId, change) => .membershipChanged channelId change
            | none => .unparsed sub
          else
            match triggerEventFromJson event with
            | some event => .trigger sub event
            | none => .unparsed sub
      | .eose _ => .replayComplete sub
      | .closed _ message => .closed sub message
      | .rejected _ eventId reason => .rejected sub eventId reason
      | .other => .ignored

def isRateLimited (reason : List Char) : Bool := "rate-limited:".toList <+: reason

/-! ## The walk -/

/-- `REPLAY_PAGE_LIMIT`. -/
def replayPageLimit : Nat := 500

/-- `MAX_REPLAY_PAGES`. -/
def maxReplayPages : Nat := 64

/-- `MAX_BACKFILL_RATE_LIMIT_RETRIES`. -/
def maxBackfillRateLimitRetries : Nat := 5

/-- `saturating_add(1)` of a `u32`. -/
def saturatingSucc (n : Nat) : Nat := min (n + 1) (2 ^ 32 - 1)

structure PageTally where
  count : Nat := 0
  oldest : Option Nat := none
deriving DecidableEq

inductive ReplayStep where
  | backfill (since upTo : Nat)
  | complete (truncated : Bool)
deriving DecidableEq

inductive ReplayPhase where
  /-- With the inclusive bound of the standing page. -/
  | backfill (upTo : Option Nat)
  | done
deriving DecidableEq

structure WakeReplay where
  since : Nat
  phase : ReplayPhase
  page : PageTally
  pagesIssued : Nat
  rateLimitRetries : Nat
deriving DecidableEq

def WakeReplay.new (since : Nat) : WakeReplay where
  since := since
  phase := .backfill none
  page := {}
  pagesIssued := 1
  rateLimitRetries := 0

def PageTally.observe (page : PageTally) (createdAt : Option Nat) : PageTally where
  count := saturatingSucc page.count
  oldest := match createdAt, page.oldest with
    | some createdAt, some oldest => some (min oldest createdAt)
    | some createdAt, none => some createdAt
    | none, oldest => oldest

namespace WakeReplay

variable (replay : WakeReplay)

def backfillUntil : Option Nat :=
  match replay.phase with
  | .backfill upTo => upTo
  | .done => none

def isComplete : Bool := replay.phase == .done

def observeRow (sub : WakeSubscription) (createdAt : Option Nat) : WakeReplay :=
  match replay.phase, sub with
  | .backfill _, .backfill => { replay with page := replay.page.observe createdAt }
  | _, _ => replay

def finish (truncated : Bool) : WakeReplay × ReplayStep :=
  ({ replay with phase := .done }, .complete truncated)

/-- `on_eose` of the standing page. -/
def endPage : WakeReplay × ReplayStep :=
  let taken := { replay with page := {} }
  if replay.page.count < replayPageLimit then taken.finish false
  else
    match replay.page.oldest with
    | some oldest =>
        if replay.backfillUntil ≠ some oldest ∧ replay.pagesIssued < maxReplayPages then
          ({ taken with
              phase := .backfill (some oldest)
              pagesIssued := saturatingSucc replay.pagesIssued },
            .backfill replay.since oldest)
        else taken.finish true
    | none => taken.finish true

def onEose (sub : WakeSubscription) : WakeReplay × Option ReplayStep :=
  if sub ≠ .backfill ∨ replay.isComplete then (replay, none)
  else (replay.endPage.1, some replay.endPage.2)

/-- With how many refusals were retried before this one. -/
def onBackfillRateLimited : Option (WakeReplay × Nat) :=
  if replay.isComplete ∨ maxBackfillRateLimitRetries ≤ replay.rateLimitRetries then none
  else
    some ({ replay with page := {}, rateLimitRetries := replay.rateLimitRetries + 1 },
      replay.rateLimitRetries)

def onBackfillClosed : WakeReplay × Option ReplayStep :=
  match replay.phase with
  | .backfill _ => ((replay.finish true).1, some (replay.finish true).2)
  | .done => (replay, none)

end WakeReplay

/-! ## One frame -/

inductive FeedStep where
  | admitted (event : TriggerEvent) (undeliverable : Bool)
  | nothing
  | rejected (eventId reason : List Char)
  | backfill (since upTo : Nat)
  | replayComplete (truncated : Bool) (reason : Option (List Char))
  | backfillRateLimited (since : Nat) (upTo : Option Nat) (reason : List Char) (strikes : Nat)
  | closed (reason : List Char)
  | channelLiveClosed (channelId : Uuid) (reason : List Char)
  | channelMembershipChanged (channelId : Uuid) (added : Bool)

/-- The methods of the cursor that `step` calls. -/
inductive CursorCall where
  | admitEvent (eventId : String) (createdAt : Nat)
  | endReplay
deriving DecidableEq

structure Folded where
  cursor : CursorStore
  replay : WakeReplay
  /-- The method of the cursor that was called. -/
  call : Option CursorCall := none
  /-- What the walk answered. -/
  answer : Option ReplayStep := none
  result : Except CursorError FeedStep

/-- A step that leaves the cursor alone. -/
def fold (cursor : CursorStore) (replay : WakeReplay) (result : FeedStep) : Folded :=
  { cursor := cursor, replay := replay, result := .ok result }

def admitted (event : TriggerEvent) : Admission → FeedStep
  | .fresh => .admitted event false
  | .freshButUndeliverable _ _ => .admitted event true
  | .duplicate => .nothing

/-- What is done with the answer of the walk, on an EOSE or a close. -/
def conclude (durable : Bool) (cursor : CursorStore) (now : Nat) (reason : Option (List Char)) :
    WakeReplay × Option ReplayStep → Folded
  | (replay, some (.backfill since upTo)) =>
      { fold cursor replay (.backfill since upTo) with answer := some (.backfill since upTo) }
  | (replay, some (.complete truncated)) =>
      let reply := cursor.endReplay durable now
      { cursor := reply.store
        replay := replay
        call := some .endReplay
        answer := some (.complete truncated)
        result := reply.result.map fun _ => .replayComplete truncated reason }
  | (replay, none) => fold cursor replay .nothing

def step (codec : Codec) (durable : Bool) (cursor : CursorStore) (replay : WakeReplay)
    (frame : FeedFrame) (now : Nat) : Folded :=
  match classify codec frame with
  | .trigger sub event =>
      let reply := cursor.admitEvent durable event.id event.createdAt now
      { cursor := reply.store
        replay := replay.observeRow sub (some event.createdAt)
        call := some (.admitEvent event.id event.createdAt)
        result := reply.result.map (admitted event) }
  | .unparsed sub => fold cursor (replay.observeRow sub none) .nothing
  | .rejected sub eventId reason =>
      fold cursor (replay.observeRow sub none) (.rejected eventId reason)
  | .replayComplete sub => conclude durable cursor now none (replay.onEose sub)
  | .closed .membership reason => fold cursor replay (.closed reason)
  | .closed .backfill reason =>
      match if isRateLimited reason then replay.onBackfillRateLimited else none with
      | some (parked, strikes) =>
          fold cursor parked
            (.backfillRateLimited parked.since parked.backfillUntil reason strikes)
      | none => conclude durable cursor now (some reason) replay.onBackfillClosed
  | .closed (.live channelId) reason => fold cursor replay (.channelLiveClosed channelId reason)
  | .membershipChanged channelId change =>
      fold cursor replay (.channelMembershipChanged channelId (change = .added))
  | .ignored => fold cursor replay .nothing

/-! ## The relay and the loop -/

/-- A stored event that matches the filter. -/
structure StoredRow where
  createdAt : Nat
  id : EventId
deriving DecidableEq

def StoredRow.key (row : StoredRow) : Int × List UInt8 := (row.createdAt, row.id.bytes)

/-- What the transport makes of a row the relay sends. -/
inductive SentRow where
  | event (event : Json)
  | rejected (eventId reason : List Char)

/-- The content of the rows; what can be read of a row has the time it is stored under. -/
structure Contents where
  sent : StoredRow → SentRow
  dated : ∀ row event trigger, sent row = .event event →
    triggerEventFromJson event = some trigger → trigger.createdAt = row.createdAt

def Contents.frame (contents : Contents) (row : StoredRow) : FeedFrame :=
  match contents.sent row with
  | .event event => .event wakeBackfillSubscriptionId event
  | .rejected eventId reason => .rejected wakeBackfillSubscriptionId eventId reason

def newerFirst (a b : StoredRow) : Bool := Db.newestFirst a.key b.key

/-- In the range of a page. -/
def inRange (since : Nat) (upTo : Option Nat) (row : StoredRow) : Bool :=
  since ≤ row.createdAt && upTo.all (row.createdAt ≤ ·)

/-- What the relay answers a page with. -/
def backfillPage (stored : List StoredRow) (since : Nat) (upTo : Option Nat) : List StoredRow :=
  pageOf newerFirst replayPageLimit (stored.filter (inRange since upTo))

/-- What became of the last page that was asked for. -/
inductive Request where
  | asked (since : Nat) (upTo : Option Nat)
  /-- With the rows that are still to come, before the EOSE. -/
  | answering (rows : List StoredRow)
  /-- Refused, and waiting to be asked for again. -/
  | parked (since : Nat) (upTo : Option Nat)
  | gone

structure Backlog where
  cursor : CursorStore
  replay : WakeReplay
  stored : List StoredRow
  connected : Bool := true
  request : Request
  /-- The bounds of the pages asked for, without retries. -/
  pages : List (Option Nat)
  /-- The rows that were delivered on the backfill subscription. -/
  delivered : List StoredRow := []
  calls : List CursorCall := []
  /-- How the walk ended. -/
  ended : Option Bool := none

inductive BacklogMove where
  /-- The relay stores one more event. -/
  | publish (row : StoredRow)
  /-- The page goes on: the relay takes the request, sends the next row, or the EOSE after the
  last one; or the loop asks again for a parked page. -/
  | advance (now : Nat) (durable : Bool)
  /-- The relay closes the backfill subscription, with what it still had to send. -/
  | closeBackfill (reason : List Char) (now : Nat) (durable : Bool)
  /-- A frame that is not on the backfill subscription. -/
  | frame (frame : FeedFrame) (now : Nat) (durable : Bool)
  /-- The connection is lost. -/
  | disconnect

namespace Backlog

variable (codec : Codec) (contents : Contents) (s : Backlog)

/-- What the loop does with the answer of `step`. An error, and a close of the membership
watch, end the connection. -/
def apply (folded : Folded) : Backlog :=
  let folded' := { s with
    cursor := folded.cursor
    replay := folded.replay
    calls := s.calls ++ folded.call.toList
    ended := match folded.answer with
      | some (.complete truncated) => some truncated
      | _ => s.ended }
  match folded.result with
  | .ok (.backfill since upTo) =>
      { folded' with request := .asked since (some upTo), pages := s.pages ++ [some upTo] }
  | .ok (.backfillRateLimited since upTo _ _) => { folded' with request := .parked since upTo }
  | .ok (.replayComplete _ _) => { folded' with request := .gone }
  | .ok (.closed _) | .error _ => { folded' with connected := false }
  | .ok _ => folded'

def fold (frame : FeedFrame) (now : Nat) (durable : Bool) : Backlog :=
  s.apply (Feed.step codec durable s.cursor s.replay frame now)

def advance (now : Nat) (durable : Bool) : Backlog :=
  match s.request with
  | .asked since upTo => { s with request := .answering (backfillPage s.stored since upTo) }
  | .answering (row :: rows) =>
      { s with request := .answering rows, delivered := s.delivered ++ [row] }.fold codec
        (contents.frame row) now durable
  | .answering [] =>
      { s with request := .gone }.fold codec (.eose wakeBackfillSubscriptionId) now durable
  | .parked since upTo => { s with request := .asked since upTo }
  | .gone => s

def step (m : BacklogMove) : Backlog :=
  if !s.connected then s
  else
    match m with
    | .publish row => { s with stored := s.stored ++ [row] }
    | .advance now durable => s.advance codec contents now durable
    | .closeBackfill reason now durable =>
        { s with request := .gone }.fold codec (.closed wakeBackfillSubscriptionId reason) now
          durable
    | .frame frame now durable =>
        if frame.subscription codec = some .backfill then s else s.fold codec frame now durable
    | .disconnect => { s with connected := false }

end Backlog

/-- A connection that has just asked for its first page. -/
def backlog (codec : Codec) (contents : Contents) (cursor : CursorStore) (since : Nat)
    (stored : List StoredRow) : Machine Backlog BacklogMove where
  init :=
    { cursor := cursor
      replay := .new since
      stored := stored
      request := .asked since none
      pages := [none] }
  step := Backlog.step codec contents

end Buzz.Waker.Feed
