import Buzz.Relay.QueryParams

/-!
# Stored events of a REQ

The history read of `handle_req`, after the subscription is registered: one
query a filter, then the rows through the matcher, the scope, the gates and
the deduplication, and EOSE. The run is one that stays the owner of its
subscription and pages without a `before_id` cursor.
-/

namespace Buzz.Relay

open Buzz.Core Buzz.Db

/-- The thread-reply route of `query_events_on`: the targets that are recorded
replies themselves, and the reads the route answers. -/
structure ThreadRoute where
  recordedReply : EventId → Bool
  read : EventQuery → EventId → Except DbError (List StoredEvent)

/-- `query_events_routed`. Only a top-level target takes the thread route. -/
def queryEventsRouted (route : ThreadRoute) (q : EventQuery) (db : EventStore) :
    Except DbError (List StoredEvent) :=
  match answerWithoutDb q with
  | some answer => answer
  | none =>
      match threadReplyRoot q with
      | some root =>
          if route.recordedReply root then queryEvents q db else route.read q root
      | none => queryEvents q db

/-- The filter's lone `#h` channel, else the one channel of the whole
request. -/
def perFilterChannel (parse : String → Option Uuid) (filters : List Filter)
    (filter : Filter) : Option Uuid :=
  (extractChannelIdFromFilter parse filter).or (extractChannelIdFromFilters parse filters)

/-- The channels a filter of the request may read. -/
def Reach.scope (reach : Reach) (parse : String → Option Uuid) (filter : Filter) : List Uuid :=
  filterChannelScope parse filter reach.accessible reach.namedOnly

/-- Phase 1: the query of one filter. -/
def reqQuery (parse : String → Option Uuid) (reach : Reach) (reader : PublicKey)
    (filters : List Filter) (filter : Filter) : EventQuery :=
  let channelId := perFilterChannel parse filters filter
  withSharedGate filter reader
    (applyChannelScopeToQuery parse (filterToQueryParams filter channelId) filter channelId
      (reach.scope parse filter))

inductive HistoryAnswer where
  /-- A failed read: what was sent, and the CLOSED reason. -/
  | closed (sent : List Event) (reason : String)
  /-- What was sent before EOSE. -/
  | eose (sent : List Event)
deriving DecidableEq

/-- `history_read_closed_reason`. -/
def historyReadClosedReason (e : DbError) : String :=
  if e.isStatementCancelled then "error: query timed out" else "error: database error"

/-- The tests a row passes before it is sent. -/
def deliverable (filter : Filter) (reader : PublicKey) (scope : List Uuid)
    (stored : StoredEvent) : Bool :=
  filtersMatch [filter] stored &&
    (stored.channelId.all fun ch => scope.contains ch) &&
    eventVisibleToReader stored.event reader

/-- One filter's rows. An id is sent once, and only an accepted row marks
it. -/
def deliverRows (accept : StoredEvent → Bool) : List StoredEvent → List Event → List Event
  | [], sent => sent
  | stored :: rest, sent =>
      if accept stored && !sent.any (fun e => e.id == stored.event.id) then
        deliverRows accept rest (sent ++ [stored.event])
      else deliverRows accept rest sent

/-- Phases 2 and 3, in filter order. -/
def reqHistory (parse : String → Option Uuid) (reach : Reach) (reader : PublicKey)
    (filters : List Filter) (route : ThreadRoute) (db : EventStore) :
    List Filter → List Event → HistoryAnswer
  | [], sent => .eose sent
  | filter :: rest, sent =>
      match queryEventsRouted route (reqQuery parse reach reader filters filter) db with
      | .error e => .closed sent (historyReadClosedReason e)
      | .ok events =>
          reqHistory parse reach reader filters route db rest
            (deliverRows (deliverable filter reader (reach.scope parse filter)) events sent)

end Buzz.Relay
