import Buzz.Relay.QueryParams

/-!
# COUNT

`handlers/count.rs` and `count_member_events` of `api/bridge.rs`. Both count
filter by filter: work out the filter's channel scope, build its query, and
count in SQL when SQL is exact, else over a bounded page of candidates.

The two differ in how they confine a filter with `#h`. The handler takes the
single-channel route when the values *name* one channel, the bridge when there
*is* one value; `filter_to_query_params` goes by the number of values.
-/

namespace Buzz.Relay

open Buzz.Core Buzz.Db

inductive CountFailure where
  | read (e : DbError)
  /-- The fallback found more candidates than its budget. -/
  | tooBroad

/-- Whether `count_events` may count the filter: SQL states every constraint,
and no event it counts needs a per-event gate. -/
def countsInSql (filter : Filter) (reader : PublicKey) : Bool :=
  filterFullyPushable filter &&
    (!filterCanMatchAuthorOnlyKinds filter || authorIsSelf filter reader) &&
    !(filterCanMatchResultGatedKinds filter &&
      !resultGatedCountSafeForPushdown filter reader) &&
    !filterCanMatchSharedGatedKinds filter

/-- The post-filter of the fallback. -/
def countedEvent (filter : Filter) (reader : PublicKey) (stored : StoredEvent) : Bool :=
  filtersMatch [filter] stored && eventVisibleToReader stored.event reader

/-- One filter's count, its query scoped. -/
def countQuery (filter : Filter) (reader : PublicKey) (query : EventQuery)
    (db : EventStore) : Except CountFailure Nat :=
  if countsInSql filter reader then (countEvents query db).mapError .read
  else
    match queryEvents (prepareCountFallback query) db with
    | .error e => .error (.read e)
    | .ok events =>
        if countFallbackExceeded events.length then .error .tooBroad
        else .ok (events.countP (countedEvent filter reader))

variable (parse : String → Option Uuid)

/-- The query of a filter without `#h`: the whole scope and the channel-less
events. -/
def unnamedQuery (filter : Filter) (scope : List Uuid) :
    EventQuery :=
  { buildEventQueryFromFilter parse filter with channelIds := some scope, limit := none }

/-! ## The handler -/

inductive CountAnswer where
  | closed (reason : String)
  | count (total : Nat)
deriving DecidableEq

def databaseErrorClosed : String := "error: database error"

/-- `db_read_closed_reason`. -/
def dbReadClosedReason (e : DbError) : String :=
  if e.isStatementCancelled then "error: query timed out" else "error: " ++ e.toText

def CountFailure.closedReason : CountFailure → String
  | .read e => dbReadClosedReason e
  | .tooBroad => "restricted: count filter requires narrower constraints"

/-- The query `handle_count` builds for a filter that names `requested`
(`none` without `#h`); `none` when the loop skips the filter. -/
def handleCountQuery (filter : Filter) (reader : PublicKey)
    (requested : Option (List Uuid)) (scope : List Uuid) :
    Option EventQuery :=
  match requested with
  | none => some (withSharedGate filter reader (unnamedQuery parse filter scope))
  | some requested =>
      match requested.filter fun id => scope.contains id with
      | [] => none
      | authorized :: _ =>
          let channelId := if requested.length = 1 then some authorized else none
          some (withSharedGate filter reader
            (applyChannelScopeToQuery parse (buildEventQueryFromFilter parse filter)
              filter channelId scope))

/-- The access part of one round of the loop: the channels as confirmed for
this filter, and its scope. -/
def roundScope (access : Access) (token : Option (List Uuid)) (filter : Filter)
    (reach : Reach) :
    Except DbError (Reach × List Uuid) :=
  let confirmed :=
    match extractChannelIdsFromFilters parse [filter] with
    | some requested => confirmNamed access requested token reach
    | none => .ok reach
  confirmed.map fun reach =>
    (reach, filterChannelScope parse filter reach.accessible reach.namedOnly)

/-- The filter loop of `handle_count`. -/
def countLoop (parse : String → Option Uuid) (access : Access) (reader : PublicKey)
    (token : Option (List Uuid)) (db : EventStore) :
    List Filter → Reach → Nat → CountAnswer
  | [], _, total => .count total
  | filter :: rest, reach, total =>
      match roundScope parse access token filter reach with
      | .error _ => .closed databaseErrorClosed
      | .ok (reach, scope) =>
          match handleCountQuery parse filter reader
              (extractChannelIdsFromFilters parse [filter]) scope with
          | none => countLoop parse access reader token db rest reach total
          | some query =>
              match countQuery filter reader query db with
              | .error e => .closed e.closedReason
              | .ok n => countLoop parse access reader token db rest reach (total + n)

/-- The channels a request starts from. -/
def initialReach (access : Access) (filters : List Filter)
    (token : Option (List Uuid)) : Except DbError Reach :=
  access.accessibleChannelIds.bind fun ids =>
    (readableNamedOnlyChannelsForFilters parse access filters (retainToken token ids)
      token).map fun namedOnly => ⟨retainToken token ids, namedOnly⟩

/-- The first request-level refusal, if any. -/
def countRefusal (filters : List Filter) (reader : PublicKey) : Option String :=
  if !pGatedFiltersAuthorized filters reader then
    some "restricted: p-gated kinds require #p tag matching your pubkey"
  else if !engramFiltersAuthorized filters reader then
    some "restricted: agent-engram reads require authors=[self] or #p=[self]"
  else if !authorOnlyFiltersAuthorized filters reader then
    some "restricted: author-only kinds require authors=[self]"
  else none

/-- The session of an authenticated connection: its key, its token's channels
and whether the NIP-FI gate has expired. -/
structure CountSession where
  reader : PublicKey
  tokenChannelIds : Option (List Uuid) := none
  expired : Bool := false

/-- `handle_count`; `none` is a connection that is not authenticated. -/
def handleCount (access : Access) (session : Option CountSession)
    (filters : List Filter) (db : EventStore) : CountAnswer :=
  match session with
  | none => .closed "auth-required: not authenticated"
  | some session =>
      match countRefusal filters session.reader with
      | some reason => .closed reason
      | none =>
          if tooManyExplicitChannels filters then
            .closed "restricted: too many explicit channels"
          else
            match initialReach parse access filters session.tokenChannelIds with
            | .error _ => .closed databaseErrorClosed
            | .ok reach =>
                if session.expired then .closed "restricted: authorization denied"
                else
                  countLoop parse access session.reader session.tokenChannelIds db
                    filters reach 0

/-! ## The bridge -/

/-- A bridge filter with the `#buzz-channel` value of its raw JSON. -/
structure BridgeFilter where
  filter : Filter
  buzzChannel : Option String := none

inductive BridgeAnswer where
  | error (status : Nat) (message : String)
  | count (total : Nat)
deriving DecidableEq

def internalError : BridgeAnswer := .error 500 "internal server error"

/-- `db_read_error`, and the candidate budget. -/
def CountFailure.bridgeAnswer : CountFailure → BridgeAnswer
  | .read e => if e.isStatementCancelled then .error 503 "query timed out" else internalError
  | .tooBroad => .error 400 "count filter requires narrower constraints"

/-- The exact `buzz-channel` tag the filter asks for, if it does. -/
def withBuzzChannel (bf : BridgeFilter) (query : EventQuery) : EventQuery :=
  match bf.buzzChannel with
  | some channel => { query with customTag := some ("buzz-channel", channel) }
  | none => query

/-- The query of one bridge filter; `none` when the loop skips it. -/
def bridgeCountQuery (bf : BridgeFilter) (reader : PublicKey)
    (scope : List Uuid) : Option EventQuery :=
  match extractChannelIdsFromFilters parse [bf.filter] with
  | none =>
      some (withSharedGate bf.filter reader
        (withBuzzChannel bf (unnamedQuery parse bf.filter scope)))
  | some requested =>
      if requested.any fun id => scope.contains id then
        some (withSharedGate bf.filter reader (withBuzzChannel bf
          (applyChannelScopeToQuery parse (buildEventQueryFromFilter parse bf.filter)
            bf.filter (extractChannelIdFromFilter parse bf.filter) scope)))
      else none

/-- The filter loop of `count_member_events`. -/
def bridgeCountLoop (parse : String → Option Uuid) (reader : PublicKey) (reach : Reach)
    (db : EventStore) : List BridgeFilter → Nat → BridgeAnswer
  | [], total => .count total
  | bf :: rest, total =>
      match bridgeCountQuery parse bf reader
          (filterChannelScope parse bf.filter reach.accessible reach.namedOnly) with
      | none => bridgeCountLoop parse reader reach db rest total
      | some query =>
          match countQuery bf.filter reader query db with
          | .error e => e.bridgeAnswer
          | .ok n => bridgeCountLoop parse reader reach db rest (total + n)

/-- The channels of a bridge request, with `repair_requested_channel_access`
run once over all filters. -/
def bridgeReach (access : Access) (filters : List Filter) :
    Except DbError Reach :=
  (initialReach parse access filters none).bind fun reach =>
    confirmNamed access
      (filters.flatMap fun filter =>
        (extractChannelIdsFromFilters parse [filter]).getD [])
      none reach

/-- `count_member_events`, for a request `artifact::query` leaves to the
generic route. -/
def countMemberEvents (access : Access) (reader : PublicKey)
    (bfs : List BridgeFilter) (db : EventStore) : BridgeAnswer :=
  let filters := bfs.map (·.filter)
  if tooManyExplicitChannels filters then .error 400 "too many explicit channels"
  else
    match countRefusal filters reader with
    | some reason => .error 403 reason
    | none =>
        match bridgeReach parse access filters with
        | .error _ => internalError
        | .ok reach => bridgeCountLoop parse reader reach db bfs 0

end Buzz.Relay
