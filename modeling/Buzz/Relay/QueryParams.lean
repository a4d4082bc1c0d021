import Buzz.Relay.ChannelAccess
import Mathlib.Algebra.Group.Int.Defs
import Mathlib.Algebra.GroupWithZero.Nat

/-!
# From a filter to its database query

`filter_to_query_params` and its neighbours in `handlers/req.rs`: what of a
NIP-01 filter is pushed into SQL, and how the query is confined to the
channels the filter may read.
-/

namespace Buzz.Relay

open Buzz.Core Buzz.Db

/-! ## Pushed constraints -/

variable (filter : Filter)

/-- The kinds are all NIP-33 ones, and there is one. -/
def isNip33Only : Bool :=
  nonEmptyAll filter.kinds fun k => isParameterizedReplaceable k.toNat

/-- `filter_fully_pushable`. -/
def filterFullyPushable : Bool :=
  (filter.genericTags.entries.all fun entry =>
    match entry.1.toText with
    | "h" => true
    | "p" => !(1 < entry.2.len)
    | "d" => entry.2.isEmpty || isNip33Only filter
    | "e" => true
    | _ => entry.2.isEmpty) &&
  filter.search.isNone

/-- `group_state_tag_values`. -/
def groupStateTagValues : List (String × List String) :=
  if filterIsGroupStateOnly filter then
    [SingleLetterTag.t, SingleLetterTag.upperP].filterMap fun key =>
      (filter.genericTags.lookup key).bind fun values =>
        if values.isEmpty then none else some (key.toText, values.elems)
  else []

/-- A non-empty value set, as the list SQL binds. -/
def nonEmptyValues {α : Type} (set : Option (BTreeSet α)) : Option (List α) :=
  (set.filter (!·.isEmpty)).map (·.elems)

/-- `secs as i64` and `DateTime::from_timestamp`: a bound that chrono cannot
represent is no bound. -/
def timeBound (secs : Option UInt64) : Option Int :=
  secs.bind fun s => fromTimestamp (secsAsI64 s)

/-- `filter_to_query_params`. -/
def filterToQueryParams (channelId : Option Uuid) : EventQuery where
  channelId := channelId
  kinds := filter.kinds.map fun ks => ks.elems.map (·.toNat)
  -- One author goes to `pubkey`, several to `authors`, an empty set nowhere.
  pubkey := filter.authors.bind fun as =>
    match as.elems with
    | [a] => some a
    | _ => none
  authors := filter.authors.bind fun as =>
    match as.elems with
    | _ :: _ :: _ => some as.elems
    | _ => none
  ids := nonEmptyValues filter.ids
  since := timeBound filter.since
  until' := timeBound filter.until'
  limit := some ((filter.limit.map fun l =>
    min (Int.bmod l (2 ^ 64)) defaultMaxPageLimit).getD defaultMaxPageLimit)
  eTags := nonEmptyValues (filter.genericTags.lookup .e)
  pTagHex := (filter.genericTags.lookup .p).bind fun values =>
    match values.elems with
    | [v] => some v
    | _ => none
  dTag := if isNip33Only filter then
      (filter.genericTags.lookup .d).bind fun values =>
        match values.elems with
        | [v] => some v
        | _ => none
    else none
  dTags := if isNip33Only filter then
      (filter.genericTags.lookup .d).bind fun values =>
        match values.elems with
        | _ :: _ :: _ => some values.elems
        | _ => none
    else none
  dTagValues := if filterCanMatch filter artifactKinds then
      nonEmptyValues (filter.genericTags.lookup .d)
    else none
  tagValues := groupStateTagValues filter
  noticeChannelTypes := noticeChannelTypes filter
  exactMatch := (filter.genericTags.lookup .p).isSome

/-- `build_event_query_from_filter`. -/
def buildEventQueryFromFilter (parse : String → Option Uuid) (filter : Filter) : EventQuery :=
  filterToQueryParams filter (extractChannelIdFromFilter parse filter)

/-- `apply_channel_scope_to_query`. -/
def applyChannelScopeToQuery (parse : String → Option Uuid) (query : EventQuery)
    (filter : Filter) (channelId : Option Uuid) (accessible : List Uuid) : EventQuery :=
  match channelId with
  | some _ => query
  | none =>
      match filter.genericTags.lookup .h with
      | some values =>
          { query with
            channelIds := some ((parsedChannels parse values).filter fun id =>
              accessible.contains id)
            channelIdsIncludeGlobal := false }
      | none => { query with channelIds := some accessible }

/-- `shared_gated_reader`, set when the filter can match a shared-gated kind. -/
def withSharedGate (reader : PublicKey) (query : EventQuery) : EventQuery :=
  if filterCanMatchSharedGatedKinds filter then
    { query with sharedGatedReader := some reader }
  else query

def countFallbackCandidateLimit : Nat := 5000

/-- `prepare_count_fallback`. -/
def prepareCountFallback (query : EventQuery) : EventQuery :=
  { query with
    limit := some (countFallbackCandidateLimit + 1)
    maxLimit := some (countFallbackCandidateLimit + 1)
    exactMatch := true }

/-- `count_fallback_exceeded`. -/
def countFallbackExceeded (candidates : Nat) : Bool := countFallbackCandidateLimit < candidates

end Buzz.Relay
