import Buzz.Db.EventQuery
import Buzz.Relay.ReadGate
import Mathlib.Algebra.GroupWithZero.Nat

/-!
# Which channels a request may read

`handlers/system_channels.rs` and the `#h` helpers of `handlers/req.rs`. The
implicit channels of a reader come from a cache; the channels a filter names
are confirmed against the database; a channel of a newer type is read only
by the filters that name it.

`parse` is `str::parse::<Uuid>` of the `uuid` crate. It reads several
spellings of one UUID, so the number of `#h` values and the number of
channels they name can differ.
-/

namespace Buzz.Relay

open Buzz.Core Buzz.Db

/-! ## Named-only channels -/

/-- `filter_is_group_state_only`: every kind is 39000–39003. -/
def filterIsGroupStateOnly (filter : Filter) : Bool :=
  nonEmptyAll filter.kinds fun k =>
    kindNip29GroupMetadata ≤ k.toNat && k.toNat ≤ kindNip29GroupRoles

/-- `filter_opts_in`: `#t:["system"]` or any `#P`, on group-state kinds. -/
def filterOptsIn (filter : Filter) : Bool :=
  filterIsGroupStateOnly filter &&
    ((filter.genericTags.lookup .t).any (·.contains "system") ||
      (filter.genericTags.lookup .upperP).any (!·.isEmpty))

/-- `NamedOnlyChannels`: the readable channels of the newer types, and the
system channels among them that an opt-in adds. -/
structure NamedOnlyChannels where
  ids : List Uuid := []
  system : List Uuid := []
deriving DecidableEq

namespace NamedOnlyChannels

/-- `insert_with_opt_in`. -/
def insertWithOptIn (c : NamedOnlyChannels) (id : Uuid) (channelType : String)
    (optIn : Bool) : NamedOnlyChannels :=
  if id ∈ c.ids then c
  else {
    ids := c.ids ++ [id]
    system := if optIn && channelType == "system" then c.system ++ [id] else c.system }

/-- `from_readable`, from rows of id, type and whether an opt-in adds it. -/
def fromReadable (rows : List (Uuid × String × Bool)) : NamedOnlyChannels :=
  rows.foldl (fun c (id, channelType, optIn) => c.insertWithOptIn id channelType optIn) {}

def retain (c : NamedOnlyChannels) (allowed : List Uuid) : NamedOnlyChannels where
  ids := c.ids.filter fun id => allowed.contains id
  system := c.system.filter fun id => allowed.contains id

end NamedOnlyChannels

section

variable (parse : String → Option Uuid)

/-- The `#h` values that name a channel, repeats included. -/
def parsedChannels (values : BTreeSet String) : List Uuid := values.elems.filterMap parse

/-- `named_channels`: by `#h`, and by `#d` on group-state kinds. -/
def namedChannels (filter : Filter) : List Uuid :=
  ((filter.genericTags.lookup .h).toList ++
    (if filterIsGroupStateOnly filter then (filter.genericTags.lookup .d).toList
      else [])).flatMap (parsedChannels parse)

/-- `filter_needs_named_only_channels`. -/
def filterNeedsNamedOnlyChannels (filter : Filter) (implicit : List Uuid) : Bool :=
  filterOptsIn filter || (namedChannels parse filter).any fun id => !implicit.contains id

/-- Keep the ids not seen before, in order: `filter(|id| seen.insert(*id))`. -/
def keepUnseen (seen : List Uuid) : List Uuid → List Uuid
  | [] => []
  | id :: rest =>
      if id ∈ seen then keepUnseen seen rest
      else id :: keepUnseen (id :: seen) rest

/-- `named_outside`. -/
def namedOutside (filters : List Filter) (implicit : List Uuid) : List Uuid :=
  keepUnseen implicit (filters.flatMap (namedChannels parse))

/-- `filter_channel_scope`: the channels `filter` may read. -/
def filterChannelScope (filter : Filter) (implicit : List Uuid)
    (namedOnly : NamedOnlyChannels) : List Uuid :=
  let candidates := namedChannels parse filter ++
    (if filterOptsIn filter then namedOnly.system else [])
  implicit ++ keepUnseen implicit (candidates.filter fun id => namedOnly.ids.contains id)

/-! ## Explicit channels -/

/-- `extract_channel_id_from_filter`, and the bridge's
`extract_channel_from_filter`: the channel of a lone `#h` value. -/
def extractChannelIdFromFilter (filter : Filter) : Option Uuid :=
  (filter.genericTags.lookup .h).bind fun values =>
    match values.elems with
    | [value] => parse value
    | _ => none

/-- `extract_channel_ids_from_filters`: the channels the `#h` values name,
without repeats, or `none` when a filter has no `#h`. -/
def extractChannelIdsFromFilters (filters : List Filter) : Option (List Uuid) :=
  (filters.mapM fun filter : Filter => filter.genericTags.lookup .h).map fun sets =>
    keepUnseen [] (sets.flatMap (parsedChannels parse))

def maxExplicitChannelValues : Nat := 2048

/-- The budget of `extract_channel_ids_from_filters_limited`, over raw
values. -/
def tooManyExplicitChannels (filters : List Filter) : Bool :=
  maxExplicitChannelValues <
    (filters.map fun filter => ((filter.genericTags.lookup .h).map (·.len)).getD 0).sum

/-- `extract_channel_id_from_filters`: the one channel that every filter
names. A second one, or a filter that names none, ends the search. -/
def extractChannelIdFromFilters (filters : List Filter) : Option Uuid :=
  go none filters
where
  values (found : Option Uuid) : List Uuid → Option (Option Uuid)
    | [] => some found
    | id :: rest =>
        if found.any (· != id) then none else values (some id) rest
  go (found : Option Uuid) : List Filter → Option Uuid
    | [] => found
    | filter :: rest =>
        let ids := ((filter.genericTags.lookup .h).map (parsedChannels parse)).getD []
        match values found ids with
        | none => none
        | some found => if ids.isEmpty then none else go found rest

end

/-! ## Access lookups -/

/-- What the caches and the membership tables answer for one reader. -/
structure Access where
  /-- `get_accessible_channel_ids_cached`. -/
  accessibleChannelIds : Except DbError (List Uuid)
  /-- `get_readable_named_only_channels`, given the named channels. -/
  readableNamedOnly : List Uuid → Except DbError (List (Uuid × String × Bool))
  /-- `membership_pairs`: the channels among these the reader is a member of. -/
  membershipPairs : List Uuid → Except DbError (List Uuid)
  /-- `named_only_channels_among`, with their types. -/
  namedOnlyAmong : List Uuid → Except DbError (List (Uuid × String))

/-- A request's channels: the implicit set and the named-only ones. -/
structure Reach where
  accessible : List Uuid
  namedOnly : NamedOnlyChannels

/-- Narrow to a token's channels, when it has any. -/
def retainToken (token : Option (List Uuid)) (ids : List Uuid) : List Uuid :=
  match token with
  | some allowed => ids.filter fun id => allowed.contains id
  | none => ids

/-- `readable_named_only_channels_for_filters`. -/
def readableNamedOnlyChannelsForFilters (parse : String → Option Uuid) (access : Access)
    (filters : List Filter) (implicit : List Uuid) (token : Option (List Uuid)) :
    Except DbError NamedOnlyChannels :=
  if filters.any fun filter => filterNeedsNamedOnlyChannels parse filter implicit then
    (access.readableNamedOnly (namedOutside parse filters implicit)).map fun rows =>
      match token with
      | some allowed => (NamedOnlyChannels.fromReadable rows).retain allowed
      | none => NamedOnlyChannels.fromReadable rows
  else .ok {}

/-- `channels_needing_membership_check`. -/
def channelsNeedingMembershipCheck (requested accessible namedOnly : List Uuid)
    (token : Option (List Uuid)) : List Uuid :=
  keepUnseen (accessible ++ namedOnly) (retainToken token requested)

/-- `confirm_requested_channel_access`: the confirmed channels join the
implicit ones. -/
def confirmRequestedChannelAccess (access : Access) (requested : List Uuid)
    (token : Option (List Uuid)) (reach : Reach) : Except DbError (List Uuid) :=
  let unconfirmed :=
    channelsNeedingMembershipCheck requested reach.accessible reach.namedOnly.ids token
  if unconfirmed.isEmpty then .ok reach.accessible
  else
    (access.membershipPairs unconfirmed).map fun members =>
      reach.accessible ++ unconfirmed.filter fun id => members.contains id

/-- `move_named_only_channels`. -/
def moveNamedOnlyChannels (implicit : List Uuid) (repairedFrom : Nat)
    (typed : List (Uuid × String)) (namedOnly : NamedOnlyChannels) : Reach :=
  if typed.isEmpty then ⟨implicit, namedOnly⟩
  else
    (implicit.drop repairedFrom).foldl
      (fun reach id =>
        match typed.find? fun row => row.1 == id with
        | some (_, channelType) =>
            { reach with namedOnly := reach.namedOnly.insertWithOptIn id channelType true }
        | none => { reach with accessible := reach.accessible ++ [id] })
      ⟨implicit.take repairedFrom, namedOnly⟩

/-- `keep_repaired_named_only_channels_named`. -/
def keepRepairedNamedOnlyChannelsNamed (access : Access) (implicit : List Uuid)
    (repairedFrom : Nat) (namedOnly : NamedOnlyChannels) : Except DbError Reach :=
  let repaired := implicit.drop repairedFrom
  if repaired.isEmpty then .ok ⟨implicit, namedOnly⟩
  else
    (access.namedOnlyAmong repaired).map fun typed =>
      moveNamedOnlyChannels implicit repairedFrom typed namedOnly

/-- The two calls every read makes for the channels it names. -/
def confirmNamed (access : Access) (requested : List Uuid) (token : Option (List Uuid))
    (reach : Reach) : Except DbError Reach :=
  (confirmRequestedChannelAccess access requested token reach).bind fun accessible =>
    keepRepairedNamedOnlyChannelsNamed access accessible reach.accessible.length
      reach.namedOnly

end Buzz.Relay
