import Buzz.Core.Filter
import Buzz.Lib.HashMap

/-!
# The subscription registry

`buzz-relay/src/subscription.rs`. The registry keeps the authoritative map
from connection and subscription id to filters, community and routing scope,
and five indexes over it so that fan-out visits only the subscriptions an
event could match.

A `Bucket` names one bucket of one of the five indexes. The operations below
touch the indexes through it, one bucket at a time, which is also how the
source does: each `entry(..).or_default().push(..)` and each
`remove_index_entry` is one call on one key. The gauges the source updates
on the way are left out.
-/

namespace Buzz.Relay

open Buzz.Core Buzz.Lib

abbrev ConnId := Uuid
abbrev SubId := String

/-- Server-resolved live-routing scope of a subscription. -/
inductive SubscriptionScope where
  /-- Community-global events only. -/
  | global
  /-- Events from any of these authorized channels. -/
  | channels (ids : List Uuid)
deriving DecidableEq

namespace SubscriptionScope

def matchesChannel : SubscriptionScope → Option Uuid → Bool
  | .global, none => true
  | .channels ids, some ch => ids.contains ch
  | _, _ => false

def channelIds : SubscriptionScope → List Uuid
  | .global => []
  | .channels ids => ids

def isGlobal : SubscriptionScope → Bool
  | .global => true
  | .channels _ => false

end SubscriptionScope

structure SubEntry where
  filters : List Filter
  communityId : CommunityId
  scope : SubscriptionScope
deriving DecidableEq

/-- Index key combining a channel and an event kind. -/
structure IndexKey where
  channelId : Uuid
  kind : Kind
deriving DecidableEq

/-- A value that every filter of a global subscription is constrained to. -/
inductive GlobalSelector where
  | p (value : String)
  | author (pubkey : PublicKey)
deriving DecidableEq

/-- `kind` is `none` for a kindless filter, which matches the selector at any
kind. -/
structure GlobalSelectorIndexKey where
  communityId : CommunityId
  kind : Option Kind
  selector : GlobalSelector
deriving DecidableEq

/-- A removed subscription's routing scope. -/
structure RemovedSubscription where
  communityId : CommunityId
  scope : SubscriptionScope
deriving DecidableEq

/-- What removing a revoked channel did to one subscription. -/
structure ChannelSubscriptionUpdate where
  subId : SubId
  removed : Bool
deriving DecidableEq

structure SubscriptionRegistry where
  subs : HMap ConnId (HMap SubId SubEntry) := ∅
  channelKindIndex : HMap (CommunityId × IndexKey) (List (ConnId × SubId)) := ∅
  channelWildcardIndex : HMap (CommunityId × Uuid) (List (ConnId × SubId)) := ∅
  globalKindIndex : HMap (CommunityId × Kind) (List (ConnId × SubId)) := ∅
  globalSelectorIndex :
    HMap GlobalSelectorIndexKey (List (ConnId × SubId)) := ∅
  globalWildcardIndex : HMap CommunityId (List (ConnId × SubId)) := ∅

/-- One bucket: the index it belongs to and its key there. -/
inductive Bucket where
  | channelKind (communityId : CommunityId) (key : IndexKey)
  | channelWildcard (communityId : CommunityId) (channelId : Uuid)
  | globalKind (communityId : CommunityId) (kind : Kind)
  | globalSelector (key : GlobalSelectorIndexKey)
  | globalWildcard (communityId : CommunityId)
deriving DecidableEq

namespace SubscriptionRegistry

/-- The empty registry. -/
def new : SubscriptionRegistry := {}

/-! ## Single map calls -/

variable (r : SubscriptionRegistry)

/-- `index.get(key)`. -/
def bucket : Bucket → Option (List (ConnId × SubId))
  | .channelKind c key => r.channelKindIndex.lookup (c, key)
  | .channelWildcard c ch => r.channelWildcardIndex.lookup (c, ch)
  | .globalKind c kind => r.globalKindIndex.lookup (c, kind)
  | .globalSelector key => r.globalSelectorIndex.lookup key
  | .globalWildcard c => r.globalWildcardIndex.lookup c

def alterBucket (b : Bucket)
    (f : Option (List (ConnId × SubId)) → Option (List (ConnId × SubId))) :
    SubscriptionRegistry :=
  match b with
  | .channelKind c key =>
      { r with channelKindIndex := HMap.alter r.channelKindIndex (c, key) f }
  | .channelWildcard c ch =>
      { r with
        channelWildcardIndex := HMap.alter r.channelWildcardIndex (c, ch) f }
  | .globalKind c kind =>
      { r with globalKindIndex := HMap.alter r.globalKindIndex (c, kind) f }
  | .globalSelector key =>
      { r with globalSelectorIndex := HMap.alter r.globalSelectorIndex key f }
  | .globalWildcard c =>
      { r with globalWildcardIndex := HMap.alter r.globalWildcardIndex c f }

/-- `index.entry(key).or_default().push((conn_id, sub_id))`. -/
def pushBucket (b : Bucket) (pair : ConnId × SubId) :
    SubscriptionRegistry :=
  r.alterBucket b fun entries => some (entries.getD [] ++ [pair])

/-- The `retain` under `index.get_mut(key)`. -/
def retainBucket (b : Bucket) (pair : ConnId × SubId) : SubscriptionRegistry :=
  r.alterBucket b (Option.map (·.filter fun e => !(e.1 == pair.1 && e.2 == pair.2)))

/-- `index.remove_if(key, |_, entries| entries.is_empty())`. -/
def removeIfEmpty (b : Bucket) :
    SubscriptionRegistry :=
  r.alterBucket b (Option.filter (!·.isEmpty))

/-- The authoritative entry of a subscription. -/
def entry (conn : ConnId) (sub : SubId) :
    Option SubEntry :=
  (r.subs.lookup conn).bind (·.lookup sub)

/-- `subs.entry(conn_id).or_default().insert(sub_id, entry)`. -/
def insertSub (conn : ConnId) (sub : SubId) (e : SubEntry) :
    SubscriptionRegistry :=
  { r with
    subs := HMap.alter r.subs conn fun m => some ((m.getD ∅).insert sub e) }

/-- `conn_subs.remove(sub_id)` under `subs.get_mut(conn_id)`. -/
def eraseSub (conn : ConnId) (sub : SubId) :
    SubscriptionRegistry :=
  { r with subs := HMap.alter r.subs conn (Option.map (·.erase sub)) }

/-- `subs.remove(conn_id)`. -/
def eraseConn (conn : ConnId) :
    SubscriptionRegistry :=
  { r with subs := r.subs.erase conn }

end SubscriptionRegistry

/-! ## Choosing index keys -/

/-- `usize::MAX` on a 64-bit target. -/
def usizeMax : Nat := 2 ^ 64 - 1

def maxGlobalSelectorKeys : Nat := 4096

/-- The union of all `kinds` across filters, or `none` if any filter has no
`kinds` list. -/
def extractKindsFromFilters (filters : List Filter) : Option (List Kind) :=
  filters.foldlM (fun kinds f => f.kinds.map fun ks => ks.elems.foldl pushNew kinds)
    []

/-- The kinds one filter is keyed by. -/
def filterKinds (filter : Filter) : List (Option Kind) :=
  match filter.kinds with
  | some ks => ks.elems.map some
  | none => [none]

/-- The selectors one filter is keyed by. The outer `none` is the
`return None` of a filter that names neither `#p` values nor authors. -/
def filterSelectors (filter : Filter) : Option (List GlobalSelector) :=
  match filter.genericTags.lookup .p, filter.authors with
  | some values, _ => some (values.elems.map .p)
  | none, some authors => some (authors.elems.map .author)
  | none, none => none

/-- One round of the key loop: the keys so far and the key budget left. -/
def selectorKeysStep (communityId : CommunityId)
    (acc : List GlobalSelectorIndexKey × Nat) (filter : Filter) :
    Option (List GlobalSelectorIndexKey × Nat) :=
  -- `continue` on `kinds: []`, before the selectors are looked at.
  if filter.kinds.any (·.isEmpty) then some acc
  else
    let kinds := filterKinds filter
    match filterSelectors filter with
    | none => none
    | some selectors =>
        let cost := min (kinds.length * selectors.length) usizeMax
        if selectors.isEmpty then none
        else if acc.2 < cost then none
        else
          let keys := kinds.flatMap fun kind =>
            selectors.map fun selector => ⟨communityId, kind, selector⟩
          some (keys.foldl pushNew acc.1, acc.2 - cost)

/-- Index keys of a global subscription whose every filter is constrained to
`#p` values or to authors, within the budget; `none` sends it to the broader
kind and wildcard indexes. -/
def extractGlobalSelectorIndexKeys (communityId : CommunityId)
    (filters : List Filter) : Option (List GlobalSelectorIndexKey) :=
  (filters.foldlM (selectorKeysStep communityId)
    ([], maxGlobalSelectorKeys)).map (·.1)

/-- One round of the tag loop: a `p` tag with a value adds it. -/
def pushTagSelector (selectors : List GlobalSelector) (tag : Tag) :
    List GlobalSelector :=
  if tag.kindText ≠ "p" then selectors
  else match tag.content with
    | some value => pushNew selectors (.p value)
    | none => selectors

/-- The selectors a global event can be routed by: each distinct `p` value
and its author. -/
def eventGlobalSelectors (ev : StoredEvent) : List GlobalSelector :=
  ev.event.tags.foldl pushTagSelector [] ++ [.author ev.event.pubkey]

/-! The registration loop and the removal loop below each spell out the
choice of buckets; `indexKeys` is that choice as one list. -/

/-- The buckets a subscription belongs in. -/
def indexKeys (communityId : CommunityId) (filters : List Filter) :
    SubscriptionScope → List Bucket
  | .channels channelIds => channelIds.flatMap fun ch =>
      match extractKindsFromFilters filters with
      | none => [.channelWildcard communityId ch]
      | some kinds => kinds.map fun kind => .channelKind communityId ⟨ch, kind⟩
  | .global =>
      match extractGlobalSelectorIndexKeys communityId filters with
      | some keys => keys.map .globalSelector
      | none =>
          match extractKindsFromFilters filters with
          | none => [.globalWildcard communityId]
          | some kinds => kinds.map (.globalKind communityId)

def SubEntry.indexKeys (e : SubEntry) : List Bucket :=
  Relay.indexKeys e.communityId e.filters e.scope

/-- The buckets a fan-out of `ev` looks into, in order. -/
def eventBuckets (c : CommunityId) (ev : StoredEvent) : List Bucket :=
  match ev.channelId with
  | some ch => [.channelKind c ⟨ch, ev.event.kind⟩, .channelWildcard c ch]
  | none =>
      ((eventGlobalSelectors ev).flatMap fun selector =>
        [some ev.event.kind, none].map fun kind =>
          Bucket.globalSelector ⟨c, kind, selector⟩) ++
      [.globalKind c ev.event.kind, .globalWildcard c]

namespace SubscriptionRegistry

/-! ## Registration and removal -/

variable (r : SubscriptionRegistry)

/-- Take one subscription out of a bucket, then drop the bucket if it is
still empty. -/
def removeIndexEntry (b : Bucket) (pair : ConnId × SubId) :
    SubscriptionRegistry :=
  match r.bucket b with
  | none => r
  | some _ =>
      let r := r.retainBucket b pair
      if (r.bucket b).any (·.isEmpty) then r.removeIfEmpty b else r

def removeFromIndex (conn : ConnId) (sub : SubId) (filters : List Filter)
    (communityId : CommunityId) (scope : SubscriptionScope) :
    SubscriptionRegistry :=
  match scope with
  | .channels channelIds =>
      channelIds.foldl (fun r ch =>
        match extractKindsFromFilters filters with
        | none => r.removeIndexEntry (.channelWildcard communityId ch) (conn, sub)
        | some [] => r
        | some kinds => kinds.foldl (fun r kind =>
            r.removeIndexEntry (.channelKind communityId ⟨ch, kind⟩) (conn, sub)) r) r
  | .global =>
      match extractGlobalSelectorIndexKeys communityId filters with
      | some keys => keys.foldl (fun r key =>
          r.removeIndexEntry (.globalSelector key) (conn, sub)) r
      | none =>
          match extractKindsFromFilters filters with
          | none => r.removeIndexEntry (.globalWildcard communityId) (conn, sub)
          | some [] => r
          | some kinds => kinds.foldl (fun r kind =>
              r.removeIndexEntry (.globalKind communityId kind) (conn, sub)) r

/-- Remove a single subscription and clean up its index entries. -/
def removeSubscription (conn : ConnId) (sub : SubId) :
    SubscriptionRegistry × Option RemovedSubscription :=
  match r.entry conn sub with
  | none => (r, none)
  | some e =>
      ((r.eraseSub conn sub).removeFromIndex conn sub e.filters e.communityId e.scope,
        some ⟨e.communityId, e.scope⟩)

variable (communityId : CommunityId)

/-- Replaces any existing subscription with the same id. -/
def registerWithScope (conn : ConnId) (sub : SubId) (filters : List Filter)
    (scope : SubscriptionScope) :
    SubscriptionRegistry × Option RemovedSubscription :=
  let (r, removed) := r.removeSubscription conn sub
  let r := r.insertSub conn sub ⟨filters, communityId, scope⟩
  let r := match scope with
    | .channels channelIds =>
        channelIds.foldl (fun r ch =>
          match extractKindsFromFilters filters with
          | none => r.pushBucket (.channelWildcard communityId ch) (conn, sub)
          | some [] => r
          | some kinds => kinds.foldl (fun r kind =>
              r.pushBucket (.channelKind communityId ⟨ch, kind⟩) (conn, sub)) r) r
    | .global =>
        match extractGlobalSelectorIndexKeys communityId filters with
        | some keys => keys.foldl (fun r key =>
            r.pushBucket (.globalSelector key) (conn, sub)) r
        | none =>
            match extractKindsFromFilters filters with
            | none => r.pushBucket (.globalWildcard communityId) (conn, sub)
            | some [] => r
            | some kinds => kinds.foldl (fun r kind =>
                r.pushBucket (.globalKind communityId kind) (conn, sub)) r
  (r, removed)

def registerScoped (conn : ConnId) (sub : SubId) (filters : List Filter)
    (channelId : Option Uuid) :
    SubscriptionRegistry × Option RemovedSubscription :=
  let scope := (channelId.map fun ch => .channels [ch]).getD .global
  r.registerWithScope communityId conn sub filters scope

/-- Register a subscription under every authorized requested channel. -/
def registerChannelsScoped (conn : ConnId) (sub : SubId) (filters : List Filter)
    (channelIds : List Uuid) :
    SubscriptionRegistry × Option RemovedSubscription :=
  r.registerWithScope communityId conn sub filters (.channels channelIds)

/-- Remove all subscriptions of a connection. -/
def removeConnection (conn : ConnId) :
    SubscriptionRegistry × List RemovedSubscription :=
  match r.subs.lookup conn with
  | none => (r, [])
  | some connSubs =>
      (connSubs.entries.foldl (fun r s =>
          r.removeFromIndex conn s.1 s.2.filters s.2.communityId s.2.scope)
        (r.eraseConn conn),
        connSubs.entries.map fun s => ⟨s.2.communityId, s.2.scope⟩)

/-- The subscriptions of `conn` that a revoked channel reaches. -/
def channelSubIds (conn : ConnId) (channelId : Uuid) :
    List SubId :=
  ((r.subs.lookup conn).map fun connSubs =>
    (connSubs.entries.filter fun s =>
      s.2.communityId == communityId &&
        s.2.scope.channelIds.contains channelId).map (·.1)).getD []

/-- One round of the revocation loop, for a subscription whose scope is
`channels`: drop the channel from its scope and its index entries, and drop
the subscription when no channel is left. -/
def narrowSub (conn : ConnId) (channelId : Uuid) (sub : SubId) (e : SubEntry)
    (channelIds : List Uuid) :
    SubscriptionRegistry × ChannelSubscriptionUpdate :=
  let kept := channelIds.filter (· != channelId)
  let r := r.insertSub conn sub { e with scope := .channels kept }
  let r := r.removeFromIndex conn sub e.filters communityId (.channels [channelId])
  (if kept.isEmpty then r.eraseSub conn sub else r, ⟨sub, kept.isEmpty⟩)

/-- The loop over the collected ids. It ends early when the connection is
gone and skips an id that is gone or no longer channel-scoped. -/
def narrowSubs (communityId : CommunityId) (conn : ConnId) (channelId : Uuid) :
    SubscriptionRegistry → List SubId →
    SubscriptionRegistry × List ChannelSubscriptionUpdate
  | r, [] => (r, [])
  | r, sub :: rest =>
      match r.subs.lookup conn with
      | none => (r, [])
      | some connSubs =>
          match connSubs.lookup sub with
          | none => narrowSubs communityId conn channelId r rest
          | some e =>
              match e.scope with
              | .global => narrowSubs communityId conn channelId r rest
              | .channels channelIds =>
                  let (r, update) :=
                    r.narrowSub communityId conn channelId sub e channelIds
                  let (r, updates) := narrowSubs communityId conn channelId r rest
                  (r, update :: updates)

/-- Remove one revoked channel from every matching subscription of a
connection. -/
def removeChannelSubscriptionsScoped (conn : ConnId) (channelId : Uuid) :
    SubscriptionRegistry × List ChannelSubscriptionUpdate :=
  narrowSubs communityId conn channelId r
    (r.channelSubIds communityId conn channelId)

/-! ## Fan-out -/

/-- What `push_match` requires of the authoritative entry. -/
def entryMatches (ev : StoredEvent) (e : SubEntry) : Bool :=
  e.communityId == communityId && e.scope.matchesChannel ev.channelId &&
    filtersMatch e.filters ev

def pushMatch (ev : StoredEvent) (results : List (ConnId × SubId))
    (pair : ConnId × SubId) :
    List (ConnId × SubId) :=
  match r.entry pair.1 pair.2 with
  | some e => if entryMatches communityId ev e then pushNew results pair else results
  | none => results

/-- Match every candidate of one bucket. -/
def matchBucket (ev : StoredEvent) (results : List (ConnId × SubId))
    (b : Bucket) :
    List (ConnId × SubId) :=
  match r.bucket b with
  | some candidates => candidates.foldl (r.pushMatch communityId ev) results
  | none => results

/-- All pairs whose filters match the event in one community. -/
def fanOutScoped (ev : StoredEvent) :
    List (ConnId × SubId) :=
  match ev.channelId with
  | some ch =>
      let results := r.matchBucket communityId ev []
        (.channelKind communityId ⟨ch, ev.event.kind⟩)
      r.matchBucket communityId ev results (.channelWildcard communityId ch)
  | none =>
      let selectorKeys := (eventGlobalSelectors ev).flatMap fun selector =>
        [some ev.event.kind, none].map fun kind =>
          (⟨communityId, kind, selector⟩ : GlobalSelectorIndexKey)
      let results := selectorKeys.foldl (fun results key =>
        r.matchBucket communityId ev results (.globalSelector key)) []
      let results := r.matchBucket communityId ev results
        (.globalKind communityId ev.event.kind)
      r.matchBucket communityId ev results (.globalWildcard communityId)

end SubscriptionRegistry

/-- One call on the registry. -/
inductive RegistryOp where
  | registerScoped (communityId : CommunityId) (conn : ConnId) (sub : SubId)
      (filters : List Filter) (channelId : Option Uuid)
  | registerChannelsScoped (communityId : CommunityId) (conn : ConnId)
      (sub : SubId) (filters : List Filter) (channelIds : List Uuid)
  | removeSubscription (conn : ConnId) (sub : SubId)
  | removeChannelSubscriptionsScoped (communityId : CommunityId)
      (conn : ConnId) (channelId : Uuid)
  | removeConnection (conn : ConnId)
deriving DecidableEq

def RegistryOp.apply (r : SubscriptionRegistry) :
    RegistryOp → SubscriptionRegistry
  | .registerScoped c conn sub filters ch =>
      (r.registerScoped c conn sub filters ch).1
  | .registerChannelsScoped c conn sub filters chs =>
      (r.registerChannelsScoped c conn sub filters chs).1
  | .removeSubscription conn sub => (r.removeSubscription conn sub).1
  | .removeChannelSubscriptionsScoped c conn ch =>
      (r.removeChannelSubscriptionsScoped c conn ch).1
  | .removeConnection conn => (r.removeConnection conn).1

end Buzz.Relay
