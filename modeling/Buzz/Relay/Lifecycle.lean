import Buzz.Relay.Subscription

/-!
# Subscription lifecycle

`handlers/close.rs`, the two claims of `handlers/req.rs`, the sync claim of
`handlers/artifact_sync.rs`, the eviction of `handlers/side_effects.rs` and
the topic refcounts of `buzz-pubsub`. Every change to a connection's
subscription state runs under that connection's `subscriptions` lock, so one
`Section` below is one critical section, taken whole.

What a section asks of the outside world is an argument of it: whether the
outbound queue accepts a frame (`queued`), and the channel ids a request was
authorized for. Those ids come from `extract_channel_ids_from_filters` or
`parse_sync`, which both drop repeats, so they arrive as a `BTreeSet`.

Frames go to a log. An entry records which request queued it, by its owner
token, and whether its subscription id was registered for fan-out at that
moment.
-/

namespace Buzz.Relay

open Buzz.Core Buzz.Lib

/-! ## Topic refcounts -/

inductive EventTopic where
  | global
  | channel (id : Uuid)
deriving DecidableEq

structure EventTopicKey where
  communityId : CommunityId
  topic : EventTopic
deriving DecidableEq

/-- `desired_topics`: how many subscriptions retain each topic. -/
abbrev DesiredTopics := HMap EventTopicKey Nat

namespace DesiredTopics

variable (desired : DesiredTopics)

def retainTopic (key : EventTopicKey) :
    DesiredTopics :=
  HMap.alter desired key fun count => some (count.getD 0 + 1)

/-- The entry goes away with its last retain; releasing a topic nobody
retains only logs a warning. -/
def releaseTopic (key : EventTopicKey) :
    DesiredTopics :=
  HMap.alter desired key fun count =>
    count.bind fun n => if n - 1 = 0 then none else some (n - 1)

def topicRefcount (key : EventTopicKey) : Nat :=
  (desired.lookup key).getD 0

/-- The topics of a scope, in the order the release loop takes them. -/
def scopeTopics (communityId : CommunityId) (scope : SubscriptionScope) :
    List EventTopicKey :=
  (if scope.isGlobal then [⟨communityId, .global⟩] else []) ++
    scope.channelIds.map fun ch => ⟨communityId, .channel ch⟩

def releaseScopeTopics (communityId : CommunityId) (scope : SubscriptionScope) :
    DesiredTopics :=
  (scopeTopics communityId scope).foldl releaseTopic desired

end DesiredTopics

/-! ## State -/

structure ConnectionState where
  /-- `conn.tenant.community()`. -/
  communityId : CommunityId
  /-- Subscription id to the owner token of the request that holds it. -/
  subscriptions : HMap SubId Nat := ∅
  cancelled : Bool := false

/-- What a request sends before it ends. -/
inductive HistoryFrame where
  | event
  | eose
deriving DecidableEq

inductive FrameKind where
  | history (frame : HistoryFrame)
  | closed
deriving DecidableEq

structure Frame where
  conn : ConnId
  sub : SubId
  kind : FrameKind
  /-- The owner token of the request that queued it, when one did. -/
  owner : Option Nat
  /-- Whether the id was registered for fan-out when the frame was queued. -/
  registered : Bool
deriving DecidableEq

structure AppState where
  connections : HMap ConnId ConnectionState := ∅
  subRegistry : SubscriptionRegistry := .new
  artifactSyncs : List (ConnId × SubId) := []
  desiredTopics : DesiredTopics := ∅
  nextOwner : Nat := 1
  frames : List Frame := []

def maxSubscriptions : Nat := 1024

namespace AppState

variable (s : AppState)

variable (conn : ConnId)

def setConn (c : ConnectionState) : AppState :=
  { s with connections := s.connections.insert conn c }

def cancelConn : AppState :=
  { s with
    connections := HMap.alter s.connections conn
      (Option.map fun c => { c with cancelled := true }) }

/-- Queue a frame, if the outbound queue takes it. -/
def send (sub : SubId) (kind : FrameKind) (owner : Option Nat) (queued : Bool) :
    AppState :=
  if queued then
    { s with
      frames := s.frames ++
        [⟨conn, sub, kind, owner, (s.subRegistry.entry conn sub).isSome⟩] }
  else s

/-- Queue a terminal `CLOSED`; a lost one cancels the connection. -/
def sendClosed (sub : SubId) (owner : Option Nat) (queued : Bool) : AppState :=
  let s := s.send conn sub .closed owner queued
  if queued then s else s.cancelConn conn

/-- `subs.remove(sub_id)` on the connection's map. -/
def dropToken (sub : SubId) : AppState :=
  { s with
    connections := HMap.alter s.connections conn
      (Option.map fun c => { c with subscriptions := c.subscriptions.erase sub }) }

/-- `subs.insert(sub_id, next_owner())`. -/
def putToken (sub : SubId) : AppState :=
  { s with
    connections := HMap.alter s.connections conn
      (Option.map fun c =>
        { c with subscriptions := c.subscriptions.insert sub s.nextOwner })
    nextOwner := s.nextOwner + 1 }

/-- `artifact_syncs.remove`. -/
def removeSync (sub : SubId) : AppState :=
  { s with artifactSyncs := s.artifactSyncs.filter (· != (conn, sub)) }

def releaseRemoved (communityId : CommunityId)
    (removed : Option RemovedSubscription) : AppState :=
  match removed with
  | some removed =>
      { s with
        desiredTopics :=
          s.desiredTopics.releaseScopeTopics communityId removed.scope }
  | none => s

/-- `sub_registry.remove_subscription`, then the release of its topics. -/
def unregister (communityId : CommunityId) (conn : ConnId) (sub : SubId) :
    AppState :=
  let (registry, removed) := s.subRegistry.removeSubscription conn sub
  { s with subRegistry := registry }.releaseRemoved communityId removed

/-- Drop an id from the map, the syncs, the fan-out index and its topic
retention. -/
def retireLocked (c : ConnectionState) (sub : SubId) :
    AppState :=
  ((s.dropToken conn sub).removeSync conn sub).unregister c.communityId conn sub

def retainTopics (keys : List EventTopicKey) : AppState :=
  { s with desiredTopics := keys.foldl DesiredTopics.retainTopic s.desiredTopics }

/-- The topics a claim retains: its channels, or the global one. -/
def claimTopics (communityId : CommunityId) :
    Option (BTreeSet Uuid) → List EventTopicKey
  | some ids => ids.elems.map fun ch => ⟨communityId, .channel ch⟩
  | none => [⟨communityId, .global⟩]

/-! ## Critical sections -/

/-- Claim an id for a live `REQ`. -/
def claimLiveSubscription (sub : SubId) (filters : List Filter)
    (channelIds : Option (BTreeSet Uuid)) : AppState :=
  match s.connections.lookup conn with
  | none => s
  | some c =>
      if c.cancelled then s
      else
        let s := (s.putToken conn sub).removeSync conn sub
        let (registry, replaced) := match channelIds with
          | some ids => s.subRegistry.registerChannelsScoped c.communityId conn sub
              filters ids.elems
          | none => s.subRegistry.registerScoped c.communityId conn sub filters none
        let s := { s with subRegistry := registry }
        let s := s.retainTopics (claimTopics c.communityId channelIds)
        s.releaseRemoved c.communityId replaced

/-- Claim an id for a one-shot search or huddle-liveness `REQ`. -/
def claimSearchSubscription (sub : SubId) :
    AppState :=
  match s.connections.lookup conn with
  | none => s
  | some c =>
      if c.cancelled then s else (s.retireLocked conn c sub).putToken conn sub

/-- Kinds a sync consumes from live fan-out. -/
def liveKinds : List Kind := [45010, 45011, 9005, 9001, 9002, 9008, 9022]

/-- The fan-out filter a sync registers. -/
def liveFilter (channels : BTreeSet Uuid) : Filter where
  kinds := some ⟨liveKinds, by decide⟩
  genericTags := AList.singleton .h (BTreeSet.ofList (channels.elems.map Uuid.toText))

/-- The subscription cap, as both `handle_req` and the sync claim test it. -/
def atCap (c : ConnectionState) (sub : SubId) : Bool :=
  (c.subscriptions.lookup sub).isNone &&
    maxSubscriptions ≤ c.subscriptions.keys.length

/-- The sync's own claim. The cap is tested in the same section. -/
def claimSync (sub : SubId) (channels : BTreeSet Uuid) (queued : Bool) :
    AppState :=
  match s.connections.lookup conn with
  | none => s
  | some c =>
      if c.cancelled then s
      else if atCap c sub then s.sendClosed conn sub none queued
      else
        let s := (s.retireLocked conn c sub).putToken conn sub
        let s := { s with artifactSyncs := (conn, sub) :: s.artifactSyncs }
        let s := { s with
          subRegistry := (s.subRegistry.registerChannelsScoped c.communityId conn
            sub [liveFilter channels] channels.elems).1 }
        s.retainTopics (claimTopics c.communityId (some channels))

/-- The cap test at the start of `handle_req`; it changes nothing else. -/
def checkCap (sub : SubId) (queued : Bool) :
    AppState :=
  match s.connections.lookup conn with
  | none => s
  | some c => if atCap c sub then s.sendClosed conn sub none queued else s

/-- Refuse a request before it claimed its id. -/
def refuse (sub : SubId) (queued : Bool) :
    AppState :=
  match s.connections.lookup conn with
  | none => s
  | some c => (s.retireLocked conn c sub).sendClosed conn sub none queued

/-- Client `CLOSE`. -/
def handleClose (sub : SubId) (queued : Bool) :
    AppState :=
  match s.connections.lookup conn with
  | none => s
  | some c => (s.retireLocked conn c sub).send conn sub .closed none queued

/-- Queue an `EVENT` or `EOSE` while `owner` still owns the id. -/
def sendIfOwner (sub : SubId) (owner : Nat) (frame : HistoryFrame)
    (queued : Bool) : AppState :=
  match s.connections.lookup conn with
  | none => s
  | some c =>
      if c.subscriptions.lookup sub = some owner then
        s.send conn sub (.history frame) (some owner) queued
      else s

/-- Retire the id if `owner` still owns it, then send `CLOSED` if there is a
reason to. -/
def closeIfOwner (sub : SubId) (owner : Nat) (closed queued : Bool) :
    AppState :=
  match s.connections.lookup conn with
  | none => s
  | some c =>
      if c.subscriptions.lookup sub ≠ some owner then s
      else
        let s := s.retireLocked conn c sub
        if closed then s.sendClosed conn sub (some owner) queued else s

/-- One round of the eviction loop. A sync cannot keep its other channels. -/
def evictUpdate (communityId : CommunityId) (channelId : Uuid) (conn : ConnId)
    (queued : SubId → Bool) (s : AppState) (update : ChannelSubscriptionUpdate) :
    AppState :=
  let s := { s with
    desiredTopics := s.desiredTopics.releaseTopic ⟨communityId, .channel channelId⟩ }
  let sync := s.artifactSyncs.contains (conn, update.subId)
  let s := s.removeSync conn update.subId
  let s := if sync && !update.removed then
      s.unregister communityId conn update.subId
    else s
  if update.removed || sync then
    (s.dropToken conn update.subId).sendClosed conn update.subId none
      (queued update.subId)
  else s

/-- Revoke a channel from a connection's subscriptions. -/
def evictConnChannelSubscriptions (communityId : CommunityId) (channelId : Uuid)
    (conn : ConnId) (queued : SubId → Bool) : AppState :=
  match s.connections.lookup conn with
  | none => s
  | some _ =>
      let (registry, updates) := s.subRegistry.removeChannelSubscriptionsScoped
        communityId conn channelId
      updates.foldl (evictUpdate communityId channelId conn queued)
        { s with subRegistry := registry }

/-- Final cleanup. The connection is cancelled before it runs. -/
def releaseConnectionSubscriptions : AppState :=
  match s.connections.lookup conn with
  | none => s
  | some c =>
      if !c.cancelled then s
      else
        let s := s.setConn conn { c with subscriptions := ∅ }
        let s := { s with
          artifactSyncs := s.artifactSyncs.filter fun key => key.1 != conn }
        let (registry, removed) := s.subRegistry.removeConnection conn
        removed.foldl (fun s removed => s.releaseRemoved c.communityId (some removed))
          { s with subRegistry := registry }

/-- A new connection under a fresh id. -/
def connect (communityId : CommunityId) :
    AppState :=
  match s.connections.lookup conn with
  | none => s.setConn conn { communityId }
  | some _ => s

end AppState

/-- Everything that runs under a lifecycle lock, plus connecting and
cancelling, which any task may do at any time. -/
inductive Section where
  | connect (conn : ConnId) (communityId : CommunityId)
  | cancel (conn : ConnId)
  | claimLive (conn : ConnId) (sub : SubId) (filters : List Filter)
      (channelIds : Option (BTreeSet Uuid))
  | claimSearch (conn : ConnId) (sub : SubId)
  | claimSync (conn : ConnId) (sub : SubId) (channels : BTreeSet Uuid)
      (queued : Bool)
  | checkCap (conn : ConnId) (sub : SubId) (queued : Bool)
  | refuse (conn : ConnId) (sub : SubId) (queued : Bool)
  | close (conn : ConnId) (sub : SubId) (queued : Bool)
  | sendIfOwner (conn : ConnId) (sub : SubId) (owner : Nat)
      (frame : HistoryFrame) (queued : Bool)
  | closeIfOwner (conn : ConnId) (sub : SubId) (owner : Nat)
      (closed queued : Bool)
  | evict (communityId : CommunityId) (channelId : Uuid) (conn : ConnId)
      (queued : SubId → Bool)
  | release (conn : ConnId)

def Section.apply (s : AppState) : Section → AppState
  | .connect conn communityId => s.connect conn communityId
  | .cancel conn => s.cancelConn conn
  | .claimLive conn sub filters ids => s.claimLiveSubscription conn sub filters ids
  | .claimSearch conn sub => s.claimSearchSubscription conn sub
  | .claimSync conn sub channels queued => s.claimSync conn sub channels queued
  | .checkCap conn sub queued => s.checkCap conn sub queued
  | .refuse conn sub queued => s.refuse conn sub queued
  | .close conn sub queued => s.handleClose conn sub queued
  | .sendIfOwner conn sub owner frame queued =>
      s.sendIfOwner conn sub owner frame queued
  | .closeIfOwner conn sub owner closed queued =>
      s.closeIfOwner conn sub owner closed queued
  | .evict communityId channelId conn queued =>
      s.evictConnChannelSubscriptions communityId channelId conn queued
  | .release conn => s.releaseConnectionSubscriptions conn

end Buzz.Relay
