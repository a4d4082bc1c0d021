import Buzz.Core.Event
import Buzz.Lib.HashMap
import Buzz.Lib.Machine
import Mathlib.Data.List.Sort

/-!
# Mesh membership under gossip

`buzz-relay-mesh/src/membership.rs` with the messages of `gossip.rs`: every
runtime keeps its own record and a table of the others', refreshes its own on
every gossip tick, and learns the rest from digests and deltas. `peers()`,
`has_peer` and `peer_has_capability` go by `is_live`; digests, deltas and dials
go by `is_expired` alone.

The clocks are synchronized, so the mesh has one. A sent message stays in
flight for good: it may arrive late, more than once, after a later one, or
never. A delta's records are applied one at a time, each under its own lock,
so they arrive one at a time here.

Phi accrual, the counters and a record's `load` decide nothing about what a
table holds or advertises and are left out; so is the ready registry, whose
seeds are no gossip.
-/

namespace Buzz.Mesh

open Buzz.Lib

abbrev RuntimeId := Bytes32

structure GossipRecord where
  runtimeId : RuntimeId
  endpointAddrs : List String
  protoVersion : UInt16
  draining : Bool
  capabilities : List String
  version : Nat
  heartbeatMillis : Nat
deriving DecidableEq

/-- `GossipRecord::new`. -/
def GossipRecord.new (runtimeId : RuntimeId) (endpointAddrs : List String) (protoVersion : UInt16)
    (nowMillis : Nat) : GossipRecord where
  runtimeId := runtimeId
  endpointAddrs := endpointAddrs
  protoVersion := protoVersion
  draining := false
  capabilities := []
  version := 1
  heartbeatMillis := nowMillis

structure GossipDigestEntry where
  runtimeId : RuntimeId
  version : Nat
deriving DecidableEq

inductive GossipMessage where
  | digest (entries : List GossipDigestEntry)
  | delta (records : List GossipRecord)
deriving DecidableEq

inductive ConnectionState where
  | disconnected
  | connecting
  | connected
  | suspect
deriving DecidableEq

structure PeerState where
  record : GossipRecord
  connectionState : ConnectionState
deriving DecidableEq

structure MeshMembership where
  localRuntimeId : RuntimeId
  localRecord : GossipRecord
  peers : HMap RuntimeId PeerState
  /-- `peer_record_ttl`, a `Duration` in nanoseconds. -/
  peerRecordTtl : Nat

/-- `saturating_add(1)` on a `u64`. -/
def nextVersion (version : Nat) : Nat := min (version + 1) (2 ^ 64 - 1)

/-- A closure given to `update_local`. The record's identity and version are
the membership's own to set, and no caller writes them. -/
structure LocalUpdate where
  apply : GossipRecord → GossipRecord
  runtimeId : ∀ record, (apply record).runtimeId = record.runtimeId
  version : ∀ record, (apply record).version = record.version

namespace MeshMembership

variable (n : MeshMembership)

/-- `MeshMembership::new` with its TTL. -/
def new (localRecord : GossipRecord) (peerRecordTtl : Nat) : MeshMembership where
  localRuntimeId := localRecord.runtimeId
  localRecord := localRecord
  peers := ∅
  peerRecordTtl := peerRecordTtl

/-- `is_expired`: the age in milliseconds against the TTL. Subtraction stops
at zero, as in the source. -/
def isExpired (record : GossipRecord) (nowMillis : Nat) : Bool :=
  n.peerRecordTtl < (nowMillis - record.heartbeatMillis) * 1000000

def isLive (peer : PeerState) (nowMillis : Nat) : Bool :=
  peer.connectionState == .connected || !n.isExpired peer.record nowMillis

def applyGossipRecord (record : GossipRecord) (nowMillis : Nat) : MeshMembership × Bool :=
  if record.runtimeId = n.localRuntimeId then (n, false)
  else if n.isExpired record nowMillis then (n, false)
  else
    match n.peers.lookup record.runtimeId with
    | some peer =>
        if n.isLive peer nowMillis && decide (record.version ≤ peer.record.version) then (n, false)
        else
          ({ n with peers := n.peers.insert record.runtimeId { peer with record := record } }, true)
    | none =>
        ({ n with peers := n.peers.insert record.runtimeId ⟨record, .disconnected⟩ }, true)

def dialRecord (runtimeId : RuntimeId) (nowMillis : Nat) : Option GossipRecord :=
  ((n.peers.lookup runtimeId).filter fun peer =>
    !peer.record.draining && !n.isExpired peer.record nowMillis).map PeerState.record

/-- One peer under `sync_connection_states`. -/
def syncPeer (connected : RuntimeId → Bool) (runtimeId : RuntimeId) (peer : PeerState) :
    PeerState :=
  if connected runtimeId then { peer with connectionState := .connected }
  else if peer.connectionState = .connected then { peer with connectionState := .disconnected }
  else peer

def syncConnectionStates (connected : RuntimeId → Bool) : MeshMembership :=
  { n with peers := HMap.mapVals n.peers (syncPeer connected) }

def markConnectionState (runtimeId : RuntimeId) (state : ConnectionState) : MeshMembership :=
  { n with peers := HMap.alter n.peers runtimeId fun peer =>
      peer.map fun peer => { peer with connectionState := state } }

def updateLocal (update : LocalUpdate) (nowMillis : Nat) : MeshMembership :=
  let updated := update.apply n.localRecord
  { n with localRecord :=
    { updated with version := nextVersion updated.version, heartbeatMillis := nowMillis } }

def hasPeer (runtimeId : RuntimeId) (nowMillis : Nat) : Bool :=
  (n.peers.lookup runtimeId).any fun peer => n.isLive peer nowMillis

def peerHasCapability (runtimeId : RuntimeId) (capability : String) (nowMillis : Nat) : Bool :=
  (n.peers.lookup runtimeId).any fun peer =>
    n.isLive peer nowMillis && peer.record.capabilities.contains capability

/-- `records_at`: the unexpired peers, and always the runtime's own record. -/
def recordsAt (nowMillis : Nat) : List GossipRecord :=
  ((n.peers.entries.map fun entry => entry.2).filter fun peer =>
    !n.isExpired peer.record nowMillis).map PeerState.record ++ [n.localRecord]

def pruneExpiredAt (nowMillis : Nat) : MeshMembership :=
  { n with peers := HMap.retain n.peers fun _ peer => n.isLive peer nowMillis }

def digest (nowMillis : Nat) : List GossipDigestEntry :=
  ((n.recordsAt nowMillis).map fun record =>
    (⟨record.runtimeId, record.version⟩ : GossipDigestEntry)).insertionSort
      fun a b => a.runtimeId.toHex ≤ b.runtimeId.toHex

/-- The version a digest has for a runtime; of two entries the later counts. -/
def remoteVersion (digest : List GossipDigestEntry) (runtimeId : RuntimeId) : Option Nat :=
  (digest.reverse.find? fun entry => entry.runtimeId == runtimeId).map GossipDigestEntry.version

def deltaFor (digest : List GossipDigestEntry) (nowMillis : Nat) : List GossipRecord :=
  ((n.recordsAt nowMillis).filter fun record =>
    (remoteVersion digest record.runtimeId).all fun version => version < record.version
    ).insertionSort fun a b => a.runtimeId.toHex ≤ b.runtimeId.toHex

end MeshMembership

/-! ## The mesh -/

structure MeshRun where
  nowMillis : Nat := 0
  nodes : List MeshMembership := []
  /-- Every message ever sent. -/
  inFlight : List GossipMessage := []
  /-- Every record a runtime made of itself, with the runtime that made it. -/
  produced : List (RuntimeId × GossipRecord) := []

inductive MeshMove where
  /-- A process starts; every boot draws a fresh runtime id. -/
  | boot (runtimeId : RuntimeId) (endpointAddrs : List String) (protoVersion : UInt16)
      (peerRecordTtl : Nat)
  | tick (millis : Nat)
  | updateLocal (node : Nat) (update : LocalUpdate)
  | sendDigest (node : Nat)
  /-- A digest in flight reaches a node, which answers with a delta. -/
  | answerDigest (node message : Nat)
  /-- A record of a delta in flight reaches a node. -/
  | applyDelta (node message record : Nat)
  | pruneExpired (node : Nat)
  | markConnectionState (node : Nat) (runtimeId : RuntimeId) (state : ConnectionState)
  | syncConnectionStates (node : Nat) (connected : RuntimeId → Bool)

namespace MeshRun

variable (s : MeshRun)

/-- One node works on its own table. -/
def atNode (node : Nat) (f : MeshMembership → MeshMembership) : MeshRun :=
  match s.nodes[node]? with
  | none => s
  | some n => { s with nodes := s.nodes.set node (f n) }

def boot (runtimeId : RuntimeId) (endpointAddrs : List String) (protoVersion : UInt16)
    (peerRecordTtl : Nat) : MeshRun :=
  if s.nodes.any fun n => n.localRuntimeId == runtimeId then s
  else
    let record := GossipRecord.new runtimeId endpointAddrs protoVersion s.nowMillis
    { s with
      nodes := s.nodes ++ [.new record peerRecordTtl]
      produced := s.produced ++ [(runtimeId, record)] }

def updateLocal (node : Nat) (update : LocalUpdate) : MeshRun :=
  match s.nodes[node]? with
  | none => s
  | some n =>
      let n' := n.updateLocal update s.nowMillis
      { s with
        nodes := s.nodes.set node n'
        produced := s.produced ++ [(n.localRuntimeId, n'.localRecord)] }

def send (message : GossipMessage) : MeshRun := { s with inFlight := s.inFlight ++ [message] }

def sendDigest (node : Nat) : MeshRun :=
  match s.nodes[node]? with
  | none => s
  | some n => s.send (.digest (n.digest s.nowMillis))

def answerDigest (node message : Nat) : MeshRun :=
  match s.nodes[node]?, s.inFlight[message]? with
  | some n, some (.digest entries) => s.send (.delta (n.deltaFor entries s.nowMillis))
  | _, _ => s

def applyDelta (node message record : Nat) : MeshRun :=
  match s.inFlight[message]? with
  | some (.delta records) =>
      match records[record]? with
      | some arrived => s.atNode node fun n => (n.applyGossipRecord arrived s.nowMillis).1
      | none => s
  | _ => s

def step : MeshRun → MeshMove → MeshRun
  | s, .boot runtimeId endpointAddrs protoVersion peerRecordTtl =>
      s.boot runtimeId endpointAddrs protoVersion peerRecordTtl
  | s, .tick millis => { s with nowMillis := s.nowMillis + millis }
  | s, .updateLocal node update => s.updateLocal node update
  | s, .sendDigest node => s.sendDigest node
  | s, .answerDigest node message => s.answerDigest node message
  | s, .applyDelta node message record => s.applyDelta node message record
  | s, .pruneExpired node => s.atNode node fun n => n.pruneExpiredAt s.nowMillis
  | s, .markConnectionState node runtimeId state =>
      s.atNode node fun n => n.markConnectionState runtimeId state
  | s, .syncConnectionStates node connected =>
      s.atNode node fun n => n.syncConnectionStates connected

end MeshRun

/-- The mesh from before its first process. -/
def mesh : Machine MeshRun MeshMove := ⟨{}, MeshRun.step⟩

end Buzz.Mesh
