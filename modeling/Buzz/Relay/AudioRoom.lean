import Buzz.Core.Event
import Buzz.Lib.HashMap
import Buzz.Lib.Machine
import Mathlib.Data.Finset.Basic
import Mathlib.Data.List.Sort

/-!
# The audio room of a huddle

A room seats peers under one admission lock. A peer is inserted pending, with a
routing index of its own, and published once its admission transaction has
committed; a pending one is taken out again without a trace. Joins and leaves
are broadcast as deltas that carry the roster revision, and a listener that
missed some of them asks for a snapshot.

Every operation holds the lock from beginning to end, so it is one step. The
lock is only poisoned by a panic under it, of which there is none: the one
addition that can overflow, of the cursor after an owner-assigned index 255,
wraps in a release build. The senders of a peer's audio and control queues are
left out, and with them the operations that only use those.
-/

namespace Buzz.Relay

open Buzz.Lib

structure AudioPeer where
  pubkey : String
  peerIndex : UInt8
  epoch : UInt8
  protocolVersion : UInt8
  committed : Bool
deriving DecidableEq

def maxPeersPerRoom : Nat := 25

structure RosterPeer where
  pubkey : String
  peerIndex : UInt8
  epoch : UInt8
deriving DecidableEq

structure RosterSnapshot where
  revision : UInt64
  peers : List RosterPeer
deriving DecidableEq

structure RosterDelta where
  revision : UInt64
  joined : Option RosterPeer
  left : Option RosterPeer
deriving DecidableEq

def AudioPeer.rosterPeer (p : AudioPeer) : RosterPeer := ⟨p.pubkey, p.peerIndex, p.epoch⟩

inductive AdmissionError where
  | ended
  | full
  | versionMismatch (pinned requested : UInt8)
deriving DecidableEq

structure AdmissionGuard where
  nextCandidate : UInt8
  activeIndices : Finset UInt8
  indexEpochs : HMap UInt8 UInt8
  ended : Bool
  pinnedVersion : Option UInt8
  rosterRevision : UInt64

namespace AdmissionGuard

def new : AdmissionGuard := ⟨0, ∅, ∅, false, none, 0⟩

/-- The cursor after an index; 255 is never handed out. -/
def after (index : UInt8) : UInt8 := if index = 254 then 0 else index + 1

variable (g : AdmissionGuard)

def nextEpochFor (index : UInt8) : AdmissionGuard × UInt8 :=
  let epoch := (g.indexEpochs.lookup index).getD 0
  ({ g with indexEpochs := g.indexEpochs.insert index (epoch + 1) }, epoch)

/-- The loop of `alloc`, with so many rounds left. -/
def allocIn : Nat → AdmissionGuard → AdmissionGuard × Option (UInt8 × UInt8)
  | 0, g => (g, none)
  | rounds + 1, g =>
      let index := g.nextCandidate
      let g := { g with nextCandidate := after index }
      if index ∈ g.activeIndices then allocIn rounds g
      else
        let g := { g with activeIndices := insert index g.activeIndices }
        let (g, epoch) := g.nextEpochFor index
        (g, some (index, epoch))

def alloc : AdmissionGuard × Option (UInt8 × UInt8) := allocIn 255 g

def mismatch (requested : UInt8) : Option AdmissionError :=
  match g.pinnedVersion with
  | some pinned =>
      if pinned ≠ requested then some (.versionMismatch pinned requested) else none
  | none => none

/-- `pinned_version.get_or_insert`. -/
def pin (requested : UInt8) : AdmissionGuard :=
  { g with pinnedVersion := some (g.pinnedVersion.getD requested) }

end AdmissionGuard

/-- A room, with everything it has broadcast, oldest first. -/
structure Room where
  guard : AdmissionGuard
  peers : HMap Uuid AudioPeer
  sent : List RosterDelta

/-- What a pending admission returns: peer id, routing index, epoch, and the
revision at the time. -/
abbrev PendingPeerAdmission := Uuid × UInt8 × UInt8 × UInt64

namespace Room

def new : Room := ⟨.new, ∅, []⟩

variable (room : Room)

def len : Nat := room.peers.keys.length

def isEmpty : Bool := room.len = 0

def markEnded : Room × Bool :=
  ({ room with guard := { room.guard with ended := true } }, room.isEmpty)

def clearEnded : Room :=
  { room with guard := { room.guard with ended := false } }

/-- `id` is what `Uuid::new_v4` draws, should it come to that. -/
def addPeerPending (id : Uuid) (pubkey : String) (requestedVersion : UInt8) :
    Room × Except AdmissionError PendingPeerAdmission :=
  if room.guard.ended then (room, .error .ended)
  else if maxPeersPerRoom ≤ room.len then (room, .error .full)
  else
    match room.guard.mismatch requestedVersion with
    | some e => (room, .error e)
    | none =>
        match room.guard.alloc with
        | (g, none) => ({ room with guard := g }, .error .full)
        | (g, some (peerIndex, epoch)) =>
            let g := g.pin requestedVersion
            let peer := ⟨pubkey, peerIndex, epoch, requestedVersion, false⟩
            ({ room with guard := g, peers := room.peers.insert id peer },
              .ok (id, peerIndex, epoch, g.rosterRevision))

def addPeerAtIndexPending (id : Uuid) (pubkey : String)
    (requestedVersion : UInt8) (peerIndex : UInt8) :
    Room × Except AdmissionError PendingPeerAdmission :=
  if room.guard.ended then (room, .error .ended)
  else if maxPeersPerRoom ≤ room.len ∨ peerIndex ∈ room.guard.activeIndices then
    (room, .error .full)
  else
    match room.guard.mismatch requestedVersion with
    | some e => (room, .error e)
    | none =>
        let g := room.guard.pin requestedVersion
        let g := { g with activeIndices := insert peerIndex g.activeIndices }
        let (g, epoch) := g.nextEpochFor peerIndex
        let g := { g with nextCandidate := AdmissionGuard.after peerIndex }
        let peer := ⟨pubkey, peerIndex, epoch, requestedVersion, false⟩
        ({ room with guard := g, peers := room.peers.insert id peer },
          .ok (id, peerIndex, epoch, g.rosterRevision))

/-- The next revision, with the delta that announces it. -/
def publish (joined left : Option RosterPeer) : Room × RosterDelta :=
  let revision := room.guard.rosterRevision + 1
  let delta := ⟨revision, joined, left⟩
  ({ room with
      guard := { room.guard with rosterRevision := revision }
      sent := room.sent ++ [delta] }, delta)

def commitPeer (id : Uuid) : Room × Option UInt64 :=
  match room.peers.lookup id with
  | none => (room, none)
  | some peer =>
      let room := { room with peers := room.peers.insert id { peer with committed := true } }
      let (room, delta) := room.publish (some peer.rosterPeer) none
      (room, some delta.revision)

/-- A peer leaves its seat, and its index is free again. -/
def unseat (id : Uuid) (peer : AudioPeer) : Room :=
  { room with
    peers := room.peers.erase id
    guard := { room.guard with
      activeIndices := room.guard.activeIndices.erase peer.peerIndex } }

/-- The first to see the room empty ends it. -/
def checkEnded : Room × Bool :=
  if ¬room.guard.ended ∧ room.isEmpty then
    ({ room with guard := { room.guard with ended := true } }, true)
  else (room, false)

def removePeer (id : Uuid) : Room × Option RosterDelta :=
  match room.peers.lookup id with
  | none => (room, none)
  | some peer =>
      let (room, delta) := (room.unseat id peer).publish none (some peer.rosterPeer)
      (room, some delta)

def removePeerAndCheckEnded (id : Uuid) : Room × Option (RosterDelta × Bool) :=
  match room.peers.lookup id with
  | none => (room, none)
  | some peer =>
      let (room, delta) := (room.unseat id peer).publish none (some peer.rosterPeer)
      let (room, shouldEnd) := room.checkEnded
      (room, some (delta, shouldEnd))

def removePeerSilent (id : Uuid) : Room × Bool :=
  match room.peers.lookup id with
  | none => (room, false)
  | some peer => (room.unseat id peer, true)

def removePeerSilentAndCheckEnded (id : Uuid) : Room × Bool × Bool :=
  match room.peers.lookup id with
  | none => (room, false, false)
  | some peer =>
      let (room, shouldEnd) := (room.unseat id peer).checkEnded
      (room, true, shouldEnd)

/-- The peers in whatever order the map has them, sorted by their index. -/
def rosterSnapshot : RosterSnapshot :=
  let peers := ((room.peers.entries.map (·.2)).filter (·.committed)).map AudioPeer.rosterPeer
  ⟨room.guard.rosterRevision, peers.mergeSort fun p q => p.peerIndex ≤ q.peerIndex⟩

end Room

/-! ## A listener -/

/-- What a listener makes of a delta: the peer that left is gone, the one that
joined is at its place. -/
def RosterSnapshot.apply (roster : RosterSnapshot) (delta : RosterDelta) : RosterSnapshot :=
  let stay := match delta.left with
    | some peer => roster.peers.filter (· ≠ peer)
    | none => roster.peers
  let peers := match delta.joined with
    | some peer => stay.orderedInsert (fun p q => p.peerIndex ≤ q.peerIndex) peer
    | none => stay
  ⟨delta.revision, peers⟩

def RosterSnapshot.empty : RosterSnapshot := ⟨0, []⟩

/-! ## Runs -/

inductive RoomMove where
  | addPeerPending (id : Uuid) (pubkey : String) (requestedVersion : UInt8)
  | addPeerAtIndexPending (id : Uuid) (pubkey : String) (requestedVersion peerIndex : UInt8)
  | commitPeer (id : Uuid)
  | removePeer (id : Uuid)
  | removePeerAndCheckEnded (id : Uuid)
  | removePeerSilent (id : Uuid)
  | removePeerSilentAndCheckEnded (id : Uuid)
  | markEnded
  | clearEnded
deriving DecidableEq

structure RoomRun where
  room : Room
  /-- Every id drawn so far. -/
  drawn : List Uuid
  /-- How often `should_end` was reported since the flag was last cleared. -/
  endReports : Nat

namespace RoomRun

def reported (s : RoomRun) (room : Room) (shouldEnd : Bool) : RoomRun :=
  { s with room, endReports := s.endReports + if shouldEnd then 1 else 0 }

def step (s : RoomRun) : RoomMove → RoomRun
  | .addPeerPending id pubkey version =>
      { s with room := (s.room.addPeerPending id pubkey version).1, drawn := id :: s.drawn }
  | .addPeerAtIndexPending id pubkey version index =>
      { s with
        room := (s.room.addPeerAtIndexPending id pubkey version index).1
        drawn := id :: s.drawn }
  | .commitPeer id => { s with room := (s.room.commitPeer id).1 }
  | .removePeer id => { s with room := (s.room.removePeer id).1 }
  | .removePeerAndCheckEnded id =>
      let (room, result) := s.room.removePeerAndCheckEnded id
      s.reported room ((result.map (·.2)).getD false)
  | .removePeerSilent id => { s with room := (s.room.removePeerSilent id).1 }
  | .removePeerSilentAndCheckEnded id =>
      let (room, _, shouldEnd) := s.room.removePeerSilentAndCheckEnded id
      s.reported room shouldEnd
  | .markEnded => { s with room := s.room.markEnded.1 }
  | .clearEnded => { s with room := s.room.clearEnded, endReports := 0 }

/-- What the callers keep to. An id is new each time it is drawn; a seat is
committed once; it is given up aloud after that and silently before. -/
def protocol (s : RoomRun) : RoomMove → Bool
  | .addPeerPending id _ _ | .addPeerAtIndexPending id _ _ _ => id ∉ s.drawn
  | .commitPeer id | .removePeerSilent id | .removePeerSilentAndCheckEnded id =>
      (s.room.peers.lookup id).all (!·.committed)
  | .removePeer id | .removePeerAndCheckEnded id => (s.room.peers.lookup id).all (·.committed)
  | .markEnded | .clearEnded => true

end RoomRun

def audioRoom : Machine RoomRun RoomMove where
  init := ⟨.new, [], 0⟩
  step := RoomRun.step

end Buzz.Relay
