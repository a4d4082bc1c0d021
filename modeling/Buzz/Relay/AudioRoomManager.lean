import Buzz.Relay.AudioRoom

/-!
# The rooms of a pod

The manager maps a channel of a community to its room. A handler that lets
somebody in first gets the room, then does other things, and only then seats the
peer in the room it got. A handler whose peer leaves takes it out of the room and
then asks the manager to drop the room if it is empty.

Each call to the manager or to a room is one step. A room lives on in the
handlers that hold it after the manager dropped it, so all of them are kept, and
a reference is a place in the list.
-/

namespace Buzz.Relay

open Buzz.Lib

abbrev RoomKey := CommunityId × Uuid

/-- A handler between getting the room and seating its peer, or after that. -/
structure Joiner where
  room : Nat
  waiting : Bool
deriving DecidableEq

structure AudioRoomManager where
  rooms : HMap RoomKey Nat := ∅
  /-- Every room that was made, with the key it was made for. -/
  made : List (RoomKey × Room) := []
  joiners : List Joiner := []

/-- What a handler that holds a room calls on it, other than to seat a peer. -/
inductive RoomCall where
  | commitPeer (id : Uuid)
  | removePeer (id : Uuid)
  | removePeerAndCheckEnded (id : Uuid)
  | removePeerSilent (id : Uuid)
  | removePeerSilentAndCheckEnded (id : Uuid)
  | markEnded
  | clearEnded
deriving DecidableEq

def RoomCall.apply (room : Room) : RoomCall → Room
  | commitPeer id => (room.commitPeer id).1
  | removePeer id => (room.removePeer id).1
  | removePeerAndCheckEnded id => (room.removePeerAndCheckEnded id).1
  | removePeerSilent id => (room.removePeerSilent id).1
  | removePeerSilentAndCheckEnded id => (room.removePeerSilentAndCheckEnded id).1
  | markEnded => room.markEnded.1
  | clearEnded => room.clearEnded

/-- How a peer is seated: at an index of the room's choice, or at the one the
owner of the huddle gave it. -/
structure Seating where
  id : Uuid
  pubkey : String
  requestedVersion : UInt8
  peerIndex : Option UInt8
deriving DecidableEq

def Seating.apply (room : Room) (seating : Seating) : Room :=
  match seating.peerIndex with
  | none => (room.addPeerPending seating.id seating.pubkey seating.requestedVersion).1
  | some index =>
      (room.addPeerAtIndexPending seating.id seating.pubkey seating.requestedVersion index).1

inductive ManagerMove where
  | getOrCreate (key : RoomKey)
  | seat (joiner : Nat) (seating : Seating)
  /-- The handler returns before it seats its peer. -/
  | abandon (joiner : Nat)
  | call (room : Nat) (roomCall : RoomCall)
  | cleanupIfEmpty (key : RoomKey)
deriving DecidableEq

namespace AudioRoomManager

variable (s : AudioRoomManager)

def setRoom (r : Nat) (f : Room → Room) : AudioRoomManager :=
  { s with made := s.made.modify r fun entry => (entry.1, f entry.2) }

def settle (joiner : Nat) : AudioRoomManager :=
  { s with joiners := s.joiners.modify joiner fun j => { j with waiting := false } }

def getOrCreate (key : RoomKey) : AudioRoomManager :=
  match s.rooms.lookup key with
  | some r => { s with joiners := s.joiners ++ [⟨r, true⟩] }
  | none =>
      { rooms := s.rooms.insert key s.made.length
        made := s.made ++ [(key, .new)]
        joiners := s.joiners ++ [⟨s.made.length, true⟩] }

def seat (joiner : Nat) (seating : Seating) : AudioRoomManager :=
  match s.joiners[joiner]? with
  | some ⟨r, true⟩ => (s.setRoom r seating.apply).settle joiner
  | _ => s

/-- The room is dropped if it has no peers. -/
def cleanupIfEmpty (key : RoomKey) : AudioRoomManager :=
  match s.rooms.lookup key with
  | none => s
  | some r =>
      match s.made[r]? with
      | some (_, room) => if room.isEmpty then { s with rooms := s.rooms.erase key } else s
      | none => s

def step : ManagerMove → AudioRoomManager
  | .getOrCreate key => s.getOrCreate key
  | .seat joiner seating => s.seat joiner seating
  | .abandon joiner => s.settle joiner
  | .call r roomCall => s.setRoom r roomCall.apply
  | .cleanupIfEmpty key => s.cleanupIfEmpty key

end AudioRoomManager

def audioRooms : Machine AudioRoomManager ManagerMove where
  init := {}
  step := AudioRoomManager.step

end Buzz.Relay
