import Buzz.Relay.AudioRoomManager

/-!
# One room for a channel

A room that the manager dropped is empty. It stays so if nobody can be seated in
it any more: because it has ended, or because no handler that is still to seat a
peer holds it. The manager looks at neither. It drops a room that is empty at the
moment, and a handler that got it before seats its peer where nobody else will
look for it.
-/

namespace Buzz.Relay

open Buzz.Lib

/-! ## Rooms without peers -/

variable {room : Room}

theorem Room.lookup_of_isEmpty (h : room.isEmpty = true) (id : Uuid) :
    room.peers.lookup id = none := by
  unfold Room.isEmpty Room.len at h
  rw [decide_eq_true_iff, List.length_eq_zero_iff] at h
  rw [AList.lookup_eq_none, AList.mem_keys, h]
  exact List.not_mem_nil

/-- An empty room stays empty, and stays ended unless that is taken back. -/
theorem RoomCall.apply_of_isEmpty (h : room.isEmpty = true) (call : RoomCall) :
    (call.apply room).isEmpty = true ∧
      (call ≠ .clearEnded → room.guard.ended = true → (call.apply room).guard.ended = true) := by
  cases call with
  | commitPeer id =>
      have hsame : (room.commitPeer id).1 = room := by
        rw [Room.commitPeer, Room.lookup_of_isEmpty h]
      rw [RoomCall.apply, hsame]
      exact ⟨h, fun _ hended => hended⟩
  | removePeer id =>
      have hsame : (room.removePeer id).1 = room := by
        rw [Room.removePeer, Room.lookup_of_isEmpty h]
      rw [RoomCall.apply, hsame]
      exact ⟨h, fun _ hended => hended⟩
  | removePeerAndCheckEnded id =>
      have hsame : (room.removePeerAndCheckEnded id).1 = room := by
        rw [Room.removePeerAndCheckEnded, Room.lookup_of_isEmpty h]
      rw [RoomCall.apply, hsame]
      exact ⟨h, fun _ hended => hended⟩
  | removePeerSilent id =>
      have hsame : (room.removePeerSilent id).1 = room := by
        rw [Room.removePeerSilent, Room.lookup_of_isEmpty h]
      rw [RoomCall.apply, hsame]
      exact ⟨h, fun _ hended => hended⟩
  | removePeerSilentAndCheckEnded id =>
      have hsame : (room.removePeerSilentAndCheckEnded id).1 = room := by
        rw [Room.removePeerSilentAndCheckEnded, Room.lookup_of_isEmpty h]
      rw [RoomCall.apply, hsame]
      exact ⟨h, fun _ hended => hended⟩
  | markEnded => exact ⟨h, fun _ _ => rfl⟩
  | clearEnded => exact ⟨h, fun hne => (hne rfl).elim⟩

/-- Nobody is seated in a room that has ended. -/
theorem Seating.apply_of_ended (h : room.guard.ended = true) (seating : Seating) :
    seating.apply room = room := by
  unfold Seating.apply
  split
  · rw [Room.addPeerPending, if_pos h]
  · rw [Room.addPeerAtIndexPending, if_pos h]

/-! ## The invariant -/

/-- Nobody that is still to seat a peer holds the room. -/
def AudioRoomManager.unheld (s : AudioRoomManager) (r : Nat) : Bool :=
  s.joiners.all fun j => !j.waiting || j.room ≠ r

/-- A room is only dropped, or opened again after it was, when nobody can be
seated in it. -/
def dropsUnheld (s : AudioRoomManager) : ManagerMove → Bool
  | .cleanupIfEmpty key =>
      (s.rooms.lookup key).all fun r =>
        s.unheld r || (s.made[r]?).all fun entry => entry.2.guard.ended || !entry.2.isEmpty
  | .call r .clearEnded =>
      s.unheld r || (s.made[r]?).all fun entry => s.rooms.lookup entry.1 = some r
  | _ => true

/-- A key has one room at a time: a room that is no longer mapped is empty, and
it has ended or nobody can be seated in it. -/
structure OneRoom (s : AudioRoomManager) : Prop where
  mapped : ∀ key r, s.rooms.lookup key = some r → ∃ room, s.made[r]? = some (key, room)
  held : ∀ j ∈ s.joiners, j.room < s.made.length
  dropped : ∀ r key room, s.made[r]? = some (key, room) → s.rooms.lookup key ≠ some r →
    room.isEmpty = true ∧ (room.guard.ended = true ∨ s.unheld r = true)

theorem unheld_iff {s : AudioRoomManager} {r : Nat} :
    s.unheld r = true ↔ ∀ j ∈ s.joiners, j.waiting = true → j.room ≠ r := by
  unfold AudioRoomManager.unheld
  rw [List.all_eq_true]
  constructor
  · intro h j hj hwaiting
    have hone := h j hj
    rw [hwaiting] at hone
    exact of_decide_eq_true hone
  · intro h j hj
    cases hwaiting : j.waiting with
    | false => rfl
    | true => exact decide_eq_true (h j hj hwaiting)

/-- A room after one of them changed. -/
theorem made_setRoom {s : AudioRoomManager} {r r' : Nat} {f : Room → Room}
    {key : RoomKey} (h : (s.setRoom r f).made[r']? = some (key, room)) :
    (r' = r ∧ ∃ old, s.made[r]? = some (key, old) ∧ room = f old) ∨
      (r' ≠ r ∧ s.made[r']? = some (key, room)) := by
  unfold AudioRoomManager.setRoom at h
  rw [List.getElem?_modify] at h
  obtain ⟨entry, hentry, heq⟩ := Option.map_eq_some_iff.1 h
  by_cases hr : r = r'
  · subst hr
    rw [if_pos rfl] at heq
    obtain ⟨key', old⟩ := entry
    cases heq
    exact .inl ⟨rfl, old, hentry, rfl⟩
  · rw [if_neg hr] at heq
    cases heq
    exact .inr ⟨fun h => hr h.symm, hentry⟩

namespace OneRoom

variable {s : AudioRoomManager}

theorem setRoom (h : OneRoom s) {r : Nat} {f : Room → Room}
    (hdropped : ∀ key room, s.made[r]? = some (key, room) → s.rooms.lookup key ≠ some r →
      (f room).isEmpty = true ∧ ((f room).guard.ended = true ∨ s.unheld r = true)) :
    OneRoom (s.setRoom r f) := by
  refine ⟨fun key r' hr' => ?_, fun j hj => ?_, fun r' key room hroom hnot => ?_⟩
  · obtain ⟨room, hroom⟩ := h.mapped key r' hr'
    refine ⟨if r = r' then f room else room, ?_⟩
    unfold AudioRoomManager.setRoom
    rw [List.getElem?_modify, hroom]
    split
    · rfl
    · rfl
  · unfold AudioRoomManager.setRoom
    rw [List.length_modify]
    exact h.held j hj
  · rcases made_setRoom hroom with ⟨rfl, old, hold, rfl⟩ | ⟨-, hold⟩
    · exact hdropped key old hold hnot
    · exact h.dropped r' key room hold hnot

theorem settle (h : OneRoom s) (joiner : Nat) : OneRoom (s.settle joiner) := by
  have hjoiners : ∀ j ∈ (s.settle joiner).joiners,
      ∃ k ∈ s.joiners, j.room = k.room ∧ (j.waiting = true → k.waiting = true) := by
    intro j hj
    obtain ⟨i, hi⟩ := List.mem_iff_getElem?.1 hj
    unfold AudioRoomManager.settle at hi
    rw [List.getElem?_modify] at hi
    obtain ⟨k, hk, heq⟩ := Option.map_eq_some_iff.1 hi
    refine ⟨k, List.mem_of_getElem? hk, ?_⟩
    split at heq
    · subst heq
      exact ⟨rfl, nofun⟩
    · subst heq
      exact ⟨rfl, id⟩
  refine ⟨h.mapped, fun j hj => ?_, fun r key room hroom hnot => ?_⟩
  · obtain ⟨k, hk, hroom, -⟩ := hjoiners j hj
    rw [hroom]
    exact h.held k hk
  · obtain ⟨hempty, hended | hunheld⟩ := h.dropped r key room hroom hnot
    · exact ⟨hempty, .inl hended⟩
    · refine ⟨hempty, .inr (unheld_iff.2 fun j hj hwaiting => ?_)⟩
      obtain ⟨k, hk, hsame, hmore⟩ := hjoiners j hj
      rw [hsame]
      exact unheld_iff.1 hunheld k hk (hmore hwaiting)

theorem getOrCreate (h : OneRoom s) (key : RoomKey) : OneRoom (s.getOrCreate key) := by
  unfold AudioRoomManager.getOrCreate
  split
  · next r hr =>
      obtain ⟨mine, hmine⟩ := h.mapped key r hr
      refine ⟨h.mapped, fun j hj => ?_, fun r' key' room hroom hnot => ?_⟩
      · rcases List.mem_append.1 hj with hj | hj
        · exact h.held j hj
        · rw [List.mem_singleton.1 hj]
          exact (List.getElem?_eq_some_iff.1 hmine).1
      · obtain ⟨hempty, hended | hunheld⟩ := h.dropped r' key' room hroom hnot
        · exact ⟨hempty, .inl hended⟩
        · refine ⟨hempty, .inr (unheld_iff.2 fun j hj hwaiting => ?_)⟩
          rcases List.mem_append.1 hj with hj | hj
          · exact unheld_iff.1 hunheld j hj hwaiting
          · -- the room of the new joiner is mapped
            rw [List.mem_singleton.1 hj]
            rintro rfl
            rw [hmine] at hroom
            cases hroom
            exact hnot hr
  · next hnone =>
      refine ⟨fun key' r hr => ?_, fun j hj => ?_, fun r key' room hroom hnot => ?_⟩
      · rcases HMap.lookup_insert_cases hr with ⟨rfl, rfl⟩ | ⟨-, hold⟩
        · exact ⟨.new, List.getElem?_concat_length⟩
        · obtain ⟨room, hroom⟩ := h.mapped key' r hold
          exact ⟨room,
            (List.getElem?_append_left (List.getElem?_eq_some_iff.1 hroom).1).trans hroom⟩
      · rw [List.length_append]
        rcases List.mem_append.1 hj with hj | hj
        · exact Nat.lt_of_lt_of_le (h.held j hj) (Nat.le_add_right _ _)
        · rw [List.mem_singleton.1 hj]
          exact Nat.lt_succ_self _
      · rw [HMap.lookup_insert_ite] at hnot
        rcases getElem?_snoc_cases hroom with ⟨rfl, heq⟩ | ⟨hlt, hold⟩
        · cases heq
          rw [if_pos rfl] at hnot
          exact (hnot rfl).elim
        · have hdropped : s.rooms.lookup key' ≠ some r := by
            intro hmapped
            split at hnot
            · next hkey =>
                rw [hkey, hnone] at hmapped
                cases hmapped
            · exact hnot hmapped
          obtain ⟨hempty, hended | hunheld⟩ := h.dropped r key' room hold hdropped
          · exact ⟨hempty, .inl hended⟩
          · refine ⟨hempty, .inr (unheld_iff.2 fun j hj hwaiting => ?_)⟩
            rcases List.mem_append.1 hj with hj | hj
            · exact unheld_iff.1 hunheld j hj hwaiting
            · rw [List.mem_singleton.1 hj]
              exact hlt.ne'

theorem seat (h : OneRoom s) (joiner : Nat) (seating : Seating) :
    OneRoom (s.seat joiner seating) := by
  unfold AudioRoomManager.seat
  split
  · next r hjoiner =>
      refine (h.setRoom fun key room hroom hnot => ?_).settle joiner
      obtain ⟨hempty, hended | hunheld⟩ := h.dropped r key room hroom hnot
      · rw [seating.apply_of_ended hended]
        exact ⟨hempty, .inl hended⟩
      · -- the joiner itself holds the room
        exact (unheld_iff.1 hunheld _ (List.mem_of_getElem? hjoiner) rfl rfl).elim
  · exact h

theorem call (h : OneRoom s) (r : Nat) (roomCall : RoomCall)
    (hcond : dropsUnheld s (.call r roomCall) = true) :
    OneRoom (s.setRoom r roomCall.apply) := by
  refine h.setRoom fun key room hroom hnot => ?_
  obtain ⟨hempty, hor⟩ := h.dropped r key room hroom hnot
  obtain ⟨hstays, hended⟩ := roomCall.apply_of_isEmpty hempty
  refine ⟨hstays, ?_⟩
  by_cases hclear : roomCall = .clearEnded
  · subst hclear
    unfold dropsUnheld at hcond
    dsimp only at hcond
    rw [hroom, Option.all_some, Bool.or_eq_true, decide_eq_true_iff] at hcond
    exact .inr (hcond.resolve_right hnot)
  · exact hor.imp (hended hclear) id

theorem cleanupIfEmpty (h : OneRoom s) (key : RoomKey)
    (hcond : dropsUnheld s (.cleanupIfEmpty key) = true) : OneRoom (s.cleanupIfEmpty key) := by
  unfold AudioRoomManager.cleanupIfEmpty
  split
  · exact h
  · next r hr =>
      split
      · next mine hmine =>
          split
          · next hempty =>
              refine ⟨fun key' r' hr' => ?_, h.held, fun r' key' room hroom hnot => ?_⟩
              · rw [HMap.lookup_erase_ite] at hr'
                split at hr'
                · cases hr'
                · exact h.mapped key' r' hr'
              · by_cases hmapped : s.rooms.lookup key' = some r'
                · -- the room that is dropped now
                  have hkey : key' = key := by
                    rw [HMap.lookup_erase_ite] at hnot
                    split at hnot
                    · next hkey => exact hkey
                    · exact (hnot hmapped).elim
                  subst hkey
                  rw [hr] at hmapped
                  cases hmapped
                  rw [hmine] at hroom
                  cases hroom
                  unfold dropsUnheld at hcond
                  dsimp only at hcond
                  rw [hr, Option.all_some, hmine, Option.all_some, hempty, Bool.not_true,
                    Bool.or_false, Bool.or_eq_true] at hcond
                  exact ⟨hempty, hcond.symm⟩
                · exact h.dropped r' key' room hroom hmapped
          · exact h
      · exact h

theorem init : OneRoom {} := ⟨nofun, nofun, nofun⟩

theorem step (h : OneRoom s) (m : ManagerMove) (hcond : dropsUnheld s m = true) :
    OneRoom (s.step m) := by
  cases m with
  | getOrCreate key => exact h.getOrCreate key
  | seat joiner seating => exact h.seat joiner seating
  | abandon joiner => exact h.settle joiner
  | call r roomCall => exact h.call r roomCall hcond
  | cleanupIfEmpty key => exact h.cleanupIfEmpty key hcond

end OneRoom

/-! ## Runs -/

/-- Every seated peer is in the room the manager has for its channel. -/
def SeatedTogether (s : AudioRoomManager) : Prop :=
  ∀ (r : Nat) (key : RoomKey) (room : Room) (id : Uuid) (peer : AudioPeer),
    s.made[r]? = some (key, room) → room.peers.lookup id = some peer →
      s.rooms.lookup key = some r

/-- If no room is dropped that somebody may still be seated in, all peers of a
channel share one room. -/
theorem peers_share_one_room (ms : List ManagerMove)
    (h : audioRooms.Meets (fun s m => dropsUnheld s m = true) audioRooms.init ms) :
    SeatedTogether (audioRooms.run ms) := by
  have hone : OneRoom (audioRooms.run ms) :=
    audioRooms.inv_run (I := OneRoom) OneRoom.init (fun s m hs hm => hs.step m hm) h
  intro r key room id peer hroom hpeer
  by_contra hnot
  have hempty := (hone.dropped r key room hroom hnot).1
  rw [Room.lookup_of_isEmpty hempty] at hpeer
  cases hpeer

/-! ## A huddle -/

def huddleKey : RoomKey := (⟨.ofByte 1⟩, .ofByte 2)

def seating (n : UInt8) : Seating := ⟨.ofByte n, "peer", 3, none⟩

/-- Somebody gives up a seat that was not committed yet, while another one has
the room already and a third one comes after it was dropped. -/
def giveUpSeat : List ManagerMove :=
  [.getOrCreate huddleKey, .seat 0 (seating 10), .getOrCreate huddleKey,
    .call 0 (.removePeerSilent (.ofByte 10)), .cleanupIfEmpty huddleKey, .getOrCreate huddleKey,
    .seat 1 (seating 11), .seat 2 (seating 12)]

theorem giveUpSeat_splits_channel : ¬ SeatedTogether (audioRooms.run giveUpSeat) := by
  intro h
  have hroom : ∃ room peer, (audioRooms.run giveUpSeat).made[0]? = some (huddleKey, room) ∧
      room.peers.lookup (.ofByte 11) = some peer := ⟨_, _, rfl, rfl⟩
  obtain ⟨room, peer, hmade, hpeer⟩ := hroom
  have hmapped := h 0 huddleKey room (.ofByte 11) peer hmade hpeer
  revert hmapped
  decide

/-- The same, but the last one out is committed and ends the room. -/
def endHuddle : List ManagerMove :=
  [.getOrCreate huddleKey, .seat 0 (seating 10), .call 0 (.commitPeer (.ofByte 10)),
    .getOrCreate huddleKey, .call 0 (.removePeerAndCheckEnded (.ofByte 10)),
    .cleanupIfEmpty huddleKey, .getOrCreate huddleKey, .seat 1 (seating 11), .seat 2 (seating 12)]

theorem peers_share_one_room_endHuddle : SeatedTogether (audioRooms.run endHuddle) :=
  peers_share_one_room endHuddle (by decide)

end Buzz.Relay
