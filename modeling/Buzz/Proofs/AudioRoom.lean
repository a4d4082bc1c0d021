import Buzz.Relay.AudioRoom
import Buzz.Lib.SortedBy
import Mathlib.Data.FinEnum
import Mathlib.Data.Finset.Card
import Mathlib.Data.Finset.Image

/-!
# The roster is the fold of its deltas

The seats of a room and the indices in use are the same thing seen twice, so an
index that is free in one is free in the other, and with room for another peer
the allocator finds one. What is published is the committed part of the seats:
a pending peer comes and goes without touching it, a commit adds one entry and
a leave takes one out, each with the delta that says so.
-/

namespace Buzz.Relay

open Buzz.Lib Room RoomRun

/-! ## Allocation -/

namespace AdmissionGuard

variable {g g' : AdmissionGuard} {n : Nat} {index epoch : UInt8}

/-- A guard with one index more in use, and nothing else changed that is
visible outside. -/
structure Taken (g g' : AdmissionGuard) (index : UInt8) : Prop where
  free : index ∉ g.activeIndices
  active : g'.activeIndices = insert index g.activeIndices
  ended : g'.ended = g.ended
  pinned : g'.pinnedVersion = g.pinnedVersion
  revision : g'.rosterRevision = g.rosterRevision

theorem allocIn_some (h : allocIn n g = (g', some (index, epoch))) : Taken g g' index := by
  induction n generalizing g with
  | zero => cases h
  | succ n ih =>
      unfold allocIn at h
      dsimp only at h
      split at h
      · have := ih h
        exact ⟨this.free, this.active, this.ended, this.pinned, this.revision⟩
      · next hfree =>
          cases h
          exact ⟨hfree, rfl, rfl, rfl, rfl⟩

/-- A search without success went over indices in use. -/
theorem allocIn_none (h : allocIn n g = (g', none)) :
    ∀ k < n, after^[k] g.nextCandidate ∈ g.activeIndices := by
  induction n generalizing g with
  | zero => intro k hk; omega
  | succ n ih =>
      unfold allocIn at h
      dsimp only at h
      split at h
      · next hused =>
          intro k hk
          cases k with
          | zero => exact hused
          | succ k => exact ih h k (by omega)
      · cases h

theorem toNat_after (index : UInt8) :
    (after index).toNat = if index.toNat < 254 then index.toNat + 1 else 0 := by
  have hlt := index.toNat_lt
  unfold after
  split
  · next h =>
      rw [h]
      rfl
  · next h =>
      have hne : index.toNat ≠ 254 := fun heq => h (UInt8.toNat_inj.1 heq)
      rw [UInt8.toNat_add]
      show (index.toNat + 1) % 256 = _
      split
      · omega
      · rw [show index.toNat = 255 by omega]

/-- The candidates below 255 go round. -/
theorem toNat_iterate_after (h : index.toNat < 255) (k : Nat) :
    (after^[k] index).toNat = (index.toNat + k) % 255 := by
  induction k with
  | zero => exact (Nat.mod_eq_of_lt h).symm
  | succ k ih =>
      rw [Function.iterate_succ_apply', toNat_after, ih]
      split
      · omega
      · omega

/-- As many candidates in a row as there are seats, all different. -/
theorem nodup_after (index : UInt8) :
    ((List.range 25).map fun k => after^[k] index).Nodup := by
  have hlt := index.toNat_lt
  refine List.Nodup.map_on (fun k hk l hl heq => ?_) List.nodup_range
  rw [List.mem_range] at hk hl
  have heq := congrArg UInt8.toNat heq
  rcases Nat.lt_or_ge index.toNat 255 with hbelow | habove
  · rw [toNat_iterate_after hbelow, toNat_iterate_after hbelow] at heq
    omega
  · -- 255 itself is a candidate once, as the first one
    have hnext : after index = 0 := UInt8.toNat_inj.1 (by
      rw [toNat_after, if_neg (by omega)]
      rfl)
    have hzero : (0 : UInt8).toNat < 255 := by decide
    cases k with
    | zero =>
        cases l with
        | zero => rfl
        | succ l =>
            rw [Function.iterate_succ_apply, hnext, toNat_iterate_after hzero] at heq
            simp only [Function.iterate_zero, id_eq] at heq
            omega
    | succ k =>
        rw [Function.iterate_succ_apply, hnext, toNat_iterate_after hzero] at heq
        cases l with
        | zero =>
            simp only [Function.iterate_zero, id_eq] at heq
            omega
        | succ l =>
            rw [Function.iterate_succ_apply, hnext, toNat_iterate_after hzero] at heq
            have hzero' : (0 : UInt8).toNat = 0 := rfl
            omega

/-- Fewer indices in use than there are seats: one is found. -/
theorem alloc_some (h : g.activeIndices.card < 25) :
    ∃ g' index epoch, g.alloc = (g', some (index, epoch)) ∧ Taken g g' index := by
  obtain ⟨g', found⟩ : ∃ g' found, g.alloc = (g', found) := ⟨_, _, rfl⟩
  obtain ⟨found, halloc⟩ := found
  cases found with
  | some pair => exact ⟨g', pair.1, pair.2, halloc, allocIn_some halloc⟩
  | none =>
      have hused := allocIn_none halloc
      have hsub : ((List.range 25).map fun k => after^[k] g.nextCandidate).toFinset ⊆
          g.activeIndices := by
        intro i hi
        obtain ⟨k, hk, rfl⟩ := List.mem_map.1 (List.mem_toFinset.1 hi)
        exact hused k (by rw [List.mem_range] at hk; omega)
      have hcard := Finset.card_le_card hsub
      rw [List.toFinset_card_of_nodup (nodup_after _), List.length_map, List.length_range] at hcard
      omega

end AdmissionGuard

/-! ## Seats -/

/-- The indices in use are those of the seated peers, each of one peer. -/
structure Room.SeatsOk (room : Room) : Prop where
  indices : ∀ i, i ∈ room.guard.activeIndices ↔
    ∃ id p, room.peers.lookup id = some p ∧ p.peerIndex = i
  distinct : ∀ id id' p p', room.peers.lookup id = some p → room.peers.lookup id' = some p' →
    p.peerIndex = p'.peerIndex → id = id'
  seats : room.len ≤ maxPeersPerRoom
  pinned : ∀ id p, room.peers.lookup id = some p →
    room.guard.pinnedVersion = some p.protocolVersion

section Seats

variable {room room' : Room} {id : Uuid} {p : AudioPeer}

theorem Room.SeatsOk.card_le (h : room.SeatsOk) : room.guard.activeIndices.card ≤ room.len := by
  have hsub : room.guard.activeIndices ⊆
      room.peers.keySet.image fun id => ((room.peers.lookup id).map (·.peerIndex)).getD 0 := by
    intro i hi
    obtain ⟨id, p, hp, rfl⟩ := (h.indices i).1 hi
    refine Finset.mem_image.2 ⟨id, ?_, by simp [hp]⟩
    rw [HMap.mem_keySet, hp]
    rfl
  have hcard := (Finset.card_le_card hsub).trans Finset.card_image_le
  rwa [HMap.card_keySet] at hcard

theorem Room.len_insert (h : room.peers.lookup id = none) :
    (room.peers.insert id p).keys.length = room.peers.keys.length + 1 := by
  rw [← HMap.card_keySet, ← HMap.card_keySet, HMap.keySet_insert,
    Finset.card_insert_of_notMem]
  rw [HMap.mem_keySet, h]
  simp

/-- A new peer takes a free index. -/
theorem Room.SeatsOk.seat (h : room.SeatsOk) {g' : AdmissionGuard} {peers' : HMap Uuid AudioPeer}
    {sent' : List RosterDelta} (hnone : room.peers.lookup id = none)
    (hlen : room.len < maxPeersPerRoom) (hpeers : peers' = room.peers.insert id p)
    (hfree : p.peerIndex ∉ room.guard.activeIndices)
    (hactive : g'.activeIndices = insert p.peerIndex room.guard.activeIndices)
    (hpin : g'.pinnedVersion = some p.protocolVersion)
    (hmatch : room.guard.pinnedVersion = none ∨
      room.guard.pinnedVersion = some p.protocolVersion) :
    SeatsOk ⟨g', peers', sent'⟩ := by
  subst hpeers
  have hold : ∀ id' p', room.peers.lookup id' = some p' → p'.peerIndex ≠ p.peerIndex := by
    intro id' p' hp' heq
    exact hfree ((h.indices _).2 ⟨id', p', hp', heq⟩)
  refine ⟨fun i => ?_, ?_, ?_, ?_⟩
  · show i ∈ g'.activeIndices ↔ _
    rw [hactive, Finset.mem_insert, h.indices]
    constructor
    · rintro (rfl | ⟨id', p', hp', rfl⟩)
      · exact ⟨id, p, AList.lookup_insert _, rfl⟩
      · refine ⟨id', p', ?_, rfl⟩
        rw [AList.lookup_insert_ne (fun heq => ?_)]
        · exact hp'
        · rw [heq, hnone] at hp'
          cases hp'
    · rintro ⟨id', p', hp', rfl⟩
      rcases HMap.lookup_insert_cases hp' with ⟨-, rfl⟩ | ⟨-, hp'⟩
      · exact .inl rfl
      · exact .inr ⟨id', p', hp', rfl⟩
  · intro id₁ id₂ p₁ p₂ h₁ h₂ heq
    rcases HMap.lookup_insert_cases h₁ with ⟨rfl, rfl⟩ | ⟨-, hold₁⟩
    · rcases HMap.lookup_insert_cases h₂ with ⟨rfl, -⟩ | ⟨-, hold₂⟩
      · rfl
      · exact (hold _ _ hold₂ heq.symm).elim
    · rcases HMap.lookup_insert_cases h₂ with ⟨rfl, rfl⟩ | ⟨-, hold₂⟩
      · exact (hold _ _ hold₁ heq).elim
      · exact h.distinct _ _ _ _ hold₁ hold₂ heq
  · show (room.peers.insert id p).keys.length ≤ maxPeersPerRoom
    rw [len_insert hnone]
    exact hlen
  · intro id' p' hp'
    rw [hpin]
    rcases HMap.lookup_insert_cases hp' with ⟨-, rfl⟩ | ⟨-, hp'⟩
    · rfl
    · have hpinned := h.pinned id' p' hp'
      rcases hmatch with hmatch | hmatch
      · rw [hmatch] at hpinned
        cases hpinned
      · rw [hmatch] at hpinned
        exact hpinned

/-- What is seated, where and under which version is all that seats depend on. -/
theorem Room.SeatsOk.congr (h : room.SeatsOk)
    (hactive : room'.guard.activeIndices = room.guard.activeIndices)
    (hpinned : room'.guard.pinnedVersion = room.guard.pinnedVersion)
    (hkeys : room'.peers.keySet = room.peers.keySet)
    (hpeers : ∀ id p', room'.peers.lookup id = some p' → ∃ p, room.peers.lookup id = some p ∧
      p'.peerIndex = p.peerIndex ∧ p'.protocolVersion = p.protocolVersion) :
    room'.SeatsOk := by
  have hlook : ∀ id p, room.peers.lookup id = some p → ∃ p', room'.peers.lookup id = some p' ∧
      p'.peerIndex = p.peerIndex := by
    intro id p hp
    have hmem : id ∈ room'.peers.keySet := by
      rw [hkeys, HMap.mem_keySet, hp]
      rfl
    obtain ⟨p', hp'⟩ := Option.isSome_iff_exists.1 (HMap.mem_keySet.1 hmem)
    obtain ⟨q, hq, hindex, -⟩ := hpeers id p' hp'
    rw [hp] at hq
    cases hq
    exact ⟨p', hp', hindex⟩
  refine ⟨fun i => ?_, ?_, ?_, ?_⟩
  · rw [hactive, h.indices]
    constructor
    · rintro ⟨id, p, hp, rfl⟩
      obtain ⟨p', hp', hindex⟩ := hlook id p hp
      exact ⟨id, p', hp', hindex⟩
    · rintro ⟨id, p', hp', rfl⟩
      obtain ⟨p, hp, hindex, -⟩ := hpeers id p' hp'
      exact ⟨id, p, hp, hindex.symm⟩
  · intro id₁ id₂ p₁ p₂ h₁ h₂ heq
    obtain ⟨q₁, hq₁, hi₁, -⟩ := hpeers id₁ p₁ h₁
    obtain ⟨q₂, hq₂, hi₂, -⟩ := hpeers id₂ p₂ h₂
    exact h.distinct _ _ _ _ hq₁ hq₂ (by rw [← hi₁, ← hi₂, heq])
  · have hlen : room'.len = room.len := by
      unfold len
      rw [← HMap.card_keySet, ← HMap.card_keySet, hkeys]
    rw [hlen]
    exact h.seats
  · intro id p' hp'
    obtain ⟨p, hp, -, hversion⟩ := hpeers id p' hp'
    rw [hpinned, hversion]
    exact h.pinned id p hp

/-- A peer gives its seat up. -/
theorem Room.SeatsOk.unseat (h : room.SeatsOk) (hp : room.peers.lookup id = some p) :
    (room.unseat id p).SeatsOk := by
  have hcases : ∀ {id' p'}, (room.unseat id p).peers.lookup id' = some p' →
      id' ≠ id ∧ room.peers.lookup id' = some p' := by
    intro id' p' hp'
    rw [Room.unseat, HMap.lookup_erase_ite] at hp'
    split at hp'
    · cases hp'
    · next hne => exact ⟨hne, hp'⟩
  refine ⟨fun i => ?_, ?_, ?_, ?_⟩
  · show i ∈ room.guard.activeIndices.erase p.peerIndex ↔ _
    rw [Finset.mem_erase, h.indices]
    constructor
    · rintro ⟨hne, id', p', hp', rfl⟩
      refine ⟨id', p', ?_, rfl⟩
      rw [Room.unseat, HMap.lookup_erase_ite, if_neg]
      · exact hp'
      · intro heq
        rw [heq, hp] at hp'
        cases hp'
        exact hne rfl
    · rintro ⟨id', p', hp', rfl⟩
      obtain ⟨hne, hp'⟩ := hcases hp'
      exact ⟨fun heq => hne (h.distinct _ _ _ _ hp' hp heq), id', p', hp', rfl⟩
  · intro id₁ id₂ p₁ p₂ h₁ h₂ heq
    exact h.distinct _ _ _ _ (hcases h₁).2 (hcases h₂).2 heq
  · show (room.peers.erase id).keys.length ≤ maxPeersPerRoom
    have hle : (HMap.keySet (room.peers.erase id)).card ≤ room.peers.keySet.card := by
      rw [HMap.keySet_erase]
      exact Finset.card_erase_le
    rw [HMap.card_keySet, HMap.card_keySet] at hle
    exact hle.trans h.seats
  · intro id' p' hp'
    exact h.pinned id' p' (hcases hp').2

end Seats

/-! ## The roster -/

/-- Where a roster entry goes. -/
def rosterKey (q : RosterPeer) : Nat := q.peerIndex.toNat

theorem rosterKey_inj {q q' : RosterPeer} (h : rosterKey q = rosterKey q') :
    q.peerIndex = q'.peerIndex :=
  UInt8.toNat_inj.1 h

section Roster

variable {room room' : Room} {id : Uuid} {p : AudioPeer} {q : RosterPeer}

theorem Room.mem_rosterSnapshot :
    q ∈ room.rosterSnapshot.peers ↔
      ∃ id p, room.peers.lookup id = some p ∧ p.committed = true ∧ p.rosterPeer = q := by
  unfold rosterSnapshot
  simp only [List.mem_mergeSort, List.mem_map, List.mem_filter]
  constructor
  · rintro ⟨p, ⟨⟨e, he, rfl⟩, hcommitted⟩, rfl⟩
    exact ⟨e.1, e.2, HMap.mem_entries_iff.1 he, hcommitted, rfl⟩
  · rintro ⟨id, p, hp, hcommitted, rfl⟩
    exact ⟨p, ⟨⟨⟨id, p⟩, HMap.mem_entries_iff.2 hp, rfl⟩, hcommitted⟩, rfl⟩

theorem Room.SeatsOk.sorted (h : room.SeatsOk) :
    SortedBy rosterKey room.rosterSnapshot.peers := by
  refine SortedBy.mergeSort (fun a b => ?_) ?_
  · rw [decide_eq_true_iff]
    exact UInt8.le_iff_toNat_le
  · -- no two entries of the map have one index, and what is published is among them
    have hindices : (room.peers.entries.map fun e => e.2.peerIndex.toNat).Nodup := by
      refine List.Nodup.map_on ?_ (AList.nodupKeys room.peers).nodup
      rintro ⟨id₁, p₁⟩ h₁ ⟨id₂, p₂⟩ h₂ heq
      have hp₁ := HMap.mem_entries_iff.1 h₁
      have hp₂ := HMap.mem_entries_iff.1 h₂
      cases h.distinct _ _ _ _ hp₁ hp₂ (UInt8.toNat_inj.1 heq)
      rw [hp₁] at hp₂
      cases hp₂
      rfl
    refine hindices.sublist ?_
    rw [List.map_map]
    have hsub := (List.filter_sublist (p := fun p : AudioPeer => p.committed)
      (l := room.peers.entries.map (·.2))).map (rosterKey ∘ AudioPeer.rosterPeer)
    rw [List.map_map] at hsub
    exact hsub

/-- What was sent numbers the revisions and folds to the roster. -/
structure Room.RosterOk (room : Room) : Prop where
  revision : room.guard.rosterRevision = UInt64.ofNat room.sent.length
  revisions : ∀ k d, room.sent[k]? = some d → d.revision = UInt64.ofNat (k + 1)
  roster : room.rosterSnapshot = room.sent.foldl RosterSnapshot.apply .empty

theorem RosterSnapshot.ext {a b : RosterSnapshot} (hrevision : a.revision = b.revision)
    (hpeers : a.peers = b.peers) : a = b := by
  cases a; cases b; cases hrevision; cases hpeers; rfl

/-- A step that nobody hears of. -/
theorem Room.RosterOk.silent (h : room.RosterOk) (hseats : room.SeatsOk)
    (hseats' : room'.SeatsOk)
    (hrevision : room'.guard.rosterRevision = room.guard.rosterRevision)
    (hsent : room'.sent = room.sent)
    (hmem : ∀ q, q ∈ room'.rosterSnapshot.peers ↔ q ∈ room.rosterSnapshot.peers) :
    room'.RosterOk where
  revision := by rw [hrevision, hsent, h.revision]
  revisions := by rw [hsent]; exact h.revisions
  roster := by
    rw [hsent, ← h.roster]
    exact RosterSnapshot.ext hrevision (hseats'.sorted.ext hseats.sorted hmem)

/-- A step that is broadcast. -/
theorem Room.RosterOk.publish (h : room.RosterOk) {joined left : Option RosterPeer}
    (hrevision : room'.guard.rosterRevision = room.guard.rosterRevision)
    (hsent : room'.sent = room.sent)
    (hroster : room'.rosterSnapshot.peers =
      (room.rosterSnapshot.apply ⟨room.guard.rosterRevision + 1, joined, left⟩).peers) :
    (room'.publish joined left).1.RosterOk := by
  have hnext : room.guard.rosterRevision + 1 = UInt64.ofNat (room.sent.length + 1) := by
    rw [h.revision, UInt64.ofNat_add]
    rfl
  refine ⟨?_, fun k d hd => ?_, ?_⟩
  · show room'.guard.rosterRevision + 1 = UInt64.ofNat (room'.sent ++ [_]).length
    rw [hrevision, hsent, hnext, List.length_append, List.length_singleton]
  · have hd : (room.sent ++ [⟨room.guard.rosterRevision + 1, joined, left⟩])[k]? = some d := by
      rw [← hsent, ← hrevision]
      exact hd
    rcases getElem?_snoc_cases hd with ⟨rfl, rfl⟩ | ⟨-, hd⟩
    · exact hnext
    · exact h.revisions k d hd
  · show _ = (room'.sent ++ [_]).foldl RosterSnapshot.apply .empty
    rw [List.foldl_append, hsent, ← h.roster]
    refine RosterSnapshot.ext rfl ?_
    show room'.rosterSnapshot.peers = _
    rw [hroster, ← hrevision]
    rfl

theorem Room.SeatsOk.commit (h : room.SeatsOk) (hp : room.peers.lookup id = some p) :
    SeatsOk { room with peers := room.peers.insert id { p with committed := true } } := by
  refine h.congr rfl rfl ?_ fun id' p' hp' => ?_
  · show HMap.keySet (room.peers.insert id _) = _
    rw [HMap.keySet_insert, Finset.insert_eq_self, HMap.mem_keySet, hp]
    rfl
  · rcases HMap.lookup_insert_cases hp' with ⟨rfl, rfl⟩ | ⟨-, hp'⟩
    · exact ⟨p, hp, rfl, rfl⟩
    · exact ⟨p', hp', rfl, rfl⟩

theorem Room.mem_rosterSnapshot_commit (hp : room.peers.lookup id = some p) :
    q ∈ (rosterSnapshot
      { room with peers := room.peers.insert id { p with committed := true } }).peers ↔
      q = p.rosterPeer ∨ q ∈ room.rosterSnapshot.peers := by
  rw [mem_rosterSnapshot, mem_rosterSnapshot]
  constructor
  · rintro ⟨id', p', hp', hcommitted, rfl⟩
    rcases HMap.lookup_insert_cases hp' with ⟨-, rfl⟩ | ⟨-, hp'⟩
    · exact .inl rfl
    · exact .inr ⟨id', p', hp', hcommitted, rfl⟩
  · rintro (rfl | ⟨id', p', hp', hcommitted, rfl⟩)
    · exact ⟨id, _, AList.lookup_insert _, rfl, rfl⟩
    · by_cases hid : id' = id
      · subst hid
        rw [hp] at hp'
        cases hp'
        exact ⟨id', _, AList.lookup_insert _, rfl, rfl⟩
      · exact ⟨id', p', (AList.lookup_insert_ne hid).trans hp', hcommitted, rfl⟩

theorem Room.mem_rosterSnapshot_unseat (h : room.SeatsOk)
    (hp : room.peers.lookup id = some p) :
    q ∈ (room.unseat id p).rosterSnapshot.peers ↔
      q ∈ room.rosterSnapshot.peers ∧ ¬(p.committed = true ∧ q = p.rosterPeer) := by
  rw [mem_rosterSnapshot, mem_rosterSnapshot]
  constructor
  · rintro ⟨id', p', hp', hcommitted, rfl⟩
    rw [unseat, HMap.lookup_erase_ite] at hp'
    split at hp'
    · cases hp'
    · next hne =>
        refine ⟨⟨id', p', hp', hcommitted, rfl⟩, fun hsame => hne ?_⟩
        exact h.distinct _ _ _ _ hp' hp (congrArg RosterPeer.peerIndex hsame.2)
  · rintro ⟨⟨id', p', hp', hcommitted, rfl⟩, hother⟩
    refine ⟨id', p', ?_, hcommitted, rfl⟩
    rw [unseat, HMap.lookup_erase_ite, if_neg]
    · exact hp'
    · rintro rfl
      rw [hp] at hp'
      cases hp'
      exact hother ⟨hcommitted, rfl⟩

end Roster

/-! ## Admission -/

/-- A pending peer took a free seat of a room that had one. -/
structure Room.Admitted (room room' : Room) (id : Uuid) (p : AudioPeer) : Prop where
  running : room.guard.ended = false
  capacity : room.len < maxPeersPerRoom
  pending : p.committed = false
  free : p.peerIndex ∉ room.guard.activeIndices
  version : room.guard.pinnedVersion = none ∨ room.guard.pinnedVersion = some p.protocolVersion
  peers : room'.peers = room.peers.insert id p
  sent : room'.sent = room.sent
  active : room'.guard.activeIndices = insert p.peerIndex room.guard.activeIndices
  pinned : room'.guard.pinnedVersion = some p.protocolVersion
  ended : room'.guard.ended = room.guard.ended
  revision : room'.guard.rosterRevision = room.guard.rosterRevision

/-- An admission is refused and the room is as it was, or a seat was taken. -/
def Room.AdmitsOr (room : Room) (id : Uuid)
    (out : Room × Except AdmissionError PendingPeerAdmission) : Prop :=
  (∃ e, out = (room, .error e)) ∨
    ∃ p, out.2 = .ok (id, p.peerIndex, p.epoch, room.guard.rosterRevision) ∧
      room.Admitted out.1 id p

section Admission

variable {room : Room} {id : Uuid} {pubkey : String} {version index : UInt8}

theorem AdmissionGuard.mismatch_eq_none {g : AdmissionGuard} (h : g.mismatch version = none) :
    (g.pinnedVersion = none ∨ g.pinnedVersion = some version) ∧
      g.pinnedVersion.getD version = version := by
  unfold AdmissionGuard.mismatch at h
  split at h
  · next pinned hpinned =>
      split at h
      · cases h
      · next heq =>
          rw [hpinned, not_not.1 heq]
          exact ⟨.inr rfl, rfl⟩
  · next hpinned =>
      rw [hpinned]
      exact ⟨.inl rfl, rfl⟩

theorem Room.SeatsOk.addPeerPending (h : room.SeatsOk) :
    room.AdmitsOr id (room.addPeerPending id pubkey version) := by
  unfold Room.addPeerPending
  split
  · exact .inl ⟨_, rfl⟩
  · next hended =>
      split
      · exact .inl ⟨_, rfl⟩
      · next hcapacity =>
          have hcapacity : room.len < maxPeersPerRoom := Nat.lt_of_not_le hcapacity
          split
          · exact .inl ⟨_, rfl⟩
          · next hversion =>
              obtain ⟨hmatch, hpin⟩ := AdmissionGuard.mismatch_eq_none hversion
              obtain ⟨g', peerIndex, epoch, halloc, htaken⟩ :=
                AdmissionGuard.alloc_some (Nat.lt_of_le_of_lt h.card_le hcapacity)
              rw [halloc]
              refine .inr ⟨⟨pubkey, peerIndex, epoch, version, false⟩, ?_, ?_⟩
              · show Except.ok (id, peerIndex, epoch, g'.rosterRevision) = _
                rw [htaken.revision]
              · exact {
                  running := by simpa using hended
                  capacity := hcapacity
                  pending := rfl
                  free := htaken.free
                  version := hmatch
                  peers := rfl
                  sent := rfl
                  active := htaken.active
                  pinned := by
                    show some (g'.pinnedVersion.getD version) = some version
                    rw [htaken.pinned, hpin]
                  ended := htaken.ended
                  revision := htaken.revision }

theorem Room.addPeerAtIndexPending_spec :
    room.AdmitsOr id (room.addPeerAtIndexPending id pubkey version index) := by
  unfold addPeerAtIndexPending
  split
  · exact .inl ⟨_, rfl⟩
  · next hended =>
      split
      · exact .inl ⟨_, rfl⟩
      · next hfree =>
          obtain ⟨hcapacity, hfree⟩ := not_or.1 hfree
          split
          · exact .inl ⟨_, rfl⟩
          · next hversion =>
              obtain ⟨hmatch, hpin⟩ := AdmissionGuard.mismatch_eq_none hversion
              refine .inr ⟨⟨pubkey, index, _, version, false⟩, rfl, ?_⟩
              exact {
                running := by simpa using hended
                capacity := Nat.lt_of_not_le hcapacity
                pending := rfl
                free := hfree
                version := hmatch
                peers := rfl
                sent := rfl
                active := rfl
                pinned := congrArg some hpin
                ended := rfl
                revision := rfl }

end Admission

/-! ## Steps -/

/-- The seats and the roster of the room are sound, and its end is reported
once. -/
structure RoomRun.Ok (s : RoomRun) : Prop where
  seats : s.room.SeatsOk
  roster : s.room.RosterOk
  drawn : ∀ id p, s.room.peers.lookup id = some p → id ∈ s.drawn
  reports : s.endReports ≤ 1
  reported : s.endReports = 1 → s.room.guard.ended = true

section Steps

variable {s : RoomRun} {room' : Room} {id : Uuid} {p : AudioPeer} {room : Room}

theorem RoomRun.Ok.admitsOr (h : s.Ok) (hid : id ∉ s.drawn)
    {out : Room × Except AdmissionError PendingPeerAdmission} (hout : s.room.AdmitsOr id out) :
    Ok { s with room := out.1, drawn := id :: s.drawn } := by
  rcases hout with ⟨e, rfl⟩ | ⟨p, -, ha⟩
  · exact ⟨h.seats, h.roster, fun id' p' hp' => List.mem_cons_of_mem _ (h.drawn id' p' hp'),
      h.reports, h.reported⟩
  · have hnone : s.room.peers.lookup id = none := by
      cases hlookup : s.room.peers.lookup id with
      | none => rfl
      | some p => exact (hid (h.drawn id p hlookup)).elim
    have hseats : out.1.SeatsOk :=
      h.seats.seat hnone ha.capacity ha.peers ha.free ha.active ha.pinned ha.version
    refine ⟨hseats, ?_, ?_, h.reports, fun hreports => ha.ended.trans (h.reported hreports)⟩
    · refine h.roster.silent h.seats hseats ha.revision ha.sent fun q => ?_
      rw [mem_rosterSnapshot, mem_rosterSnapshot]
      constructor
      · rintro ⟨id', p', hp', hcommitted, hq⟩
        rw [ha.peers] at hp'
        rcases HMap.lookup_insert_cases hp' with ⟨-, rfl⟩ | ⟨-, hp'⟩
        · rw [ha.pending] at hcommitted
          cases hcommitted
        · exact ⟨id', p', hp', hcommitted, hq⟩
      · rintro ⟨id', p', hp', hcommitted, hq⟩
        refine ⟨id', p', ?_, hcommitted, hq⟩
        rw [ha.peers, AList.lookup_insert_ne (fun heq => ?_)]
        · exact hp'
        · rw [heq, hnone] at hp'
          cases hp'
    · intro id' p' hp'
      rw [ha.peers] at hp'
      rcases HMap.lookup_insert_cases hp' with ⟨rfl, -⟩ | ⟨-, hp'⟩
      · exact List.mem_cons_self
      · exact List.mem_cons_of_mem _ (h.drawn id' p' hp')

/-- Whether the room is ended is nobody's business here. -/
theorem Room.SeatsOk.setEnded (h : room.SeatsOk) (ended : Bool) :
    SeatsOk { room with guard := { room.guard with ended } } :=
  ⟨h.indices, h.distinct, h.seats, h.pinned⟩

theorem Room.RosterOk.setEnded (h : room.RosterOk) (ended : Bool) :
    RosterOk { room with guard := { room.guard with ended } } :=
  ⟨h.revision, h.revisions, h.roster⟩

theorem Room.SeatsOk.published (h : room.SeatsOk)
    (joined left : Option RosterPeer) :
    (room.publish joined left).1.SeatsOk :=
  ⟨h.indices, h.distinct, h.seats, h.pinned⟩

theorem RoomRun.Ok.commitPeer (h : s.Ok)
    (hprotocol : ∀ p, s.room.peers.lookup id = some p → p.committed = false) :
    Ok { s with room := (s.room.commitPeer id).1 } := by
  unfold Room.commitPeer
  split
  · exact h
  · next p hp =>
      have hseats := h.seats.commit hp
      have hnew : ∀ q ∈ s.room.rosterSnapshot.peers, rosterKey q ≠ rosterKey p.rosterPeer := by
        intro q hq heq
        obtain ⟨id', p', hp', hcommitted, rfl⟩ := mem_rosterSnapshot.1 hq
        cases h.seats.distinct _ _ _ _ hp' hp (rosterKey_inj heq)
        rw [hp] at hp'
        cases hp'
        rw [hprotocol p hp] at hcommitted
        cases hcommitted
      refine ⟨hseats.published _ _, ?_, ?_, h.reports, h.reported⟩
      · refine RosterOk.publish h.roster rfl rfl ?_
        refine hseats.sorted.ext ?_ fun q => ?_
        · exact SortedBy.orderedInsert (fun _ _ => UInt8.le_iff_toNat_le) h.seats.sorted hnew
        · rw [mem_rosterSnapshot_commit hp]
          exact (List.mem_orderedInsert _).symm
      · intro id' p' hp'
        rcases HMap.lookup_insert_cases hp' with ⟨rfl, -⟩ | ⟨-, hp'⟩
        · exact h.drawn _ p hp
        · exact h.drawn id' p' hp'

/-- A committed peer leaves, and the others hear of it. -/
theorem RoomRun.Ok.leave (h : s.Ok) (hp : s.room.peers.lookup id = some p)
    (hcommitted : p.committed = true) :
    Ok { s with
      room := ((s.room.unseat id p).publish none (some p.rosterPeer)).1 } := by
  have hseats := h.seats.unseat hp
  refine ⟨hseats.published _ _, ?_, ?_, h.reports, h.reported⟩
  · refine RosterOk.publish h.roster rfl rfl ?_
    refine hseats.sorted.ext (h.seats.sorted.filter _) fun q => ?_
    rw [mem_rosterSnapshot_unseat h.seats hp]
    show _ ↔ q ∈ s.room.rosterSnapshot.peers.filter (· ≠ p.rosterPeer)
    simp [hcommitted]
  · intro id' p' hp'
    have hp' : (s.room.peers.erase id).lookup id' = some p' := hp'
    rw [HMap.lookup_erase_ite] at hp'
    split at hp'
    · cases hp'
    · exact h.drawn id' p' hp'

/-- A pending peer is taken out again. -/
theorem RoomRun.Ok.withdraw (h : s.Ok) (hp : s.room.peers.lookup id = some p)
    (hpending : p.committed = false) : Ok { s with room := s.room.unseat id p } := by
  have hseats := h.seats.unseat hp
  refine ⟨hseats, ?_, ?_, h.reports, h.reported⟩
  · refine h.roster.silent h.seats hseats rfl rfl fun q => ?_
    rw [mem_rosterSnapshot_unseat h.seats hp]
    simp [hpending]
  · intro id' p' hp'
    have hp' : (s.room.peers.erase id).lookup id' = some p' := hp'
    rw [HMap.lookup_erase_ite] at hp'
    split at hp'
    · cases hp'
    · exact h.drawn id' p' hp'

/-- The end is reported to the one who ends the room. -/
theorem RoomRun.Ok.checkEnded (h : Ok { s with room }) :
    Ok (s.reported room.checkEnded.1 room.checkEnded.2) := by
  unfold Room.checkEnded
  split
  · next hrunning =>
      have hzero : s.endReports = 0 := by
        have hle := h.reports
        have hne : s.endReports ≠ 1 := fun hone => hrunning.1 (h.reported hone)
        dsimp only at hle
        omega
      refine ⟨h.seats.setEnded true, h.roster.setEnded true, h.drawn, ?_, fun _ => rfl⟩
      show s.endReports + 1 ≤ 1
      omega
  · exact h

theorem all_lookup_iff {o : Option AudioPeer} {f : AudioPeer → Bool} :
    o.all f = true ↔ ∀ p, o = some p → f p = true := by
  cases o <;> simp

theorem RoomRun.Ok.step (h : s.Ok) {move : RoomMove} (hprotocol : s.protocol move = true) :
    (s.step move).Ok := by
  cases move with
  | addPeerPending id pubkey version =>
      exact h.admitsOr (of_decide_eq_true hprotocol) h.seats.addPeerPending
  | addPeerAtIndexPending id pubkey version index =>
      exact h.admitsOr (of_decide_eq_true hprotocol) addPeerAtIndexPending_spec
  | commitPeer id =>
      have hpending := all_lookup_iff.1 hprotocol
      exact h.commitPeer fun p hp => by simpa using hpending p hp
  | removePeer id =>
      have hcommitted := all_lookup_iff.1 hprotocol
      simp only [RoomRun.step, removePeer]
      split
      · exact h
      · next p hp => exact h.leave hp (hcommitted p hp)
  | removePeerAndCheckEnded id =>
      have hcommitted := all_lookup_iff.1 hprotocol
      simp only [RoomRun.step, removePeerAndCheckEnded]
      split
      · exact h
      · next p hp => exact (h.leave hp (hcommitted p hp)).checkEnded
  | removePeerSilent id =>
      have hpending := all_lookup_iff.1 hprotocol
      simp only [RoomRun.step, removePeerSilent]
      split
      · exact h
      · next p hp => exact h.withdraw hp (by simpa using hpending p hp)
  | removePeerSilentAndCheckEnded id =>
      have hpending := all_lookup_iff.1 hprotocol
      simp only [RoomRun.step, removePeerSilentAndCheckEnded]
      split
      · exact h
      · next p hp => exact (h.withdraw hp (by simpa using hpending p hp)).checkEnded
  | markEnded =>
      exact ⟨h.seats.setEnded true, h.roster.setEnded true, h.drawn, h.reports, fun _ => rfl⟩
  | clearEnded =>
      exact ⟨h.seats.setEnded false, h.roster.setEnded false, h.drawn, Nat.zero_le _, nofun⟩

end Steps

/-! ## Runs -/

theorem RoomRun.ok_runFrom {s : RoomRun} (h : s.Ok) {ms : List RoomMove}
    (hms : audioRoom.Meets (fun s m => s.protocol m = true) s ms) : (audioRoom.runFrom s ms).Ok :=
  audioRoom.inv_runFrom (I := Ok) (fun _ _ hok hm => hok.step hm) h hms

theorem RoomRun.ok_init : audioRoom.init.Ok := by
  refine ⟨⟨fun i => ?_, by nofun, Nat.zero_le _, by nofun⟩, ⟨rfl, by nofun, ?_⟩, by nofun,
    Nat.zero_le _, by nofun⟩
  · constructor
    · intro hi
      exact (Finset.notMem_empty i hi).elim
    · rintro ⟨id, p, hp, -⟩
      cases hp
  · decide +kernel

/-- Deltas are only ever added. -/
theorem RoomRun.sent_step (s : RoomRun) (move : RoomMove) :
    ∃ new, (s.step move).room.sent = s.room.sent ++ new := by
  have hsame : ∀ room : Room, room.sent = s.room.sent → ∃ new, room.sent = s.room.sent ++ new :=
    fun room h => ⟨[], by rw [h, List.append_nil]⟩
  cases move with
  | addPeerPending id pubkey version =>
      refine hsame _ ?_
      simp only [step, addPeerPending]
      split <;> try rfl
      split <;> try rfl
      split <;> try rfl
      split <;> rfl
  | addPeerAtIndexPending id pubkey version index =>
      refine hsame _ ?_
      simp only [step, addPeerAtIndexPending]
      split <;> try rfl
      split <;> try rfl
      split <;> rfl
  | commitPeer id =>
      simp only [step, commitPeer]
      split
      · exact hsame _ rfl
      · exact ⟨_, rfl⟩
  | removePeer id =>
      simp only [step, removePeer]
      split
      · exact hsame _ rfl
      · exact ⟨_, rfl⟩
  | removePeerAndCheckEnded id =>
      simp only [step, removePeerAndCheckEnded]
      split
      · exact hsame _ rfl
      · simp only [reported, checkEnded]
        split
        · exact ⟨_, rfl⟩
        · exact ⟨_, rfl⟩
  | removePeerSilent id =>
      simp only [step, removePeerSilent]
      split <;> exact hsame _ rfl
  | removePeerSilentAndCheckEnded id =>
      simp only [step, removePeerSilentAndCheckEnded]
      split
      · exact hsame _ rfl
      · simp only [reported, checkEnded]
        split <;> exact hsame _ rfl
  | markEnded => exact hsame _ rfl
  | clearEnded => exact hsame _ rfl

theorem RoomRun.sent_runFrom (s : RoomRun) (ms : List RoomMove) :
    ∃ new, (audioRoom.runFrom s ms).room.sent = s.room.sent ++ new := by
  refine audioRoom.stable_runFrom (I := fun s' => ∃ new, s'.room.sent = s.room.sent ++ new) ?_
    ⟨[], by rw [List.append_nil]⟩ ms
  rintro s' move ⟨new, hnew⟩
  obtain ⟨new', hnew'⟩ := s'.sent_step move
  exact ⟨new ++ new', by rw [← List.append_assoc, ← hnew]; exact hnew'⟩

/-- Every room a run of the callers' protocol reaches: indices and seats agree,
one peer an index, no more than the room seats and all of the pinned version;
the deltas count the revisions, and folding them gives the snapshot, from the
empty roster as from any snapshot on the way; an admission that is refused
leaves no trace, none succeeds while the room is ended, and the end is reported
at most once until it is undone. -/
theorem huddle_roster_exact (ms later : List RoomMove)
    (hms : audioRoom.Meets (fun s m => s.protocol m = true) audioRoom.init (ms ++ later)) :
    let s := audioRoom.run ms
    let s' := audioRoom.run (ms ++ later)
    (∀ i, i ∈ s.room.guard.activeIndices ↔
      ∃ id p, s.room.peers.lookup id = some p ∧ p.peerIndex = i) ∧
    (∀ id id' p p', s.room.peers.lookup id = some p → s.room.peers.lookup id' = some p' →
      p.peerIndex = p'.peerIndex → id = id') ∧
    s.room.len ≤ 25 ∧
    (∀ id p, s.room.peers.lookup id = some p →
      s.room.guard.pinnedVersion = some p.protocolVersion) ∧
    (∀ k d, s.room.sent[k]? = some d → d.revision.toNat = (k + 1) % 2 ^ 64) ∧
    s.room.rosterSnapshot.revision.toNat = s.room.sent.length % 2 ^ 64 ∧
    s.room.rosterSnapshot = s.room.sent.foldl RosterSnapshot.apply .empty ∧
    (∃ new, s'.room.sent = s.room.sent ++ new ∧
      s'.room.rosterSnapshot = new.foldl RosterSnapshot.apply s.room.rosterSnapshot) ∧
    (∀ id pubkey version index,
      (∀ e, (s.room.addPeerPending id pubkey version).2 = .error e →
        (s.room.addPeerPending id pubkey version).1 = s.room) ∧
      (∀ e, (s.room.addPeerAtIndexPending id pubkey version index).2 = .error e →
        (s.room.addPeerAtIndexPending id pubkey version index).1 = s.room) ∧
      (s.room.guard.ended = true →
        (s.room.addPeerPending id pubkey version).2 = .error .ended ∧
        (s.room.addPeerAtIndexPending id pubkey version index).2 = .error .ended)) ∧
    s.endReports ≤ 1 := by
  intro s s'
  obtain ⟨hbefore, hafter⟩ := audioRoom.meets_append.1 hms
  have hok : s.Ok := ok_runFrom ok_init hbefore
  have hok' : s'.Ok := ok_runFrom ok_init hms
  have hrefused : ∀ id out, s.room.AdmitsOr id out → ∀ e, out.2 = .error e → out.1 = s.room := by
    rintro id out (⟨e, rfl⟩ | ⟨p, hout, -⟩) e' he'
    · rfl
    · rw [hout] at he'
      cases he'
  refine ⟨hok.seats.indices, hok.seats.distinct, hok.seats.seats, hok.seats.pinned, ?_, ?_,
    hok.roster.roster, ?_, ?_, hok.reports⟩
  · intro k d hd
    rw [hok.roster.revisions k d hd, UInt64.toNat_ofNat']
  · show s.room.guard.rosterRevision.toNat = _
    rw [hok.roster.revision, UInt64.toNat_ofNat']
  · obtain ⟨new, hnew⟩ : ∃ new, s'.room.sent = s.room.sent ++ new := by
      show ∃ new, (audioRoom.run (ms ++ later)).room.sent = _
      rw [Machine.run_append]
      exact sent_runFrom s later
    refine ⟨new, hnew, ?_⟩
    rw [hok'.roster.roster, hnew, List.foldl_append, ← hok.roster.roster]
  · intro id pubkey version index
    refine ⟨hrefused id _ hok.seats.addPeerPending, hrefused id _ addPeerAtIndexPending_spec,
      fun hended => ?_⟩
    simp only [addPeerPending, addPeerAtIndexPending, hended, if_true, and_self]

/-- Two peers join, one of them is still pending when the other one leaves, and
a third one takes the index the mesh owner gave it. -/
theorem huddle_roster_exact_threePeers :
    let a := Uuid.ofByte 1
    let b := Uuid.ofByte 2
    let c := Uuid.ofByte 3
    let ms : List RoomMove :=
      [.addPeerPending a "alice" 3, .commitPeer a, .addPeerPending b "bob" 3,
        .addPeerAtIndexPending c "carol" 3 255, .commitPeer c]
    let later : List RoomMove := [.removePeer a, .removePeerSilent b, .removePeerAndCheckEnded c]
    (audioRoom.run ms).room.rosterSnapshot = ⟨2, [⟨"alice", 0, 0⟩, ⟨"carol", 255, 0⟩]⟩ ∧
      ∃ new, (audioRoom.run (ms ++ later)).room.sent = (audioRoom.run ms).room.sent ++ new ∧
        (audioRoom.run (ms ++ later)).room.rosterSnapshot =
          new.foldl RosterSnapshot.apply (audioRoom.run ms).room.rosterSnapshot := by
  intro a b c ms later
  obtain ⟨-, -, -, -, -, -, hroster, hlistener, -⟩ :=
    huddle_roster_exact ms later (by decide +kernel)
  refine ⟨?_, hlistener⟩
  rw [hroster]
  decide +kernel

end Buzz.Relay
