import Buzz.Mesh.Membership

/-!
# Mesh membership is sound under gossip

A record enters a table, a digest or a delta only from a runtime's own local
record or from another table, so whatever a node holds of a runtime, that
runtime made. A runtime makes its records in the order of their heartbeats and
of their versions at once, and this is what carries the version across the one
place where versions are not compared: an expired entry gives way to any fresh
record, but a fresh record is a later one.

The bound on how long a dead runtime is advertised needs no more than that. Its
records are all from before its last heartbeat, so past the TTL every table's
own check of the heartbeat hides them.
-/

namespace Buzz.Mesh

open Buzz.Lib MeshMembership

/-! ## One table -/

namespace MeshMembership

variable {n : MeshMembership} {record : GossipRecord} {peer : PeerState} {r : RuntimeId}
  {nowMillis : Nat}

/-- What a record does to the table: nothing, or it takes its runtime's entry
and leaves the connection as it was. -/
theorem applyGossipRecord_cases (n : MeshMembership) (record : GossipRecord) (nowMillis : Nat) :
    (n.applyGossipRecord record nowMillis).1 = n ∨
      (record.runtimeId ≠ n.localRuntimeId ∧ n.isExpired record nowMillis = false ∧
        ∃ state, (n.applyGossipRecord record nowMillis).1 =
            { n with peers := n.peers.insert record.runtimeId ⟨record, state⟩ } ∧
          ((n.peers.lookup record.runtimeId = none ∧ state = .disconnected) ∨
            ∃ peer, n.peers.lookup record.runtimeId = some peer ∧ state = peer.connectionState ∧
              (n.isLive peer nowMillis = true → peer.record.version < record.version))) := by
  unfold applyGossipRecord
  split
  · exact .inl rfl
  next hother =>
  split
  · exact .inl rfl
  next hfresh =>
  rw [Bool.not_eq_true] at hfresh
  split
  · next peer hpeer =>
      split
      · exact .inl rfl
      next hnewer =>
      refine .inr ⟨hother, hfresh, peer.connectionState, rfl, .inr ⟨peer, hpeer, rfl, ?_⟩⟩
      intro hlive
      rw [hlive, Bool.true_and, decide_eq_true_eq] at hnewer
      omega
  · next hnone => exact .inr ⟨hother, hfresh, .disconnected, rfl, .inl ⟨hnone, rfl⟩⟩

/-- Gossip leaves every entry's connection state alone. -/
theorem connectionState_applyGossipRecord (h : n.peers.lookup r = some peer)
    (record : GossipRecord) (nowMillis : Nat) :
    ∃ peer', (n.applyGossipRecord record nowMillis).1.peers.lookup r = some peer' ∧
      peer'.connectionState = peer.connectionState := by
  rcases n.applyGossipRecord_cases record nowMillis with hsame | ⟨-, -, state, happly, hstate⟩
  · rw [hsame]
    exact ⟨peer, h, rfl⟩
  · rw [happly]
    rw [HMap.lookup_insert_ite]
    split
    · next hr =>
        refine ⟨_, rfl, ?_⟩
        rw [hr] at h
        rcases hstate with ⟨hnone, -⟩ | ⟨peer', hpeer', hsame, -⟩
        · rw [hnone] at h
          cases h
        · rw [hpeer'] at h
          cases h
          exact hsame
    · exact ⟨peer, h, rfl⟩

theorem lookup_pruneExpiredAt (h : (n.pruneExpiredAt nowMillis).peers.lookup r = some peer) :
    n.peers.lookup r = some peer := by
  unfold pruneExpiredAt at h
  rw [HMap.lookup_retain] at h
  exact (Option.filter_eq_some_iff.1 h).1

/-- A change of connection states keeps the records. -/
theorem lookup_markConnectionState {id : RuntimeId} {state : ConnectionState}
    (h : (n.markConnectionState id state).peers.lookup r = some peer) :
    ∃ before, n.peers.lookup r = some before ∧ before.record = peer.record := by
  unfold markConnectionState at h
  rw [HMap.lookup_alter] at h
  split at h
  · next hr =>
      obtain ⟨before, hbefore, rfl⟩ := Option.map_eq_some_iff.1 h
      exact ⟨before, by rw [hr]; exact hbefore, rfl⟩
  · exact ⟨peer, h, rfl⟩

theorem lookup_syncConnectionStates {connected : RuntimeId → Bool}
    (h : (n.syncConnectionStates connected).peers.lookup r = some peer) :
    ∃ before, n.peers.lookup r = some before ∧ before.record = peer.record := by
  unfold syncConnectionStates at h
  rw [HMap.lookup_mapVals] at h
  obtain ⟨before, hbefore, rfl⟩ := Option.map_eq_some_iff.1 h
  refine ⟨before, hbefore, ?_⟩
  unfold syncPeer
  split
  · rfl
  · split
    · rfl
    · rfl

/-- What a node advertises: an unexpired entry of its table, or itself. -/
theorem mem_recordsAt :
    record ∈ n.recordsAt nowMillis ↔
      (∃ r peer, n.peers.lookup r = some peer ∧ n.isExpired peer.record nowMillis = false ∧
        record = peer.record) ∨ record = n.localRecord := by
  unfold recordsAt
  rw [List.mem_append, List.mem_singleton, List.mem_map]
  refine or_congr ?_ Iff.rfl
  constructor
  · rintro ⟨peer, hpeer, rfl⟩
    obtain ⟨hentry, hfresh⟩ := List.mem_filter.1 hpeer
    obtain ⟨entry, hmem, rfl⟩ := List.mem_map.1 hentry
    exact ⟨entry.1, entry.2, HMap.mem_entries_iff.1 hmem, by simpa using hfresh, rfl⟩
  · rintro ⟨r, peer, hpeer, hfresh, rfl⟩
    refine ⟨peer, List.mem_filter.2 ⟨?_, by simpa using hfresh⟩, rfl⟩
    exact List.mem_map.2 ⟨⟨r, peer⟩, HMap.mem_entries_iff.2 hpeer, rfl⟩

theorem mem_recordsAt_of_mem_deltaFor {digest : List GossipDigestEntry}
    (h : record ∈ n.deltaFor digest nowMillis) : record ∈ n.recordsAt nowMillis := by
  unfold deltaFor at h
  rw [List.mem_insertionSort] at h
  exact List.mem_of_mem_filter h

theorem mem_digest {entry : GossipDigestEntry} :
    entry ∈ n.digest nowMillis ↔
      ∃ record ∈ n.recordsAt nowMillis, entry = ⟨record.runtimeId, record.version⟩ := by
  unfold digest
  rw [List.mem_insertionSort, List.mem_map]
  constructor
  · rintro ⟨record, hrecord, rfl⟩
    exact ⟨record, hrecord, rfl⟩
  · rintro ⟨record, hrecord, rfl⟩
    exact ⟨record, hrecord, rfl⟩

end MeshMembership

/-! ## One step -/

/-- What a step can do to one node's table. -/
inductive NodeStep (s : MeshRun) (n : MeshMembership) : MeshMembership → Prop
  | applied (records : List GossipRecord) (hflying : .delta records ∈ s.inFlight)
      (record : GossipRecord) (hrecord : record ∈ records) :
      NodeStep s n (n.applyGossipRecord record s.nowMillis).1
  | pruned : NodeStep s n (n.pruneExpiredAt s.nowMillis)
  | marked (id : RuntimeId) (state : ConnectionState) :
      NodeStep s n (n.markConnectionState id state)
  | synced (connected : RuntimeId → Bool) : NodeStep s n (n.syncConnectionStates connected)

/-- What a step can do to the mesh. -/
inductive MeshStep (s : MeshRun) : MeshRun → Prop
  | same : MeshStep s s
  | booted (record : GossipRecord) (ttl : Nat)
      (hfresh : ∀ n ∈ s.nodes, n.localRuntimeId ≠ record.runtimeId)
      (hversion : record.version = 1) (hbeat : record.heartbeatMillis = s.nowMillis) :
      MeshStep s { s with
        nodes := s.nodes ++ [.new record ttl]
        produced := s.produced ++ [(record.runtimeId, record)] }
  | ticked (millis : Nat) : MeshStep s { s with nowMillis := s.nowMillis + millis }
  | updated (i : Nat) (n : MeshMembership) (hn : s.nodes[i]? = some n) (update : LocalUpdate) :
      MeshStep s { s with
        nodes := s.nodes.set i (n.updateLocal update s.nowMillis)
        produced := s.produced ++
          [(n.localRuntimeId, (n.updateLocal update s.nowMillis).localRecord)] }
  | sentDigest (entries : List GossipDigestEntry) : MeshStep s (s.send (.digest entries))
  | sentDelta (i : Nat) (n : MeshMembership) (hn : s.nodes[i]? = some n)
      (entries : List GossipDigestEntry) :
      MeshStep s (s.send (.delta (n.deltaFor entries s.nowMillis)))
  | worked (i : Nat) (n n' : MeshMembership) (hn : s.nodes[i]? = some n) (h : NodeStep s n n')
      (hid : n'.localRuntimeId = n.localRuntimeId) (hlocal : n'.localRecord = n.localRecord) :
      MeshStep s { s with nodes := s.nodes.set i n' }

namespace MeshRun

variable {s : MeshRun} {m : MeshMove}

theorem atNode_spec {f : MeshMembership → MeshMembership} (node : Nat)
    (hstep : ∀ n, s.nodes[node]? = some n → NodeStep s n (f n))
    (hid : ∀ n, (f n).localRuntimeId = n.localRuntimeId)
    (hlocal : ∀ n, (f n).localRecord = n.localRecord) : MeshStep s (s.atNode node f) := by
  unfold atNode
  split
  · exact .same
  · next n hn => exact .worked node n (f n) hn (hstep n hn) (hid n) (hlocal n)

theorem step_spec (m : MeshMove) : MeshStep s (s.step m) := by
  cases m with
  | boot runtimeId endpointAddrs protoVersion peerRecordTtl =>
      show MeshStep s (s.boot runtimeId endpointAddrs protoVersion peerRecordTtl)
      unfold boot
      split
      · exact .same
      · next hfresh =>
          refine .booted (.new runtimeId endpointAddrs protoVersion s.nowMillis) peerRecordTtl
            ?_ rfl rfl
          intro n hn hsame
          exact hfresh (List.any_eq_true.2 ⟨n, hn, beq_iff_eq.2 hsame⟩)
  | tick millis => exact .ticked millis
  | updateLocal node update =>
      show MeshStep s (s.updateLocal node update)
      unfold updateLocal
      split
      · exact .same
      · next n hn => exact .updated node n hn update
  | sendDigest node =>
      show MeshStep s (s.sendDigest node)
      unfold sendDigest
      split
      · exact .same
      · exact .sentDigest _
  | answerDigest node message =>
      show MeshStep s (s.answerDigest node message)
      unfold answerDigest
      split
      · next n entries hn hmessage => exact .sentDelta node n hn entries
      · exact .same
  | applyDelta node message record =>
      show MeshStep s (s.applyDelta node message record)
      unfold applyDelta
      split
      · next records hmessage =>
          split
          · next arrived harrived =>
              refine atNode_spec node ?_ ?_ ?_
              · intro n hn
                exact .applied records (List.mem_of_getElem? hmessage) arrived
                  (List.mem_of_getElem? harrived)
              · intro n
                rcases n.applyGossipRecord_cases arrived s.nowMillis with h | ⟨-, -, _, h, -⟩
                · rw [h]
                · rw [h]
              · intro n
                rcases n.applyGossipRecord_cases arrived s.nowMillis with h | ⟨-, -, _, h, -⟩
                · rw [h]
                · rw [h]
          · exact .same
      · exact .same
  | pruneExpired node =>
      exact atNode_spec node (fun n _ => .pruned) (fun _ => rfl) fun _ => rfl
  | markConnectionState node runtimeId state =>
      exact atNode_spec node (fun n _ => .marked runtimeId state) (fun _ => rfl) fun _ => rfl
  | syncConnectionStates node connected =>
      exact atNode_spec node (fun n _ => .synced connected) (fun _ => rfl) fun _ => rfl

end MeshRun

/-! ## Whole runs -/

/-- A node's own record is its newest, and its table holds what the others
made. -/
structure NodeSound (s : MeshRun) (n : MeshMembership) : Prop where
  own : n.localRecord.runtimeId = n.localRuntimeId
  made : (n.localRuntimeId, n.localRecord) ∈ s.produced
  version : ∀ record, (n.localRuntimeId, record) ∈ s.produced →
    record.version ≤ n.localRecord.version
  beat : ∀ record, (n.localRuntimeId, record) ∈ s.produced →
    record.heartbeatMillis ≤ n.localRecord.heartbeatMillis
  other : ∀ r peer, n.peers.lookup r = some peer → r ≠ n.localRuntimeId
  held : ∀ r peer, n.peers.lookup r = some peer → (r, peer.record) ∈ s.produced

def MeshRun.runtimeIds (s : MeshRun) : List RuntimeId :=
  s.nodes.map localRuntimeId

/-- Whatever a node holds or a message carries was made by the runtime it is
about, and no two nodes share a runtime id. -/
structure MeshSound (s : MeshRun) : Prop where
  node : ∀ (i : Nat) n, s.nodes[i]? = some n → NodeSound s n
  distinct : s.runtimeIds.Nodup
  booted : ∀ r record, (r, record) ∈ s.produced → r ∈ s.runtimeIds
  flying : ∀ records, .delta records ∈ s.inFlight → ∀ record ∈ records,
    (record.runtimeId, record) ∈ s.produced
  named : ∀ r record, (r, record) ∈ s.produced → record.runtimeId = r
  past : ∀ r record, (r, record) ∈ s.produced → record.heartbeatMillis ≤ s.nowMillis
  bounded : ∀ r record, (r, record) ∈ s.produced → record.version ≤ 2 ^ 64 - 1
  /-- A later heartbeat comes with no lower version. -/
  ordered : ∀ r a b, (r, a) ∈ s.produced → (r, b) ∈ s.produced →
    a.heartbeatMillis < b.heartbeatMillis → a.version ≤ b.version

namespace MeshSound

variable {s s' : MeshRun} {n n' : MeshMembership} {i : Nat}
  {record : GossipRecord} {r : RuntimeId} {peer : PeerState}

theorem start : MeshSound mesh.init where
  node := by intro i n h; cases h
  distinct := List.nodup_nil
  booted := by intro r record h; cases h
  flying := by intro records h; cases h
  named := by intro r record h; cases h
  past := by intro r record h; cases h
  bounded := by intro r record h; cases h
  ordered := by intro r a b h; cases h

section

variable (hs : MeshSound s)
include hs

/-- What a node advertises, its runtime made. -/
theorem advertised (hn : s.nodes[i]? = some n) {nowMillis : Nat}
    (h : record ∈ n.recordsAt nowMillis) :
    (record.runtimeId, record) ∈ s.produced := by
  have hnode := hs.node i n hn
  rcases mem_recordsAt.1 h with ⟨r, peer, hpeer, -, rfl⟩ | rfl
  · have hmade := hnode.held r peer hpeer
    rw [hs.named r peer.record hmade]
    exact hmade
  · rw [hnode.own]
    exact hnode.made

omit hs in
/-- More was produced, of other runtimes. -/
theorem node_append (hnode : NodeSound s n) (hr : r ≠ n.localRuntimeId)
    (hproduced : s'.produced = s.produced ++ [(r, record)]) :
    NodeSound s' n := by
  have hold : ∀ record', (n.localRuntimeId, record') ∈ s'.produced →
      (n.localRuntimeId, record') ∈ s.produced := by
    intro record' h
    rw [hproduced, List.mem_append, List.mem_singleton] at h
    rcases h with h | h
    · exact h
    · cases h
      exact absurd rfl hr
  have hkeep : ∀ p ∈ s.produced, p ∈ s'.produced := by
    intro p hp
    rw [hproduced]
    exact List.mem_append_left _ hp
  exact {
    own := hnode.own
    made := hkeep _ hnode.made
    version := fun record' h => hnode.version record' (hold record' h)
    beat := fun record' h => hnode.beat record' (hold record' h)
    other := hnode.other
    held := fun r' peer h => hkeep _ (hnode.held r' peer h) }

theorem boot {ttl : Nat}
    (hfresh : ∀ n ∈ s.nodes, n.localRuntimeId ≠ record.runtimeId)
    (hversion : record.version = 1)
    (hbeat : record.heartbeatMillis = s.nowMillis) :
    MeshSound { s with
      nodes := s.nodes ++ [.new record ttl]
      produced := s.produced ++ [(record.runtimeId, record)] } := by
  -- Nothing was produced under the new runtime's name before.
  have hnone : ∀ record', (record.runtimeId, record') ∉ s.produced := by
    intro record' h
    obtain ⟨n, hn, hid⟩ := List.mem_map.1 (hs.booted _ _ h)
    exact hfresh n hn hid
  have hids : s.runtimeIds ++ [record.runtimeId] =
      (s.nodes ++ [new record ttl]).map localRuntimeId := by
    rw [List.map_append]
    rfl
  have hcases : ∀ r record', (r, record') ∈ s.produced ++ [(record.runtimeId, record)] →
      (r, record') ∈ s.produced ∨ (r = record.runtimeId ∧ record' = record) := by
    intro r record' h
    rw [List.mem_append, List.mem_singleton, Prod.mk.injEq] at h
    exact h
  refine ⟨?_, ?_, ?_, ?_, ?_, ?_, ?_, ?_⟩
  · intro i n hn
    rcases getElem?_snoc_cases hn with ⟨-, rfl⟩ | ⟨-, hn⟩
    · have hown : ∀ record', (record.runtimeId, record') ∈
          s.produced ++ [(record.runtimeId, record)] → record' = record := by
        intro record' h
        rcases hcases _ _ h with h | ⟨-, h⟩
        · exact absurd h (hnone record')
        · exact h
      exact {
        own := rfl
        made := List.mem_append_right _ (List.mem_singleton.2 rfl)
        version := fun record' h => by rw [hown record' h]; exact Nat.le_refl _
        beat := fun record' h => by rw [hown record' h]; exact Nat.le_refl _
        other := by intro r peer h; cases h
        held := by intro r peer h; cases h }
    · have hne := hfresh n (List.mem_of_getElem? hn)
      exact node_append (hs.node i n hn) hne.symm rfl
  · show List.Nodup (List.map _ _)
    rw [← hids, List.nodup_append]
    refine ⟨hs.distinct, List.nodup_singleton _, ?_⟩
    intro r hr r' hr' heq
    obtain ⟨n, hn, rfl⟩ := List.mem_map.1 hr
    rw [List.mem_singleton] at hr'
    exact hfresh n hn (heq.trans hr')
  · intro r record' h
    show r ∈ List.map _ _
    rw [← hids]
    rcases hcases r record' h with h | ⟨rfl, -⟩
    · exact List.mem_append_left _ (hs.booted r record' h)
    · exact List.mem_append_right _ (List.mem_singleton.2 rfl)
  · intro records h record' hrecord
    exact List.mem_append_left _ (hs.flying records h record' hrecord)
  · intro r record' h
    rcases hcases r record' h with h | ⟨rfl, rfl⟩
    · exact hs.named r record' h
    · rfl
  · intro r record' h
    rcases hcases r record' h with h | ⟨rfl, rfl⟩
    · exact hs.past r record' h
    · exact hbeat.le
  · intro r record' h
    rcases hcases r record' h with h | ⟨rfl, rfl⟩
    · exact hs.bounded r record' h
    · omega
  · intro r a b ha hb hlt
    rcases hcases r a ha with ha | ⟨rfl, rfl⟩
    · rcases hcases r b hb with hb | ⟨rfl, rfl⟩
      · exact hs.ordered r a b ha hb hlt
      · exact absurd ha (hnone a)
    · rcases hcases _ b hb with hb | ⟨-, rfl⟩
      · exact absurd hb (hnone b)
      · omega

theorem tick (millis : Nat) :
    MeshSound { s with nowMillis := s.nowMillis + millis } := by
  refine ⟨?_, hs.distinct, hs.booted, hs.flying, hs.named, ?_, hs.bounded, hs.ordered⟩
  · intro i n hn
    exact { hs.node i n hn with }
  · intro r record h
    exact (hs.past r record h).trans (Nat.le_add_right _ _)

omit hs in
theorem runtimeIds_set (hn : s.nodes[i]? = some n) (hid : n'.localRuntimeId = n.localRuntimeId)
    (hnodes : s'.nodes = s.nodes.set i n') : s'.runtimeIds = s.runtimeIds := by
  refine List.ext_getElem? fun j => ?_
  rw [MeshRun.runtimeIds, MeshRun.runtimeIds, hnodes, List.getElem?_map, List.getElem?_map,
    List.getElem?_set]
  split
  · next hij =>
      subst hij
      rw [if_pos (List.getElem?_eq_some_iff.1 hn).1, hn, Option.map_some, Option.map_some, hid]
  · rfl

/-- No two nodes are of one runtime. -/
theorem index_eq {j : Nat} (hn : s.nodes[i]? = some n)
    (hn' : s.nodes[j]? = some n') (hid : n.localRuntimeId = n'.localRuntimeId) :
    i = j := by
  have hi : i < s.runtimeIds.length := by
    rw [MeshRun.runtimeIds, List.length_map]
    exact (List.getElem?_eq_some_iff.1 hn).1
  refine (List.getElem?_inj hi hs.distinct).1 ?_
  rw [MeshRun.runtimeIds, List.getElem?_map, List.getElem?_map, hn, hn', Option.map_some,
    Option.map_some, hid]

theorem update (hn : s.nodes[i]? = some n) (update : LocalUpdate) :
    MeshSound { s with
      nodes := s.nodes.set i (n.updateLocal update s.nowMillis)
      produced := s.produced ++
        [(n.localRuntimeId, (n.updateLocal update s.nowMillis).localRecord)] } := by
  have hnode := hs.node i n hn
  generalize hn' : n.updateLocal update s.nowMillis = n'
  have hid : n'.localRuntimeId = n.localRuntimeId := by rw [← hn']; rfl
  have hpeers : n'.peers = n.peers := by rw [← hn']; rfl
  have hbeat : n'.localRecord.heartbeatMillis = s.nowMillis := by rw [← hn']; rfl
  have hown : n'.localRecord.runtimeId = n.localRuntimeId := by
    rw [← hn', ← hnode.own]
    exact update.runtimeId n.localRecord
  have hversion : n'.localRecord.version = nextVersion n.localRecord.version := by
    rw [← hn', ← update.version n.localRecord]
    rfl
  have hbound := hs.bounded _ _ hnode.made
  -- The new record's version and heartbeat are no lower than any before.
  have hnewest : ∀ record, (n.localRuntimeId, record) ∈ s.produced →
      record.version ≤ n'.localRecord.version := by
    intro record h
    have hle := hnode.version record h
    rw [hversion, nextVersion]
    omega
  have hcases : ∀ r record, (r, record) ∈ s.produced ++ [(n.localRuntimeId, n'.localRecord)] →
      (r, record) ∈ s.produced ∨ (r = n.localRuntimeId ∧ record = n'.localRecord) := by
    intro r record h
    rw [List.mem_append, List.mem_singleton, Prod.mk.injEq] at h
    exact h
  refine ⟨?_, ?_, ?_, ?_, ?_, ?_, ?_, ?_⟩
  · intro j n₂ hn₂
    rcases getElem?_set_cases hn₂ with ⟨rfl, rfl, -⟩ | ⟨hj, hn₂⟩
    · refine ⟨by rw [hown, hid], ?_, ?_, ?_, ?_, ?_⟩
      · rw [hid]
        exact List.mem_append_right _ (List.mem_singleton.2 rfl)
      · intro record h
        rw [hid] at h
        rcases hcases _ _ h with h | ⟨-, rfl⟩
        · exact hnewest record h
        · exact Nat.le_refl _
      · intro record h
        rw [hid] at h
        rw [hbeat]
        rcases hcases _ _ h with h | ⟨-, rfl⟩
        · exact hs.past _ _ h
        · exact hbeat.le
      · intro r peer h
        rw [hpeers] at h
        rw [hid]
        exact hnode.other r peer h
      · intro r peer h
        rw [hpeers] at h
        exact List.mem_append_left _ (hnode.held r peer h)
    · refine node_append (hs.node j n₂ hn₂) ?_ rfl
      intro hsame
      exact hj (hs.index_eq hn hn₂ hsame).symm
  · rw [runtimeIds_set hn hid rfl]
    exact hs.distinct
  · intro r record h
    rw [runtimeIds_set hn hid rfl]
    rcases hcases r record h with h | ⟨rfl, -⟩
    · exact hs.booted r record h
    · exact List.mem_map.2 ⟨n, List.mem_of_getElem? hn, rfl⟩
  · intro records h record hrecord
    exact List.mem_append_left _ (hs.flying records h record hrecord)
  · intro r record h
    rcases hcases r record h with h | ⟨rfl, rfl⟩
    · exact hs.named r record h
    · exact hown
  · intro r record h
    rcases hcases r record h with h | ⟨rfl, rfl⟩
    · exact hs.past r record h
    · exact hbeat.le
  · intro r record h
    rcases hcases r record h with h | ⟨rfl, rfl⟩
    · exact hs.bounded r record h
    · rw [hversion]
      exact Nat.min_le_right _ _
  · intro r a b ha hb hlt
    rcases hcases r a ha with ha | ⟨rfl, rfl⟩
    · rcases hcases r b hb with hb | ⟨rfl, rfl⟩
      · exact hs.ordered r a b ha hb hlt
      · exact hnewest a ha
    · rcases hcases _ b hb with hb | ⟨-, rfl⟩
      · have hpast := hs.past _ b hb
        omega
      · omega

theorem send {message : GossipMessage}
    (hmade : ∀ records, message = .delta records → ∀ record ∈ records,
      (record.runtimeId, record) ∈ s.produced) :
    MeshSound (s.send message) := by
  refine { hs with node := fun i n hn => { hs.node i n hn with }, flying := ?_ }
  intro records h
  rcases List.mem_append.1 h with h | h
  · exact hs.flying records h
  · exact hmade records (List.mem_singleton.1 h).symm

/-- What a step leaves in a node's table, it held before or was in flight. -/
theorem held_nodeStep (hn : s.nodes[i]? = some n) (h : NodeStep s n n')
    (hpeer : n'.peers.lookup r = some peer) :
    r ≠ n.localRuntimeId ∧ (r, peer.record) ∈ s.produced := by
  have hnode := hs.node i n hn
  have hbefore : ∀ before, n.peers.lookup r = some before → before.record = peer.record →
      r ≠ n.localRuntimeId ∧ (r, peer.record) ∈ s.produced := by
    intro before hbefore hsame
    rw [← hsame]
    exact ⟨hnode.other r before hbefore, hnode.held r before hbefore⟩
  cases h with
  | applied records hflying record hrecord =>
      rcases n.applyGossipRecord_cases record s.nowMillis with hsame | ⟨hother, -, state, happly, -⟩
      · rw [hsame] at hpeer
        exact hbefore peer hpeer rfl
      · rw [happly] at hpeer
        rcases HMap.lookup_insert_cases hpeer with ⟨rfl, rfl⟩ | ⟨-, hpeer⟩
        · exact ⟨hother, hs.flying records hflying record hrecord⟩
        · exact hbefore peer hpeer rfl
  | pruned => exact hbefore peer (lookup_pruneExpiredAt hpeer) rfl
  | marked id state =>
      obtain ⟨before, hpeer, hsame⟩ := lookup_markConnectionState hpeer
      exact hbefore before hpeer hsame
  | synced connected =>
      obtain ⟨before, hpeer, hsame⟩ := lookup_syncConnectionStates hpeer
      exact hbefore before hpeer hsame

theorem work (hn : s.nodes[i]? = some n) (h : NodeStep s n n')
    (hid : n'.localRuntimeId = n.localRuntimeId)
    (hlocal : n'.localRecord = n.localRecord) :
    MeshSound { s with nodes := s.nodes.set i n' } := by
  have hids : MeshRun.runtimeIds { s with nodes := s.nodes.set i n' } = s.runtimeIds :=
    runtimeIds_set hn hid rfl
  refine ⟨?_, ?_, ?_, hs.flying, hs.named, hs.past, hs.bounded, hs.ordered⟩
  · intro j n₂ hn₂
    rcases getElem?_set_cases hn₂ with ⟨rfl, rfl, -⟩ | ⟨-, hn₂⟩
    · have hnode := hs.node j n hn
      refine ⟨by rw [hlocal, hid]; exact hnode.own, by rw [hlocal, hid]; exact hnode.made,
        by rw [hlocal, hid]; exact hnode.version, by rw [hlocal, hid]; exact hnode.beat, ?_, ?_⟩
      · intro r peer hpeer
        rw [hid]
        exact (hs.held_nodeStep hn h hpeer).1
      · intro r peer hpeer
        exact (hs.held_nodeStep hn h hpeer).2
    · exact { hs.node j n₂ hn₂ with }
  · rw [hids]
    exact hs.distinct
  · rw [hids]
    exact hs.booted

theorem step (h : MeshStep s s') : MeshSound s' := by
  cases h with
  | same => exact hs
  | booted record ttl hfresh hversion hbeat => exact hs.boot hfresh hversion hbeat
  | ticked millis => exact hs.tick millis
  | updated i n hn update => exact hs.update hn update
  | sentDigest entries => exact hs.send fun records h => nomatch h
  | sentDelta i n hn entries =>
      refine hs.send ?_
      intro records h record hrecord
      cases h
      exact hs.advertised hn (mem_recordsAt_of_mem_deltaFor hrecord)
  | worked i n n' hn h hid hlocal => exact hs.work hn h hid hlocal

omit hs in
theorem run (ms : List MeshMove) : MeshSound (mesh.run ms) :=
  mesh.stable_runFrom (fun _ m hs => hs.step (MeshRun.step_spec m)) start ms

/-! ## Versions -/

/-- A node's entry for a runtime is replaced by no lower version. -/
theorem version_nodeStep (hn : s.nodes[i]? = some n) (h : NodeStep s n n')
    {peer' : PeerState} (hpeer : n.peers.lookup r = some peer)
    (hpeer' : n'.peers.lookup r = some peer') :
    peer.record.version ≤ peer'.record.version := by
  have hsame : ∀ before, n.peers.lookup r = some before → before.record = peer'.record →
      peer.record.version ≤ peer'.record.version := by
    intro before hbefore hrecord
    rw [hpeer] at hbefore
    cases hbefore
    rw [hrecord]
  cases h with
  | applied records hflying record hrecord =>
      rcases n.applyGossipRecord_cases record s.nowMillis with
        hidle | ⟨-, hfresh, state, happly, hstate⟩
      · rw [hidle] at hpeer'
        exact hsame peer' hpeer' rfl
      · rw [happly] at hpeer'
        rcases HMap.lookup_insert_cases hpeer' with ⟨rfl, rfl⟩ | ⟨-, hpeer'⟩
        · rcases hstate with ⟨hnone, -⟩ | ⟨before, hbefore, -, hnewer⟩
          · rw [hnone] at hpeer
            cases hpeer
          rw [hpeer] at hbefore
          cases hbefore
          cases hlive : n.isLive peer s.nowMillis with
          | true => exact (hnewer hlive).le
          | false =>
              -- The old entry is past the TTL and the new record is not, so it is later.
              have hold := (hs.node i n hn).held _ peer hpeer
              have hnew := hs.flying records hflying record hrecord
              refine hs.ordered _ peer.record record hold hnew ?_
              unfold isLive at hlive
              unfold isExpired at hlive hfresh
              simp at hlive hfresh
              omega
        · exact hsame peer' hpeer' rfl
  | pruned => exact hsame peer' (lookup_pruneExpiredAt hpeer') rfl
  | marked id state =>
      obtain ⟨before, hbefore, hrecord⟩ := lookup_markConnectionState hpeer'
      exact hsame before hbefore hrecord
  | synced connected =>
      obtain ⟨before, hbefore, hrecord⟩ := lookup_syncConnectionStates hpeer'
      exact hsame before hbefore hrecord

theorem version_step (h : MeshStep s s') (hn : s.nodes[i]? = some n)
    (hn' : s'.nodes[i]? = some n') {peer' : PeerState}
    (hpeer : n.peers.lookup r = some peer)
    (hpeer' : n'.peers.lookup r = some peer') :
    peer.record.version ≤ peer'.record.version := by
  have hsame : n'.peers = n.peers → peer.record.version ≤ peer'.record.version := by
    intro hpeers
    rw [hpeers, hpeer] at hpeer'
    cases hpeer'
    exact Nat.le_refl _
  have hstay : s'.nodes[i]? = s.nodes[i]? → peer.record.version ≤ peer'.record.version := by
    intro hnodes
    rw [hnodes, hn] at hn'
    cases hn'
    exact hsame rfl
  cases h with
  | same => exact hstay rfl
  | booted record ttl hfresh hversion hbeat =>
      exact hstay (List.getElem?_append_left (List.getElem?_eq_some_iff.1 hn).1)
  | ticked millis => exact hstay rfl
  | updated j n₀ hn₀ update =>
      rcases getElem?_set_before hn₀ hn hn' with ⟨rfl, rfl⟩ | rfl
      · exact hsame rfl
      · exact hsame rfl
  | sentDigest entries => exact hstay rfl
  | sentDelta j n₀ hn₀ entries => exact hstay rfl
  | worked j n₀ n₁ hn₀ h hid hlocal =>
      rcases getElem?_set_before hn₀ hn hn' with ⟨rfl, rfl⟩ | rfl
      · exact hs.version_nodeStep hn₀ h hpeer hpeer'
      · exact hsame rfl

end

end MeshSound

/-- A node's entry for a runtime. -/
def MeshRun.entry (s : MeshRun) (i : Nat) (r : RuntimeId) : Option PeerState :=
  s.nodes[i]?.bind fun n => n.peers.lookup r

theorem MeshRun.entry_eq_some {s : MeshRun} {i : Nat} {r : RuntimeId} {peer : PeerState}
    (h : s.entry i r = some peer) :
    ∃ n, s.nodes[i]? = some n ∧ n.peers.lookup r = some peer :=
  Option.bind_eq_some_iff.1 h

/-- While the entry is kept its version does not fall. -/
theorem version_kept (ms ms' : List MeshMove) (i : Nat) (r : RuntimeId)
    (hkept : ∀ k ≤ ms'.length, (mesh.run (ms ++ ms'.take k)).entry i r ≠ none)
    {peer peer' : PeerState} (hpeer : (mesh.run ms).entry i r = some peer)
    (hpeer' : (mesh.run (ms ++ ms')).entry i r = some peer') :
    peer.record.version ≤ peer'.record.version := by
  induction ms' using List.reverseRecOn generalizing peer' with
  | nil =>
      rw [List.append_nil, hpeer] at hpeer'
      cases hpeer'
      exact Nat.le_refl _
  | append_singleton ms' m ih =>
      have hmid := hkept ms'.length (by simp)
      rw [List.take_left] at hmid
      obtain ⟨middle, hmiddle⟩ := Option.ne_none_iff_exists'.1 hmid
      have hkept' : ∀ k ≤ ms'.length, (mesh.run (ms ++ ms'.take k)).entry i r ≠ none := by
        intro k hk
        have h := hkept k (by rw [List.length_append]; omega)
        rw [List.take_append_of_le_length hk] at h
        exact h
      refine (ih hkept' hmiddle).trans ?_
      rw [← List.append_assoc, Machine.run_snoc] at hpeer'
      obtain ⟨n, hn, hlookup⟩ := MeshRun.entry_eq_some hmiddle
      obtain ⟨n', hn', hlookup'⟩ := MeshRun.entry_eq_some hpeer'
      exact (MeshSound.run (ms ++ ms')).version_step (MeshRun.step_spec m) hn hn' hlookup hlookup'

/-! ## Dead runtimes -/

/-- The node does not dial the runtime, holds it for live only over a
connection, and advertises it only if it is the runtime. -/
structure Forgets (n : MeshMembership) (r : RuntimeId) (nowMillis : Nat) : Prop where
  digest : n.localRuntimeId ≠ r → ∀ entry ∈ n.digest nowMillis, entry.runtimeId ≠ r
  delta : n.localRuntimeId ≠ r → ∀ digest, ∀ record ∈ n.deltaFor digest nowMillis,
    record.runtimeId ≠ r
  dial : n.dialRecord r nowMillis = none
  live : ∀ peer, n.peers.lookup r = some peer → peer.connectionState ≠ .connected →
    n.isLive peer nowMillis = false ∧ n.hasPeer r nowMillis = false ∧
      ∀ capability, n.peerHasCapability r capability nowMillis = false

theorem MeshSound.forgets {s : MeshRun} (hs : MeshSound s) {i : Nat} {n : MeshMembership}
    (hn : s.nodes[i]? = some n) {r : RuntimeId} {t : Nat}
    (hlast : ∀ record, (r, record) ∈ s.produced → record.heartbeatMillis ≤ t)
    (hlate : n.peerRecordTtl < (s.nowMillis - t) * 1000000) : Forgets n r s.nowMillis := by
  have hnode := hs.node i n hn
  have hexpired : ∀ peer, n.peers.lookup r = some peer →
      n.isExpired peer.record s.nowMillis = true := by
    intro peer hpeer
    have hbeat := hlast peer.record (hnode.held r peer hpeer)
    have hage : s.nowMillis - t ≤ s.nowMillis - peer.record.heartbeatMillis := by omega
    rw [isExpired, decide_eq_true_eq]
    exact hlate.trans_le (Nat.mul_le_mul_right _ hage)
  have hrecord : n.localRuntimeId ≠ r →
      ∀ record ∈ n.recordsAt s.nowMillis, record.runtimeId ≠ r := by
    intro hr record hrecord hid
    rcases mem_recordsAt.1 hrecord with ⟨r', peer, hpeer, hfresh, rfl⟩ | rfl
    · have hname := hs.named r' peer.record (hnode.held r' peer hpeer)
      rw [hid] at hname
      subst hname
      rw [hexpired peer hpeer] at hfresh
      cases hfresh
    · rw [hnode.own] at hid
      exact hr hid
  have hdead : ∀ peer, n.peers.lookup r = some peer → peer.connectionState ≠ .connected →
      n.isLive peer s.nowMillis = false := by
    intro peer hpeer hstate
    unfold isLive
    rw [hexpired peer hpeer]
    simpa using hstate
  refine ⟨?_, ?_, ?_, ?_⟩
  · intro hr entry hentry
    obtain ⟨record, hmem, rfl⟩ := mem_digest.1 hentry
    exact hrecord hr record hmem
  · intro hr digest record hdelta
    exact hrecord hr record (mem_recordsAt_of_mem_deltaFor hdelta)
  · unfold dialRecord
    cases hpeer : n.peers.lookup r with
    | none => rfl
    | some peer => simp [hexpired peer hpeer]
  · intro peer hpeer hstate
    have hlive := hdead peer hpeer hstate
    exact ⟨hlive, by simp [hasPeer, hpeer, hlive],
      fun capability => by simp [peerHasCapability, hpeer, hlive]⟩

/-- What holds of the mesh after a run, and of any entry kept over a further
one. -/
structure MembershipHolds (ms : List MeshMove) : Prop where
  /-- What a node holds of a runtime, the runtime produced. -/
  held : ∀ n ∈ (mesh.run ms).nodes, ∀ r peer, n.peers.lookup r = some peer →
    (r, peer.record) ∈ (mesh.run ms).produced
  /-- What a node puts in a delta, its runtime produced. -/
  offered : ∀ n ∈ (mesh.run ms).nodes, ∀ digest,
    ∀ record ∈ n.deltaFor digest (mesh.run ms).nowMillis,
      (record.runtimeId, record) ∈ (mesh.run ms).produced
  version : ∀ ms' i r,
    (∀ k ≤ ms'.length, (mesh.run (ms ++ ms'.take k)).entry i r ≠ none) →
    ∀ peer peer', (mesh.run ms).entry i r = some peer →
      (mesh.run (ms ++ ms')).entry i r = some peer' → peer.record.version ≤ peer'.record.version
  /-- Past its last heartbeat and the TTL, a runtime is left to itself. -/
  forgotten : ∀ n ∈ (mesh.run ms).nodes, ∀ r t,
    (∀ record, (r, record) ∈ (mesh.run ms).produced → record.heartbeatMillis ≤ t) →
    n.peerRecordTtl < ((mesh.run ms).nowMillis - t) * 1000000 →
    Forgets n r (mesh.run ms).nowMillis
  /-- Gossip decides nothing about connections. -/
  undisturbed : ∀ n ∈ (mesh.run ms).nodes, ∀ record r peer, n.peers.lookup r = some peer →
    ∃ peer', (n.applyGossipRecord record (mesh.run ms).nowMillis).1.peers.lookup r = some peer' ∧
      peer'.connectionState = peer.connectionState

theorem mesh_membership_sound (ms : List MeshMove) : MembershipHolds ms where
  held := by
    intro n hn r peer hpeer
    obtain ⟨i, hi⟩ := List.mem_iff_getElem?.1 hn
    exact ((MeshSound.run ms).node i n hi).held r peer hpeer
  offered := by
    intro n hn digest record hrecord
    obtain ⟨i, hi⟩ := List.mem_iff_getElem?.1 hn
    have hmem := mem_recordsAt_of_mem_deltaFor hrecord
    exact (MeshSound.run ms).advertised hi hmem
  version := by
    intro ms' i r hkept peer peer' hpeer hpeer'
    exact version_kept ms ms' i r hkept hpeer hpeer'
  forgotten := by
    intro n hn r t hlast hlate
    obtain ⟨i, hi⟩ := List.mem_iff_getElem?.1 hn
    exact (MeshSound.run ms).forgets hi hlast hlate
  undisturbed := by
    intro n hn record r peer hpeer
    exact connectionState_applyGossipRecord hpeer record _

/-- A runtime boots and falls silent for the five minutes of the default TTL. -/
def silentRun : MeshRun := mesh.run [.boot (.ofByte 1) [] 1 300000000000, .tick 300001]

/-- It goes on advertising itself, past its last heartbeat and the TTL. -/
theorem silent_runtime_advertises_itself :
    (∀ made ∈ silentRun.produced, made.2.heartbeatMillis ≤ 0) ∧
      ∃ n ∈ silentRun.nodes, n.peerRecordTtl < (silentRun.nowMillis - 0) * 1000000 ∧
        n.digest silentRun.nowMillis = [⟨.ofByte 1, 1⟩] ∧
        (n.deltaFor [] silentRun.nowMillis).map GossipRecord.runtimeId = [.ofByte 1] := by
  refine ⟨?_, .new (.new (.ofByte 1) [] 1 0) 300000000000, ?_, ?_, rfl, rfl⟩
  · intro made hmade
    rw [List.mem_singleton.1 hmade]
    exact Nat.le_refl 0
  · exact List.mem_singleton.2 rfl
  · show 300000000000 < (300001 - 0) * 1000000
    omega

end Buzz.Mesh
