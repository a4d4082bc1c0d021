import Buzz.Proofs.QueueShape

/-!
# What the caps drop

Four operations put events back in front of the queue of a scope. The cap of the
scope then cuts the queue at its end, where the events are that came since. The
cap of the channel is another matter: it drops the oldest head of the channel's
queues until the channel is within it, as for any new event, and what was put
back is often the oldest.
-/

namespace Buzz.Acp

open Buzz.Lib (HMap)

variable {q q' : EventQueue} {order : Order} {queues queues' : Queues} {p : SessionScope → Bool}
  {scope other : SessionScope} {l l' events : List QueuedEvent} {channel : Uuid}
  {evicted dropped : ScopedEvents}

theorem mem_eligible {e : (_ : SessionScope) × List QueuedEvent} :
    (e ∈ (iter order queues).filter fun e => p e.1 && !e.2.isEmpty) ↔
      queues.lookup e.1 = some e.2 ∧ p e.1 = true ∧ e.2 ≠ [] := by
  rw [List.mem_filter, Bool.and_eq_true, Bool.not_eq_true', List.isEmpty_eq_false_iff]
  exact and_congr_left' mem_iter

/-- No other head was received before the one of the oldest scope. -/
theorem oldestScope_le (h : oldestScope order queues p = some scope)
    (hl : queues.lookup scope = some l) (hl' : queues.lookup other = some l') (hne' : l' ≠ [])
    (hp' : p other = true) : headReceivedAt l ≤ headReceivedAt l' := by
  unfold oldestScope at h
  obtain ⟨e, hmin, rfl⟩ := Option.map_eq_some_iff.1 h
  have heq : e.2 = l :=
    Option.some.inj ((mem_eligible.1 (List.argmin_mem hmin)).1.symm.trans hl)
  have hmem : (⟨other, l'⟩ : (_ : SessionScope) × List QueuedEvent) ∈
      (iter order queues).filter fun e => p e.1 && !e.2.isEmpty := mem_eligible.2 ⟨hl', hp', hne'⟩
  have hle := Nat.not_lt.1 (List.not_lt_of_mem_argmin hmem hmin)
  rwa [heq] at hle

/-! ## The channel cap -/

/-- A head of the channel that no other head of it was received before. -/
def OldestHead (channel : Uuid) (queues : Queues) (scope : SessionScope) (e : QueuedEvent)
    (rest : List QueuedEvent) : Prop :=
  scope.channelId = channel ∧ queues.lookup scope = some (e :: rest) ∧
    ∀ other e' rest', other.channelId = channel → queues.lookup other = some (e' :: rest') →
      e.receivedAt ≤ e'.receivedAt

/-- From these queues to those by dropping oldest heads, one after the other, as
long as the channel is over its cap and no longer. -/
inductive DropsOldest (channel : Uuid) : Queues → ScopedEvents → Queues → Prop
  | done {queues : Queues} (h : channelEventTotal queues channel ≤ maxPendingPerChannel) :
      DropsOldest channel queues [] queues
  | drop {queues queues' : Queues} {scope : SessionScope} {e : QueuedEvent}
      {rest : List QueuedEvent} {dropped : ScopedEvents}
      (hover : maxPendingPerChannel < channelEventTotal queues channel)
      (hhead : OldestHead channel queues scope e rest)
      (hrest : DropsOldest channel
        (if rest.isEmpty then queues.erase scope else queues.insert scope rest) dropped queues') :
      DropsOldest channel queues ((scope, e.intoBatchEvent) :: dropped) queues'

theorem OldestHead.total {e : QueuedEvent} {rest : List QueuedEvent}
    (h : OldestHead channel queues scope e rest) :
    channelEventTotal queues channel = channelEventTotal
      (if rest.isEmpty then queues.erase scope else queues.insert scope rest) channel + 1 := by
  rw [total_put, total_eq_add_erase queues scope, h.2.1]
  unfold share
  rw [if_pos h.1, if_pos h.1]
  show rest.length + 1 + _ = _
  omega

/-- Over the cap there is an oldest head, and it is dropped. -/
theorem exists_oldestHead (order : Order)
    (hover : maxPendingPerChannel < channelEventTotal queues channel) :
    ∃ scope e rest, OldestHead channel queues scope e rest ∧
      (oldestScope order queues fun s => s.channelId = channel).bind (popFront queues) =
        some (if rest.isEmpty then queues.erase scope else queues.insert scope rest,
          (scope, e.intoBatchEvent)) := by
  obtain ⟨s, l, hl, hne, hs⟩ := exists_of_total_pos (Nat.zero_lt_of_lt hover)
  cases holdest : oldestScope order queues fun s => s.channelId = channel with
  | none => exact absurd (oldestScope_none holdest hl (decide_eq_true hs)) hne
  | some victim =>
      obtain ⟨lv, hlv, hnev, hpv⟩ := oldestScope_some holdest
      cases lv with
      | nil => exact absurd rfl hnev
      | cons e rest =>
          refine ⟨victim, e, rest, ⟨of_decide_eq_true hpv, hlv, ?_⟩, ?_⟩
          · intro other e' rest' hother hl'
            exact oldestScope_le holdest hlv hl' (List.cons_ne_nil _ _) (decide_eq_true hother)
          · rw [Option.bind_some]
            unfold popFront
            rw [hlv]

theorem enforceChannelCapLoop_dropsOldest {fuel : Nat}
    (hfuel : channelEventTotal queues channel ≤ maxPendingPerChannel + fuel) :
    DropsOldest channel queues (enforceChannelCapLoop order channel fuel queues).2
      (enforceChannelCapLoop order channel fuel queues).1 := by
  induction fuel generalizing queues with
  | zero => exact .done hfuel
  | succ fuel ih =>
      rw [enforceChannelCapLoop]
      split
      · next hle => exact .done hle
      · next hover =>
          have hover : maxPendingPerChannel < channelEventTotal queues channel := Nat.not_le.1 hover
          obtain ⟨scope, e, rest, hhead, hpop⟩ := exists_oldestHead order hover
          have htotal := hhead.total
          rw [hpop]
          exact .drop hover hhead (ih (by omega))

theorem enforceChannelCap_dropsOldest :
    DropsOldest channel queues (enforceChannelCap order queues channel).2
      (enforceChannelCap order queues channel).1 :=
  enforceChannelCapLoop_dropsOldest (Nat.le_add_left _ _)

theorem DropsOldest.eq_nil (h : DropsOldest channel queues dropped queues')
    (hle : channelEventTotal queues channel ≤ maxPendingPerChannel) :
    dropped = [] ∧ queues' = queues := by
  cases h with
  | done => exact ⟨rfl, rfl⟩
  | drop hover => exact absurd hle (Nat.not_le.2 hover)

theorem enforceChannelCap_of_le
    (h : channelEventTotal queues channel ≤ maxPendingPerChannel) :
    enforceChannelCap order queues channel = (queues, []) := by
  unfold enforceChannelCap
  cases channelEventTotal queues channel with
  | zero => rfl
  | succ fuel =>
      rw [enforceChannelCapLoop, if_pos h]

theorem pushFrontAll_of_le
    (hscope : (events ++ (queues.lookup scope).getD []).length ≤ maxPendingPerScope)
    (hchannel : channelEventTotal (queues.insert scope (events ++ (queues.lookup scope).getD []))
      scope.channelId ≤ maxPendingPerChannel) :
    pushFrontAll order queues scope events =
      (queues.insert scope (events ++ (queues.lookup scope).getD []), []) := by
  unfold pushFrontAll
  dsimp only
  rw [List.take_of_length_le hscope, List.drop_of_length_le hscope,
    enforceChannelCap_of_le hchannel]
  rfl


/-! ## Putting back -/

/-- An operation that puts events back in front of the queue of a scope, the
queue after it, and what the caps dropped. -/
inductive PutsBack (q : EventQueue) :
    SessionScope → List QueuedEvent → EventQueue → ScopedEvents → Prop
  | requeue (now : Nat) (order : Order) (jitter : Nat) (batch : FlushBatch)
      (h : (q.requeue now order jitter batch).2.1 = none) :
      PutsBack q batch.scope (batch.events.map batch.requeued)
        (q.requeue now order jitter batch).1 (q.requeue now order jitter batch).2.2
  | requeuePreserveTimestamps (order : Order) (batch : FlushBatch) :
      PutsBack q batch.scope (batch.events.map batch.requeued)
        (q.requeuePreserveTimestamps order batch).1 (q.requeuePreserveTimestamps order batch).2
  | releaseNativeSteer (order : Order) (scope : SessionScope) (eventId : String)
      {entries : List QueuedEvent} {e : QueuedEvent}
      (hentries : q.withheldNativeSteer.lookup scope = some entries)
      (he : (entries.find? fun e => e.event.id.toHex = eventId) = some e) :
      PutsBack q scope [e]
        (q.releaseNativeSteer order scope eventId).1 (q.releaseNativeSteer order scope eventId).2
  | recoverWithheldForExpiredScope (order : Order) (scope : SessionScope)
      {entries : List QueuedEvent}
      (hentries : q.withheldNativeSteer.lookup scope = some entries) :
      PutsBack q scope entries (q.recoverWithheldForExpiredScope order scope).1
        (q.recoverWithheldForExpiredScope order scope).2

/-- All four go through the same steps. -/
theorem PutsBack.eq_pushFrontAll (h : PutsBack q scope events q' evicted) :
    ∃ order, (q'.queues, evicted) = pushFrontAll order q.queues scope events := by
  cases h with
  | requeue now order jitter batch h =>
      refine ⟨order, ?_⟩
      unfold EventQueue.requeue at h ⊢
      dsimp only at h ⊢
      split
      · next hdead =>
          rw [if_pos hdead] at h
          cases h
      · rfl
  | requeuePreserveTimestamps order batch =>
      refine ⟨order, ?_⟩
      unfold EventQueue.requeuePreserveTimestamps
      split <;> rfl
  | releaseNativeSteer order scope eventId hentries he =>
      refine ⟨order, ?_⟩
      unfold EventQueue.releaseNativeSteer
      rw [hentries]
      dsimp only
      rw [he]
  | recoverWithheldForExpiredScope order scope hentries =>
      refine ⟨order, ?_⟩
      unfold EventQueue.recoverWithheldForExpiredScope
      rw [hentries]

/-- The events waiting at a scope. -/
def EventQueue.waiting (q : EventQueue) (scope : SessionScope) : List QueuedEvent :=
  (q.queues.lookup scope).getD []

/-- The queues with the events put back and the scope within its cap. -/
def EventQueue.restored (q : EventQueue) (scope : SessionScope) (events : List QueuedEvent) :
    Queues :=
  q.queues.insert scope (events.take maxPendingPerScope ++
    (q.waiting scope).take (maxPendingPerScope - events.length))

theorem total_restored_alone
    (h : ∀ other ≠ scope, other.channelId = scope.channelId → q.waiting other = []) :
    channelEventTotal (q.restored scope events) scope.channelId ≤ maxPendingPerChannel := by
  have hzero : channelEventTotal (q.queues.erase scope) scope.channelId = 0 := by
    by_contra hpos
    obtain ⟨other, l, hl, hne, hother⟩ := exists_of_total_pos (Nat.pos_of_ne_zero hpos)
    rw [HMap.lookup_erase_ite] at hl
    split at hl
    · cases hl
    · next hscope =>
        have hnil := h other hscope hother
        unfold EventQueue.waiting at hnil
        rw [hl] at hnil
        exact hne hnil
  unfold EventQueue.restored
  rw [total_insert, hzero]
  unfold share
  rw [if_pos rfl, List.length_append, List.length_take, List.length_take]
  have hscope : maxPendingPerScope = 500 := rfl
  have hchannel : maxPendingPerChannel = 500 := rfl
  omega

theorem PutsBack.evicts (h : PutsBack q scope events q' evicted) :
    ∃ dropped, evicted = (events.drop maxPendingPerScope ++
        (q.waiting scope).drop (maxPendingPerScope - events.length)).map
          (fun e => (scope, e.intoBatchEvent)) ++ dropped ∧
      DropsOldest scope.channelId (q.restored scope events) dropped q'.queues := by
  obtain ⟨order, heq⟩ := h.eq_pushFrontAll
  have hqueues := congrArg Prod.fst heq
  have hevicted := congrArg Prod.snd heq
  unfold pushFrontAll at hqueues hevicted
  dsimp only at hqueues hevicted
  rw [List.take_append] at hqueues hevicted
  rw [List.drop_append] at hevicted
  refine ⟨_, hevicted, ?_⟩
  rw [hqueues]
  exact enforceChannelCap_dropsOldest

/-- What the caps drop when events are put back. The cap of the scope drops from
the end of its queue: what was put back only if it is over the cap by itself, and
then all that was waiting. The cap of the channel drops the oldest heads of the
channel, no more than it is over; nothing, if no other scope of the channel has
events waiting. -/
theorem put_back_evicts (q q' : EventQueue) (scope : SessionScope) (events : List QueuedEvent)
    (evicted : ScopedEvents) (h : PutsBack q scope events q' evicted) :
    ∃ dropped, evicted = (events.drop maxPendingPerScope ++
        (q.waiting scope).drop (maxPendingPerScope - events.length)).map
          (fun e => (scope, e.intoBatchEvent)) ++ dropped ∧
      DropsOldest scope.channelId (q.restored scope events) dropped q'.queues ∧
      ((∀ other ≠ scope, other.channelId = scope.channelId → q.waiting other = []) →
        dropped = [] ∧ q'.queues = q.restored scope events) := by
  obtain ⟨dropped, hevicted, hdrops⟩ := h.evicts
  exact ⟨dropped, hevicted, hdrops, fun halone => hdrops.eq_nil (total_restored_alone halone)⟩

/-! A batch of the lobby is out while a thread beside it fills up the channel. -/

def side : SessionScope := .thread (Uuid.ofByte 1) "side"

def sideMessage (n : Nat) : QueuedEvent :=
  { message 7 10 (n + 2) with scope := side, belongs := rfl }

def flood (n : Nat) : List TimedMove :=
  atOnce [.push (message 1 10 1), .flushNext] ++
    atOnce ((List.range n).map fun i => .push (sideMessage i))

def lobbyBatch : FlushBatch :=
  ⟨Uuid.ofByte 1, lobby, [(message 1 10 1).intoBatchEvent], [], none, lobby_channel⟩

/-- The message of the lobby as it is put back, with nobody else in the channel. -/
theorem put_back_evicts_nothing :
    let q := ((harness .queue 60).run (flood 0)).queue
    (q.requeuePreserveTimestamps (fun _ => 0) lobbyBatch).1.queues =
      q.restored lobby [message 1 10 1] := by
  obtain ⟨dropped, -, -, halone⟩ := put_back_evicts _ _ _ _ _
    (.requeuePreserveTimestamps (q := ((harness .queue 60).run (flood 0)).queue) (fun _ => 0)
      lobbyBatch)
  exact (halone fun other _ _ => rfl).2

/-- Only the thread has messages, so many. -/
structure Flooded (q : EventQueue) (n : Nat) : Prop where
  mode : q.dedupMode = .queue
  waiting : q.waiting side = (List.range n).map sideMessage
  idle : ∀ other ≠ side, q.queues.lookup other = none

namespace Flooded

variable {n : Nat}

/-- There is nothing else in the channel. -/
theorem total_erase (h : Flooded q n) :
    channelEventTotal (q.queues.erase side) (Uuid.ofByte 1) = 0 := by
  by_contra hpos
  obtain ⟨other, l, hl, -, -⟩ := exists_of_total_pos (Nat.pos_of_ne_zero hpos)
  rw [HMap.lookup_erase_ite] at hl
  split at hl
  · cases hl
  · next hother =>
      rw [h.idle other hother] at hl
      cases hl

theorem total_insert (h : Flooded q n) (l : List QueuedEvent) :
    channelEventTotal (q.queues.insert side l) (Uuid.ofByte 1) = l.length := by
  rw [Acp.total_insert, h.total_erase, Nat.add_zero]
  exact if_pos rfl

theorem pushBack (h : Flooded q n) (hn : n < maxPendingPerScope) :
    pushBack order q.queues (sideMessage n) =
      (q.queues.insert side ((List.range (n + 1)).map sideMessage), []) := by
  have hwaiting : (q.queues.lookup (sideMessage n).scope).getD [] =
      (List.range n).map sideMessage := h.waiting
  have hlength : ((List.range n).map sideMessage).length = n := by
    rw [List.length_map, List.length_range]
  have hnext : (List.range n).map sideMessage ++ [sideMessage n] =
      (List.range (n + 1)).map sideMessage := by
    rw [List.range_succ, List.map_append, List.map_singleton]
  unfold Acp.pushBack
  dsimp only
  have hcap : enforceChannelCap order
      (q.queues.insert (sideMessage n).scope ((List.range (n + 1)).map sideMessage))
      (sideMessage n).channelId =
        (q.queues.insert side ((List.range (n + 1)).map sideMessage), []) := by
    refine enforceChannelCap_of_le ?_
    show channelEventTotal (q.queues.insert side _) (Uuid.ofByte 1) ≤ _
    rw [h.total_insert, List.length_map, List.length_range]
    exact hn
  rw [hwaiting, hlength, if_neg (Nat.not_le.2 hn), List.drop_zero, hnext, hcap]
  rfl

theorem push (h : Flooded q n) (hn : n < maxPendingPerScope) :
    Flooded (q.push order (sideMessage n)).1 (n + 1) := by
  unfold EventQueue.push
  rw [if_neg fun hdrop => absurd (h.mode.symm.trans hdrop.1) (by decide)]
  rw [h.pushBack hn]
  refine ⟨h.mode, ?_, fun other hother => ?_⟩
  · show ((q.queues.insert side _).lookup side).getD [] = _
    rw [HMap.lookup_insert_ite, if_pos rfl]
    rfl
  · show (q.queues.insert side _).lookup other = none
    rw [HMap.lookup_insert_ite, if_neg hother]
    exact h.idle other hother

end Flooded

theorem flooded_run {n : Nat} (hn : n ≤ maxPendingPerScope) :
    Flooded ((harness .queue 60).run (flood n)).queue n := by
  induction n with
  | zero =>
      refine ⟨rfl, rfl, fun other _ => ?_⟩
      rfl
  | succ n ih =>
      have hlast : flood (n + 1) = flood n ++ [{ move := .push (sideMessage n) }] := by
        unfold flood atOnce
        rw [List.range_succ, List.map_append, List.map_append, List.append_assoc]
        rfl
      rw [hlast, Buzz.Lib.Machine.run_snoc]
      exact (ih (Nat.le_of_succ_le hn)).push hn

namespace Flooded

variable {n : Nat}

theorem lookup_side (h : Flooded q (n + 1)) :
    q.queues.lookup side = some ((List.range (n + 1)).map sideMessage) := by
  have hwaiting := h.waiting
  unfold EventQueue.waiting at hwaiting
  cases hl : q.queues.lookup side with
  | none =>
      rw [hl, List.range_succ_eq_map] at hwaiting
      cases hwaiting
  | some l =>
      rw [hl] at hwaiting
      exact congrArg some hwaiting

/-- The message of the lobby is back, beside the thread. -/
theorem restored_eq (h : Flooded q n) :
    q.restored lobby [message 1 10 1] = q.queues.insert lobby [message 1 10 1] := by
  have hidle : q.waiting lobby = [] := by
    unfold EventQueue.waiting
    rw [h.idle lobby (by decide)]
    rfl
  unfold EventQueue.restored
  rw [hidle]
  rfl

theorem total_restored (h : Flooded q n) :
    channelEventTotal (q.restored lobby [message 1 10 1]) (Uuid.ofByte 1) = n + 1 := by
  have hside := total_eq_add_erase q.queues side (Uuid.ofByte 1)
  have hlobby := total_eq_add_erase q.queues lobby (Uuid.ofByte 1)
  have hwaiting : share side ((q.queues.lookup side).getD []) (Uuid.ofByte 1) = n := by
    refine (if_pos rfl).trans ?_
    rw [← EventQueue.waiting, h.waiting, List.length_map, List.length_range]
  have hidle : share lobby ((q.queues.lookup lobby).getD []) (Uuid.ofByte 1) = 0 := by
    rw [h.idle lobby (by decide)]
    rfl
  have hone : share lobby [message 1 10 1] (Uuid.ofByte 1) = 1 := rfl
  have hnone := h.total_erase
  rw [h.restored_eq, Acp.total_insert]
  omega

/-- The oldest head is the message of the lobby. -/
theorem oldestHead (h : Flooded q (n + 1)) {e : QueuedEvent} {rest : List QueuedEvent}
    (hhead : OldestHead (Uuid.ofByte 1) (q.restored lobby [message 1 10 1]) scope e rest) :
    scope = lobby ∧ e = message 1 10 1 ∧ rest = [] := by
  obtain ⟨-, hlookup, holdest⟩ := hhead
  have hle : e.receivedAt ≤ 1 := by
    refine holdest lobby (message 1 10 1) [] rfl ?_
    rw [h.restored_eq, HMap.lookup_insert_ite, if_pos rfl]
  rw [h.restored_eq, HMap.lookup_insert_ite] at hlookup
  split at hlookup
  · next hscope =>
      cases hlookup
      exact ⟨hscope, rfl, rfl⟩
  · by_cases hside : scope = side
    · rw [hside, h.lookup_side, List.range_succ_eq_map] at hlookup
      cases hlookup
      exact absurd hle (by decide)
    · rw [h.idle scope hside] at hlookup
      cases hlookup

/-- A thread that fills the channel: the message of the lobby goes, and only that. -/
theorem drops (h : Flooded q (n + 1)) (hn : n + 1 = maxPendingPerChannel)
    (hdrops : DropsOldest (Uuid.ofByte 1) (q.restored lobby [message 1 10 1]) dropped queues') :
    (lobby, (message 1 10 1).intoBatchEvent) ∈ dropped ∧
      queues'.lookup side = q.queues.lookup side := by
  have htotal := h.total_restored
  cases hdrops with
  | done hle => omega
  | drop hover hhead hrest =>
      have hone := hhead.total
      obtain ⟨rfl, rfl, rfl⟩ := h.oldestHead hhead
      refine ⟨List.mem_cons_self, ?_⟩
      rw [(hrest.eq_nil (by omega)).2, if_pos List.isEmpty_nil, HMap.lookup_erase_ite,
        if_neg (by decide), h.restored_eq, HMap.lookup_insert_ite, if_neg (by decide)]

end Flooded

/-- The channel is full when the message of the lobby is put back. It is the
oldest, so it is the one that is dropped, and the thread keeps its messages. -/
theorem full_channel_drops_put_back :
    ¬ ∀ (mode : DedupMode) (maxTurnSecs : Nat) (ms : List TimedMove) (scope : SessionScope)
      (events : List QueuedEvent) (q' : EventQueue) (evicted : ScopedEvents),
      PutsBack ((harness mode maxTurnSecs).run ms).queue scope events q' evicted →
      ∀ e ∈ events, (scope, e.intoBatchEvent) ∈ evicted →
        ∀ other e', other.channelId = scope.channelId → e' ∈ q'.waiting other →
          ¬ e.receivedAt < e'.receivedAt := by
  intro h
  obtain ⟨n, hn⟩ : ∃ n, n + 1 = maxPendingPerScope := ⟨499, rfl⟩
  have hfull := flooded_run (Nat.le_of_eq hn)
  have hputs := PutsBack.requeuePreserveTimestamps
    (q := ((harness .queue 60).run (flood (n + 1))).queue) (fun _ => 0) lobbyBatch
  obtain ⟨dropped, hevicted, hdrops⟩ := hputs.evicts
  obtain ⟨hdropped, hside⟩ := hfull.drops hn hdrops
  refine h .queue 60 (flood (n + 1)) _ _ _ _ hputs (message 1 10 1) (List.mem_singleton_self _) ?_
    side (sideMessage 0) rfl ?_ (by decide)
  · rw [hevicted]
    exact List.mem_append_right _ hdropped
  · unfold EventQueue.waiting
    rw [hside, hfull.lookup_side]
    exact List.mem_map.2 ⟨0, List.mem_range.2 (Nat.succ_pos n), rfl⟩

end Buzz.Acp
