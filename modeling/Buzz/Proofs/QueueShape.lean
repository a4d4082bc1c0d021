import Buzz.Proofs.QueueLedger
import Mathlib.Algebra.Order.BigOperators.Group.List
import Mathlib.Algebra.Order.Ring.Nat

/-!
# The shape of the queue

In every state the harness reaches, no stored queue is empty, every event is in
the queue of its own scope, the caps hold, and the tables about batches in
flight agree on which scopes these are.

The batches that come out of a queue are sorted and bounded. Those that are made
of cancelled events alone are what the store happened to collect, and a turn
that comes back after its deadline frees the scope of whatever turn replaced it.
The runs without these two are those in which all of it holds.
-/

namespace Buzz.Acp

open Buzz.Lib (HMap)
open EventQueue

/-! ## Walking the map -/

variable {order : Order}

theorem mem_iter {ν : Type} {m : HMap SessionScope ν} {scope : SessionScope}
    {v : ν} :
    (⟨scope, v⟩ : (_ : SessionScope) × ν) ∈ iter order m ↔ m.lookup scope = some v := by
  rw [iter, List.mem_insertionSort, HMap.mem_entries_iff]

theorem oldestScope_some {queues : Queues} {p : SessionScope → Bool}
    {scope : SessionScope} (h : oldestScope order queues p = some scope) :
    ∃ l, queues.lookup scope = some l ∧ l ≠ [] ∧ p scope = true := by
  unfold oldestScope at h
  obtain ⟨⟨s, l⟩, hmin, rfl⟩ := Option.map_eq_some_iff.1 h
  obtain ⟨hmem, hp⟩ := List.mem_filter.1 (List.argmin_mem hmin)
  rw [Bool.and_eq_true] at hp
  refine ⟨l, mem_iter.1 hmem, ?_, hp.1⟩
  intro hnil
  rw [hnil] at hp
  cases hp.2

theorem oldestScope_none {queues : Queues} {p : SessionScope → Bool}
    (h : oldestScope order queues p = none) {scope : SessionScope}
    {l : List QueuedEvent} (hl : queues.lookup scope = some l)
    (hp : p scope = true) : l = [] := by
  unfold oldestScope at h
  rw [Option.map_eq_none_iff, List.argmin_eq_none] at h
  by_contra hne
  have hmem := List.filter_eq_nil_iff.1 h ⟨scope, l⟩ (mem_iter.2 hl)
  apply hmem
  rw [Bool.and_eq_true]
  refine ⟨hp, ?_⟩
  cases l with
  | nil => exact (hne rfl).elim
  | cons e rest => rfl

/-! ## Queues -/

/-- No queue is empty or over its cap, and what is in it belongs there. -/
structure Shelved (queues : Queues) : Prop where
  nonempty : ∀ scope l, queues.lookup scope = some l → l ≠ []
  owned : ∀ scope l, queues.lookup scope = some l → ∀ e ∈ l, e.scope = scope
  capped : ∀ scope l, queues.lookup scope = some l → l.length ≤ maxPendingPerScope

/-- What one queue adds to the total of a channel. -/
def share (scope : SessionScope) (l : List QueuedEvent) (channel : Uuid) : Nat :=
  if scope.channelId = channel then l.length else 0

theorem total_insert (queues : Queues) (scope : SessionScope) (l : List QueuedEvent)
    (channel : Uuid) :
    channelEventTotal (queues.insert scope l) channel =
      share scope l channel + channelEventTotal (queues.erase scope) channel :=
  HMap.sum_insert queues scope l _

theorem total_eq_add_erase (queues : Queues) (scope : SessionScope) (channel : Uuid) :
    channelEventTotal queues channel =
      share scope ((queues.lookup scope).getD []) channel +
        channelEventTotal (queues.erase scope) channel := by
  have h := HMap.sum_eq_add_sum_erase queues scope
    fun s q => if s.channelId = channel then q.length else 0
  unfold channelEventTotal
  rw [h]
  congr 1
  unfold share
  cases queues.lookup scope with
  | none => exact (ite_self 0).symm
  | some l => rfl

theorem total_put (queues : Queues) (scope : SessionScope) (l : List QueuedEvent)
    (channel : Uuid) :
    channelEventTotal (if l.isEmpty then queues.erase scope else queues.insert scope l) channel =
      share scope l channel + channelEventTotal (queues.erase scope) channel := by
  split
  · next h =>
      have hzero : share scope l channel = 0 := by
        rw [List.isEmpty_iff.1 h]
        exact ite_self 0
      rw [hzero, Nat.zero_add]
  · exact total_insert queues scope l channel

namespace Shelved

variable {queues : Queues} {scope : SessionScope} {l : List QueuedEvent}

theorem insert (h : Shelved queues) (hne : l ≠ []) (hown : ∀ e ∈ l, e.scope = scope)
    (hcap : l.length ≤ maxPendingPerScope) : Shelved (queues.insert scope l) := by
  refine ⟨?_, ?_, ?_⟩
  · intro s l' hl'
    rcases HMap.lookup_insert_cases hl' with ⟨rfl, rfl⟩ | ⟨-, hold⟩
    · exact hne
    · exact h.nonempty s l' hold
  · intro s l' hl'
    rcases HMap.lookup_insert_cases hl' with ⟨rfl, rfl⟩ | ⟨-, hold⟩
    · exact hown
    · exact h.owned s l' hold
  · intro s l' hl'
    rcases HMap.lookup_insert_cases hl' with ⟨rfl, rfl⟩ | ⟨-, hold⟩
    · exact hcap
    · exact h.capped s l' hold

theorem of_lookup {queues' : Queues} (h : Shelved queues)
    (hsub : ∀ s l, queues'.lookup s = some l → queues.lookup s = some l) : Shelved queues' :=
  ⟨fun s l hl => h.nonempty s l (hsub s l hl), fun s l hl => h.owned s l (hsub s l hl),
    fun s l hl => h.capped s l (hsub s l hl)⟩

theorem erase (h : Shelved queues) (scope : SessionScope) : Shelved (queues.erase scope) := by
  refine h.of_lookup fun s l hl => ?_
  rw [HMap.lookup_erase_ite] at hl
  split at hl
  · cases hl
  · exact hl

/-- A queue is replaced by a part of it, or goes when nothing is left. -/
theorem put {old : List QueuedEvent} (h : Shelved queues) (hold : queues.lookup scope = some old)
    (hsub : l.Sublist old) :
    Shelved (if l.isEmpty then queues.erase scope else queues.insert scope l) := by
  split
  · exact h.erase scope
  · next hne =>
      refine h.insert (fun hnil => hne (List.isEmpty_iff.2 hnil)) ?_ ?_
      · exact fun e he => h.owned scope old hold e (hsub.mem he)
      · exact hsub.length_le.trans (h.capped scope old hold)

end Shelved

/-! ## The cap of a channel -/

theorem popFront_eq_some {queues queues' : Queues} {scope : SessionScope}
    {d : SessionScope × BatchEvent} (h : popFront queues scope = some (queues', d)) :
    ∃ e rest, queues.lookup scope = some (e :: rest) ∧
      queues' = if rest.isEmpty then queues.erase scope else queues.insert scope rest := by
  unfold popFront at h
  split at h
  · next e rest hlookup =>
      cases h
      exact ⟨e, rest, hlookup, rfl⟩
  · cases h

theorem popFront_isSome {queues : Queues} {scope : SessionScope} {l : List QueuedEvent}
    (hl : queues.lookup scope = some l) (hne : l ≠ []) : ∃ r, popFront queues scope = some r := by
  cases l with
  | nil => exact (hne rfl).elim
  | cons e rest =>
      unfold popFront
      rw [hl]
      exact ⟨_, rfl⟩

/-- The head is gone from the total of its channel. -/
theorem total_popFront {queues queues' : Queues} {scope : SessionScope}
    {d : SessionScope × BatchEvent} (h : popFront queues scope = some (queues', d))
    (channel : Uuid) :
    channelEventTotal queues channel =
      channelEventTotal queues' channel + if scope.channelId = channel then 1 else 0 := by
  obtain ⟨e, rest, hlookup, rfl⟩ := popFront_eq_some h
  rw [total_put, total_eq_add_erase queues scope, hlookup]
  unfold share
  split
  · show rest.length + 1 + _ = _
    omega
  · omega

theorem exists_of_total_pos {queues : Queues} {channel : Uuid}
    (h : 0 < channelEventTotal queues channel) :
    ∃ scope l, queues.lookup scope = some l ∧ l ≠ [] ∧ scope.channelId = channel := by
  unfold channelEventTotal HMap.sum at h
  by_contra hno
  have hzero : (queues.entries.map fun e =>
      if e.1.channelId = channel then e.2.length else 0).sum = 0 := by
    refine List.sum_eq_zero fun n hn => ?_
    obtain ⟨⟨s, l⟩, he, rfl⟩ := List.mem_map.1 hn
    split
    · next hs =>
        by_contra hlen
        refine hno ⟨s, l, HMap.mem_entries_iff.1 he, ?_, hs⟩
        intro hnil
        exact hlen (by rw [hnil]; rfl)
    · rfl
  exact Nat.ne_of_gt h hzero

theorem enforceChannelCapLoop_spec (order : Order) (channel : Uuid) (fuel : Nat) (queues : Queues)
    (hfuel : channelEventTotal queues channel ≤ maxPendingPerChannel + fuel)
    (h : Shelved queues) :
    Shelved (enforceChannelCapLoop order channel fuel queues).1 ∧
      channelEventTotal (enforceChannelCapLoop order channel fuel queues).1 channel ≤
        maxPendingPerChannel ∧
      ∀ c, channelEventTotal (enforceChannelCapLoop order channel fuel queues).1 c ≤
        channelEventTotal queues c := by
  induction fuel generalizing queues with
  | zero => exact ⟨h, hfuel, fun _ => Nat.le_refl _⟩
  | succ fuel ih =>
      rw [enforceChannelCapLoop]
      split
      · next hle => exact ⟨h, hle, fun _ => Nat.le_refl _⟩
      · next hover =>
          split
          · -- the channel is over its cap, so there is a head to drop
            next hnone =>
              have hpos : 0 < channelEventTotal queues channel := by omega
              obtain ⟨s, l, hl, hne, hs⟩ := exists_of_total_pos hpos
              cases holdest : oldestScope order queues fun s => s.channelId = channel with
              | none => exact (hne (oldestScope_none holdest hl (decide_eq_true hs))).elim
              | some victim =>
                  obtain ⟨l', hl', hne', -⟩ := oldestScope_some holdest
                  obtain ⟨r, hr⟩ := popFront_isSome hl' hne'
                  rw [holdest, Option.bind_some, hr] at hnone
                  cases hnone
          · next queues' d hpop =>
              obtain ⟨victim, hvictim, hpop⟩ := Option.bind_eq_some_iff.1 hpop
              obtain ⟨-, -, -, hchannel⟩ := oldestScope_some hvictim
              have htotal := total_popFront hpop
              have hown := htotal channel
              rw [if_pos (of_decide_eq_true hchannel)] at hown
              obtain ⟨e, rest, hlookup, rfl⟩ := popFront_eq_some hpop
              have hshelved := h.put hlookup (List.sublist_cons_self e rest)
              obtain ⟨hs, hcap, hmono⟩ := ih _ (by omega) hshelved
              refine ⟨hs, hcap, fun c => (hmono c).trans ?_⟩
              rw [htotal c]
              exact Nat.le_add_right _ _

/-- Queues in order, and no channel over its cap. -/
structure QueuesOk (queues : Queues) : Prop where
  shelved : Shelved queues
  channelCap : ∀ channel, channelEventTotal queues channel ≤ maxPendingPerChannel

/-- One channel may be over its cap; then `enforce_channel_cap` puts that right. -/
theorem enforceChannelCap_ok {queues : Queues} {channel : Uuid}
    (h : Shelved queues)
    (hother : ∀ c ≠ channel, channelEventTotal queues c ≤ maxPendingPerChannel) :
    QueuesOk (enforceChannelCap order queues channel).1 := by
  obtain ⟨hshelved, hcap, hmono⟩ := enforceChannelCapLoop_spec order channel
    (channelEventTotal queues channel) queues (Nat.le_add_left _ _) h
  refine ⟨hshelved, fun c => ?_⟩
  by_cases hc : c = channel
  · rw [hc]
    exact hcap
  · exact (hmono c).trans (hother c hc)

namespace QueuesOk

variable {queues : Queues} {scope : SessionScope}

theorem empty : QueuesOk (∅ : Queues) :=
  ⟨⟨nofun, nofun, nofun⟩, fun _ => Nat.zero_le _⟩

/-- The other channels do not notice a change to one queue. -/
theorem other_insert (h : QueuesOk queues) (l : List QueuedEvent) :
    ∀ c ≠ scope.channelId, channelEventTotal (queues.insert scope l) c ≤ maxPendingPerChannel := by
  intro c hc
  have hold := h.channelCap c
  rw [total_eq_add_erase queues scope] at hold
  rw [total_insert]
  have hzero : share scope l c = 0 := if_neg fun heq => hc heq.symm
  omega

theorem pushFrontAll (h : QueuesOk queues) (order : Order) {events : List QueuedEvent}
    (hne : events ≠ []) (hown : ∀ e ∈ events, e.scope = scope) :
    QueuesOk (pushFrontAll order queues scope events).1 := by
  unfold Acp.pushFrontAll
  refine enforceChannelCap_ok (h.shelved.insert ?_ ?_ ?_) (h.other_insert _)
  · intro hnil
    have hlen := congrArg List.length hnil
    rw [List.length_take, List.length_append] at hlen
    have hpos := List.length_pos_of_ne_nil hne
    have : maxPendingPerScope = 500 := rfl
    simp only [List.length_nil] at hlen
    omega
  · intro e he
    rcases List.mem_append.1 (List.mem_of_mem_take he) with he | he
    · exact hown e he
    · cases hl : queues.lookup scope with
      | none =>
          rw [hl] at he
          cases he
      | some l =>
          rw [hl] at he
          exact h.shelved.owned scope l hl e he
  · rw [List.length_take]
    exact Nat.min_le_left _ _

theorem pushBack (h : QueuesOk queues) (order : Order) (event : QueuedEvent) :
    QueuesOk (pushBack order queues event).1 := by
  unfold Acp.pushBack
  rw [← event.belongs]
  set queue := (queues.lookup event.scope).getD [] with hqueue
  have hlen : queue.length ≤ maxPendingPerScope := by
    cases hl : queues.lookup event.scope with
    | none => rw [hqueue, hl]; exact Nat.zero_le _
    | some l => rw [hqueue, hl]; exact h.shelved.capped event.scope l hl
  refine enforceChannelCap_ok (h.shelved.insert ?_ ?_ ?_) (h.other_insert _)
  · exact List.append_ne_nil_of_right_ne_nil _ (List.cons_ne_nil _ _)
  · intro e he
    rcases List.mem_append.1 he with he | he
    · cases hl : queues.lookup event.scope with
      | none =>
          rw [hqueue, hl] at he
          cases List.mem_of_mem_drop he
      | some l =>
          rw [hqueue, hl] at he
          exact h.shelved.owned event.scope l hl e (List.mem_of_mem_drop he)
    · rw [List.mem_singleton.1 he]
  · rw [List.length_append, List.length_drop, List.length_singleton]
    have : maxPendingPerScope = 500 := rfl
    split <;> omega

theorem put {l old : List QueuedEvent} (h : QueuesOk queues)
    (hold : queues.lookup scope = some old) (hsub : l.Sublist old) :
    QueuesOk (if l.isEmpty then queues.erase scope else queues.insert scope l) := by
  refine ⟨h.shelved.put hold hsub, fun c => ?_⟩
  have hcap := h.channelCap c
  rw [total_eq_add_erase queues scope, hold] at hcap
  rw [total_put]
  have hshare : share scope l c ≤ share scope old c := by
    unfold share
    split
    · exact hsub.length_le
    · exact Nat.le_refl _
  exact (Nat.add_le_add_right hshare _).trans hcap

theorem retain (h : QueuesOk queues) (p : SessionScope → List QueuedEvent → Bool) :
    QueuesOk (queues.retain p) := by
  refine ⟨h.shelved.of_lookup fun s l hl => ?_, fun c => ?_⟩
  · rw [HMap.lookup_retain, Option.filter_eq_some_iff] at hl
    exact hl.1
  · refine Nat.le_trans ?_ (h.channelCap c)
    exact (List.filter_sublist.map _).sum_le_sum fun _ _ => Nat.zero_le _

end QueuesOk

/-! ## The operations -/

/-- The shape of the whole queue. -/
structure QueueOk (q : EventQueue) : Prop where
  queues : QueuesOk q.queues
  deadlines : q.inFlightDeadlines.keySet = q.inFlightScopes
  sizes : q.inFlightBatchSizes.keySet = q.inFlightScopes
  routes : q.inFlightReplyRoutes.keySet ⊆ q.inFlightScopes
  withheld : ∀ scope l, q.withheldNativeSteer.lookup scope = some l →
    l ≠ [] ∧ ∀ e ∈ l, e.scope = scope
  cancelled : ∀ scope l, q.cancelledBatches.lookup scope = some l → l ≠ []

namespace QueueOk

variable {q : EventQueue} {scope : SessionScope} {batch : FlushBatch}

section

variable (h : QueueOk q)
include h

theorem release (scope : SessionScope) : QueueOk (q.release scope) := by
  refine ⟨h.queues, ?_, ?_, ?_, h.withheld, h.cancelled⟩
  · show HMap.keySet (q.inFlightDeadlines.erase scope) = q.inFlightScopes.erase scope
    rw [HMap.keySet_erase, h.deadlines]
  · show HMap.keySet (q.inFlightBatchSizes.erase scope) = q.inFlightScopes.erase scope
    rw [HMap.keySet_erase, h.sizes]
  · show HMap.keySet (q.inFlightReplyRoutes.erase scope) ⊆ q.inFlightScopes.erase scope
    rw [HMap.keySet_erase]
    exact Finset.erase_subset_erase scope h.routes

theorem setInFlight (now : Nat) (scope : SessionScope)
    (events : List BatchEvent) :
    QueueOk (q.setInFlight now scope events) := by
  refine ⟨h.queues, ?_, ?_, ?_, h.withheld, h.cancelled⟩
  · show HMap.keySet (q.inFlightDeadlines.insert scope _) = insert scope q.inFlightScopes
    rw [HMap.keySet_insert, h.deadlines]
  · show HMap.keySet (q.inFlightBatchSizes.insert scope _) = insert scope q.inFlightScopes
    rw [HMap.keySet_insert, h.sizes]
  · show (recordInFlightReplyRoute q.inFlightReplyRoutes scope events).keySet ⊆
      insert scope q.inFlightScopes
    unfold recordInFlightReplyRoute
    split
    · rw [HMap.keySet_insert]
      exact Finset.insert_subset_insert scope h.routes
    · rw [HMap.keySet_erase]
      exact (Finset.erase_subset _ _).trans (h.routes.trans (Finset.subset_insert _ _))

theorem push (order : Order) (event : QueuedEvent) :
    QueueOk (q.push order event).1 := by
  unfold EventQueue.push
  split
  · exact h
  · exact ⟨h.queues.pushBack order event, h.deadlines, h.sizes, h.routes, h.withheld, h.cancelled⟩

theorem extendInFlightDeadline (now : Nat) (scope : SessionScope)
    (maxTurnSecs : Nat) :
    QueueOk (q.extendInFlightDeadline now scope maxTurnSecs) := by
  unfold EventQueue.extendInFlightDeadline
  split
  · exact h
  · next current hcurrent =>
      dsimp only
      split
      · refine ⟨h.queues, ?_, h.sizes, h.routes, h.withheld, h.cancelled⟩
        have hmem : scope ∈ q.inFlightDeadlines.keySet := by
          rw [HMap.mem_keySet, hcurrent]
          rfl
        rw [HMap.keySet_insert, Finset.insert_eq_of_mem hmem, h.deadlines]
      · exact h

omit h in
theorem lookup_erase_some {ν : Type} {m : HMap SessionScope ν} {s : SessionScope} {v : ν}
    (hv : (m.erase scope).lookup s = some v) : m.lookup s = some v := by
  rw [HMap.lookup_erase_ite] at hv
  split at hv
  · cases hv
  · exact hv

theorem recover (order : Order) (scope : SessionScope) :
    QueueOk (q.recoverWithheldForExpiredScope order scope).1 := by
  unfold recoverWithheldForExpiredScope
  split
  · exact h
  · next entries hentries =>
      obtain ⟨hne, hown⟩ := h.withheld scope entries hentries
      exact ⟨h.queues.pushFrontAll order hne hown, h.deadlines, h.sizes, h.routes,
        fun s l hl => h.withheld s l (lookup_erase_some hl), h.cancelled⟩

theorem expire (order : Order) (scopes : List SessionScope) :
    QueueOk (q.expire order scopes).1 := by
  induction scopes generalizing q with
  | nil => exact h
  | cons scope rest ih => exact ih ((h.release scope).recover order scope)

theorem flushQueue (now : Nat) {l : List QueuedEvent}
    (hl : q.queues.lookup scope = some l) :
    QueueOk (q.flushQueue now scope).1 := by
  unfold EventQueue.flushQueue
  rw [hl]
  dsimp only [Option.getD_some]
  have hset := h.setInFlight now scope (((l.take maxBatchEvents).map
    QueuedEvent.intoBatchEvent).insertionSort fun a b => a.event.createdAt ≤ b.event.createdAt)
  exact ⟨h.queues.put hl (List.drop_sublist _ _), hset.deadlines, hset.sizes, hset.routes,
    h.withheld, fun s l hl => h.cancelled s l (lookup_erase_some hl)⟩

theorem flushCancelled (now : Nat) (scope : SessionScope) :
    QueueOk (q.flushCancelled now scope).1 := by
  have hset := h.setInFlight now scope ((q.cancelledBatches.lookup scope).getD [])
  exact ⟨h.queues, hset.deadlines, hset.sizes, hset.routes, h.withheld,
    fun s l hl => h.cancelled s l (lookup_erase_some hl)⟩

theorem flushNext (now : Nat) (order : Order) :
    QueueOk (q.flushNext now order).1 := by
  have hexpired := h.expire order (q.expiredScopes now order)
  unfold EventQueue.flushNext
  dsimp only
  split
  · next scope hscope =>
      obtain ⟨l, hl, -, -⟩ := oldestScope_some hscope
      exact hexpired.flushQueue now hl
  · split
    · exact hexpired.flushCancelled now _
    · exact hexpired

theorem markComplete (now : Nat) (scope : SessionScope) :
    QueueOk (q.markComplete now scope) := by
  have hrelease := h.release scope
  obtain ⟨after, counts, heq⟩ := markComplete_eq q now scope
  rw [heq]
  exact ⟨hrelease.queues, hrelease.deadlines, hrelease.sizes, hrelease.routes,
    hrelease.withheld, hrelease.cancelled⟩

theorem pushFrontBatch (order : Order) (hne : batch.events ≠ []) :
    QueuesOk (Acp.pushFrontAll order q.queues batch.scope (batch.events.map batch.requeued)).1 := by
  refine h.queues.pushFrontAll order (fun hnil => hne (List.map_eq_nil_iff.1 hnil)) ?_
  intro e he
  obtain ⟨be, -, rfl⟩ := List.mem_map.1 he
  rfl

theorem requeue (now : Nat) (order : Order) (jitter : Nat)
    (hne : batch.events ≠ []) :
    QueueOk (q.requeue now order jitter batch).1 := by
  unfold EventQueue.requeue
  dsimp only
  split
  · exact ⟨h.queues, h.deadlines, h.sizes, h.routes, h.withheld, h.cancelled⟩
  · exact ⟨h.pushFrontBatch order hne, h.deadlines, h.sizes, h.routes, h.withheld, h.cancelled⟩

theorem requeuePreserveTimestamps (order : Order) (hne : batch.events ≠ []) :
    QueueOk (q.requeuePreserveTimestamps order batch).1 := by
  have hfront := h.pushFrontBatch order hne
  unfold EventQueue.requeuePreserveTimestamps
  split
  · exact ⟨hfront, h.deadlines, h.sizes, h.routes, h.withheld, h.cancelled⟩
  · next hcancelled =>
      refine ⟨hfront, h.deadlines, h.sizes, h.routes, h.withheld, fun s l hl => ?_⟩
      rcases HMap.lookup_insert_cases hl with ⟨-, rfl⟩ | ⟨-, hold⟩
      · exact List.append_ne_nil_of_left_ne_nil
          (fun hnil => hcancelled (List.isEmpty_iff.2 hnil)) _
      · exact h.cancelled s l hold

theorem requeueAsCancelled (hne : batch.events ≠ []) (reason : CancelReason) :
    QueueOk (q.requeueAsCancelled batch reason) := by
  refine ⟨h.queues, h.deadlines, h.sizes, h.routes, h.withheld, fun s l hl => ?_⟩
  rcases HMap.lookup_insert_cases hl with ⟨-, rfl⟩ | ⟨-, hold⟩
  · exact List.append_ne_nil_of_right_ne_nil _ hne
  · exact h.cancelled s l hold

theorem markNativeSteerPending (scope : SessionScope) (eventId : String) :
    QueueOk (q.markNativeSteerPending scope eventId).1 := by
  unfold EventQueue.markNativeSteerPending
  split
  · exact h
  · next queue hqueue =>
      split
      · exact h
      · next e he =>
          refine ⟨h.queues.put hqueue List.eraseP_sublist, h.deadlines, h.sizes, h.routes, ?_,
            h.cancelled⟩
          intro s l hl
          rcases HMap.lookup_insert_cases hl with ⟨rfl, rfl⟩ | ⟨-, hold⟩
          · refine ⟨List.append_ne_nil_of_right_ne_nil _ (List.cons_ne_nil _ _), fun x hx => ?_⟩
            rcases List.mem_append.1 hx with hx | hx
            · cases hw : q.withheldNativeSteer.lookup s with
              | none =>
                  rw [hw] at hx
                  cases hx
              | some l =>
                  rw [hw] at hx
                  exact (h.withheld s l hw).2 x hx
            · rw [List.mem_singleton.1 hx]
              exact h.queues.shelved.owned s queue hqueue e (List.mem_of_find?_eq_some he)
          · exact h.withheld s l hold

/-- A list of withheld events is replaced by a part of it. -/
theorem withheld_put {l old : List QueuedEvent}
    (hold : q.withheldNativeSteer.lookup scope = some old)
    (hsub : l.Sublist old) (s : SessionScope) (l' : List QueuedEvent)
    (hl' : (if l.isEmpty then q.withheldNativeSteer.erase scope
      else q.withheldNativeSteer.insert scope l).lookup s = some l') :
    l' ≠ [] ∧ ∀ e ∈ l', e.scope = s := by
  split at hl'
  · exact h.withheld s l' (lookup_erase_some hl')
  · next hne =>
      rcases HMap.lookup_insert_cases hl' with ⟨rfl, rfl⟩ | ⟨-, hsame⟩
      · exact ⟨fun hnil => hne (List.isEmpty_iff.2 hnil),
          fun e he => (h.withheld s old hold).2 e (hsub.mem he)⟩
      · exact h.withheld s l' hsame

theorem releaseNativeSteer (order : Order) (scope : SessionScope)
    (eventId : String) :
    QueueOk (q.releaseNativeSteer order scope eventId).1 := by
  unfold EventQueue.releaseNativeSteer
  split
  · exact h
  · next entries hentries =>
      split
      · exact h
      · next e he =>
          have hown : ∀ x ∈ [e], x.scope = scope := by
            intro x hx
            rw [List.mem_singleton.1 hx]
            exact (h.withheld scope entries hentries).2 e (List.mem_of_find?_eq_some he)
          exact ⟨h.queues.pushFrontAll order (List.cons_ne_nil _ _) hown, h.deadlines, h.sizes,
            h.routes, h.withheld_put hentries List.eraseP_sublist, h.cancelled⟩

theorem removeEvent (scope : SessionScope) (eventId : String) :
    QueueOk (q.removeEvent scope eventId) := by
  refine ⟨?_, h.deadlines, h.sizes, h.routes, ?_, h.cancelled⟩
  · show QueuesOk (retainEvents q.queues scope eventId)
    unfold retainEvents
    split
    · exact h.queues
    · next entries hentries => exact h.queues.put hentries List.filter_sublist
  · show ∀ s l, (retainEvents q.withheldNativeSteer scope eventId).lookup s = some l → _
    unfold retainEvents
    split
    · exact h.withheld
    · next entries hentries => exact h.withheld_put hentries List.filter_sublist

theorem drainChannel (order : Order) (channel : Uuid) :
    QueueOk (q.drainChannel order channel).1 := by
  refine ⟨h.queues.retain fun s _ => !decide (s.channelId = channel), h.deadlines, h.sizes,
    h.routes, ?_, ?_⟩
  · intro s l hl
    have hkept := (Option.filter_eq_some_iff.1 ((HMap.lookup_retain _ _ _).symm.trans hl)).1
    exact h.withheld s l hkept
  · intro s l hl
    have hkept := (Option.filter_eq_some_iff.1 ((HMap.lookup_retain _ _ _).symm.trans hl)).1
    exact h.cancelled s l hkept

end

end QueueOk

/-! ## Batches -/

/-- At least one event and not too many, in the order they were written. -/
structure BatchOk (batch : FlushBatch) : Prop where
  nonempty : batch.events ≠ []
  bounded : batch.events.length ≤ maxBatchEvents
  sorted : batch.events.Pairwise fun a b => a.event.createdAt ≤ b.event.createdAt

/-- Cancelled events that could be a batch of their own. -/
def fitsBatch (l : List BatchEvent) : Bool :=
  l.length ≤ maxBatchEvents && decide (l.Pairwise fun a b => a.event.createdAt ≤ b.event.createdAt)

theorem pairwise_insertionSort_createdAt (l : List BatchEvent) :
    (l.insertionSort fun a b => a.event.createdAt ≤ b.event.createdAt).Pairwise
      fun a b => a.event.createdAt ≤ b.event.createdAt := by
  have : Std.Total fun a b : BatchEvent => a.event.createdAt ≤ b.event.createdAt :=
    ⟨fun a b => UInt64.le_total _ _⟩
  have : IsTrans BatchEvent fun a b => a.event.createdAt ≤ b.event.createdAt :=
    ⟨fun a b c hab hbc => UInt64.le_trans hab hbc⟩
  exact List.pairwise_insertionSort _ _

theorem flushQueue_batchOk {q : EventQueue} {scope : SessionScope} {l : List QueuedEvent}
    (now : Nat) (hl : q.queues.lookup scope = some l) (hne : l ≠ []) :
    BatchOk (q.flushQueue now scope).2 := by
  have hlength := List.length_insertionSort
    (fun a b : BatchEvent => a.event.createdAt ≤ b.event.createdAt)
    ((l.take maxBatchEvents).map QueuedEvent.intoBatchEvent)
  rw [List.length_map, List.length_take] at hlength
  have hpos := List.length_pos_of_ne_nil hne
  have hmax : maxBatchEvents = 50 := rfl
  unfold flushQueue
  rw [hl]
  dsimp only [Option.getD_some]
  refine ⟨?_, ?_, ?_⟩
  · intro hnil
    have hzero := hlength.symm.trans (congrArg List.length hnil)
    simp only [List.length_nil] at hzero
    omega
  · show (List.insertionSort _ _).length ≤ maxBatchEvents
    rw [hlength]
    exact Nat.min_le_left _ _
  · exact pairwise_insertionSort_createdAt _

theorem mem_expire_inFlightScopes {q : EventQueue} {scopes : List SessionScope}
    {scope : SessionScope} :
    scope ∈ (q.expire order scopes).1.inFlightScopes ↔
      scope ∈ q.inFlightScopes ∧ scope ∉ scopes := by
  induction scopes generalizing q with
  | nil => simp [expire]
  | cons s rest ih =>
      have hrecover : ((q.release s).recoverWithheldForExpiredScope order s).1.inFlightScopes =
          q.inFlightScopes.erase s := by
        unfold recoverWithheldForExpiredScope
        split <;> rfl
      rw [expire, ih, hrecover, Finset.mem_erase, List.mem_cons, not_or]
      tauto

/-- How a batch comes about: out of a queue that is ready or, when none is, out of
the cancelled events of a scope. It is not in flight once what has expired is
out. -/
theorem flushNext_cases {q : EventQueue} {now : Nat} {batch : FlushBatch}
    (h : (q.flushNext now order).2.1 = some batch) :
    batch.scope ∉ (q.expire order (q.expiredScopes now order)).1.inFlightScopes ∧
      (q.flushNext now order).1.inFlightScopes =
        insert batch.scope (q.expire order (q.expiredScopes now order)).1.inFlightScopes ∧
      ((∃ l, (q.expire order (q.expiredScopes now order)).1.queues.lookup batch.scope = some l ∧
          l ≠ [] ∧
          batch = ((q.expire order (q.expiredScopes now order)).1.flushQueue now batch.scope).2) ∨
        (∃ l, (q.expire order (q.expiredScopes now order)).1.cancelledBatches.lookup batch.scope =
            some l ∧ batch.events = l ∧
          ∀ scope l, (q.expire order (q.expiredScopes now order)).1.queues.lookup scope = some l →
            (q.expire order (q.expiredScopes now order)).1.ready now scope = true → l = [])) := by
  unfold flushNext at h ⊢
  dsimp only at h ⊢
  generalize (q.expire order (q.expiredScopes now order)).1 = q' at h ⊢
  cases hready : oldestScope order q'.queues (q'.ready now) with
  | some scope =>
      rw [hready] at h
      cases h
      obtain ⟨l, hl, hne, hp⟩ := oldestScope_some hready
      refine ⟨?_, rfl, .inl ⟨l, hl, hne, rfl⟩⟩
      unfold ready at hp
      rw [Bool.and_eq_true] at hp
      exact of_decide_eq_true hp.1
  | none =>
      rw [hready] at h
      cases hscope : q'.cancelledScope order with
      | none =>
          rw [hscope] at h
          cases h
      | some scope =>
          rw [hscope] at h
          cases h
          unfold cancelledScope at hscope
          obtain ⟨⟨s, l⟩, hfind, rfl⟩ := Option.map_eq_some_iff.1 hscope
          have hmem := mem_iter.1 (List.mem_of_find?_eq_some hfind)
          have hfree := List.find?_some hfind
          refine ⟨of_decide_eq_true hfree, rfl, .inr ⟨l, hmem, ?_, ?_⟩⟩
          · show (q'.cancelledBatches.lookup s).getD [] = l
            rw [hmem]
            rfl
          · exact fun scope l hl hp => oldestScope_none hready hl hp

/-- No batch: what has expired is all that changed. -/
theorem flushNext_none {q : EventQueue} {now : Nat}
    (h : (q.flushNext now order).2.1 = none) :
    (q.flushNext now order).1.inFlightScopes =
      (q.expire order (q.expiredScopes now order)).1.inFlightScopes := by
  unfold flushNext at h ⊢
  dsimp only at h ⊢
  generalize (q.expire order (q.expiredScopes now order)).1 = q' at h ⊢
  cases hready : oldestScope order q'.queues (q'.ready now) with
  | some scope =>
      rw [hready] at h
      cases h
  | none =>
      rw [hready] at h
      cases hscope : q'.cancelledScope order with
      | none => rfl
      | some scope =>
          rw [hscope] at h
          cases h

end Buzz.Acp
