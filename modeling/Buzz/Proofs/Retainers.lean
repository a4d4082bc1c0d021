import Buzz.Proofs.RegistryIndex
import Buzz.Relay.Lifecycle

/-!
# Counting the subscriptions that retain a topic

The pubsub refcounts are kept by hand, one `retain_topic` or `release_topic`
at a time, beside a registry that changes in larger steps. Here both sides
are put in the same terms: what each registry operation does to the number of
registered subscriptions that retain a topic, and what a loop of retains or
releases does to its refcount.
-/

namespace Buzz.Relay

open Buzz.Core Buzz.Lib DesiredTopics

/-! ## Refcounts -/

theorem refcount_retainTopic (desired : DesiredTopics) (k key : EventTopicKey) :
    (desired.retainTopic k).topicRefcount key =
      desired.topicRefcount key + if key = k then 1 else 0 := by
  unfold topicRefcount retainTopic
  rw [HMap.lookup_alter]
  by_cases h : key = k
  · subst h; simp
  · simp [h]

theorem refcount_releaseTopic (desired : DesiredTopics)
    (k key : EventTopicKey) :
    (desired.releaseTopic k).topicRefcount key =
      desired.topicRefcount key - if key = k then 1 else 0 := by
  unfold topicRefcount releaseTopic
  rw [HMap.lookup_alter]
  by_cases h : key = k
  · subst h
    cases desired.lookup key with
    | none => simp
    | some n =>
        simp only [if_true, Option.bind_some, Option.getD_some]
        split
        · next hn => simp [hn]
        · rfl
  · simp [h]

theorem refcount_foldl_retainTopic (keys : List EventTopicKey)
    (desired : DesiredTopics) (key : EventTopicKey) :
    DesiredTopics.topicRefcount (keys.foldl retainTopic desired) key =
      desired.topicRefcount key + keys.count key := by
  induction keys generalizing desired with
  | nil => rfl
  | cons k keys ih =>
      rw [List.foldl_cons, ih, refcount_retainTopic, List.count_cons]
      by_cases h : k = key
      · subst h; simp; omega
      · simp [h, Ne.symm h]

theorem refcount_foldl_releaseTopic (keys : List EventTopicKey)
    (desired : DesiredTopics) (key : EventTopicKey) :
    DesiredTopics.topicRefcount (keys.foldl releaseTopic desired) key =
      desired.topicRefcount key - keys.count key := by
  induction keys generalizing desired with
  | nil => rfl
  | cons k keys ih =>
      rw [List.foldl_cons, ih, refcount_releaseTopic, List.count_cons]
      by_cases h : k = key
      · subst h; simp; omega
      · simp [h, Ne.symm h]

/-! ## Registered subscriptions that retain a topic -/

/-- Whether a subscription's scope retains a topic, as a weight. -/
def SubEntry.weight (key : EventTopicKey) (e : SubEntry) : Nat :=
  if key ∈ scopeTopics e.communityId e.scope then 1 else 0

/-- What a removal reports of an entry. -/
def SubEntry.removed (e : SubEntry) : RemovedSubscription :=
  ⟨e.communityId, e.scope⟩

/-- The topics of a scope whose channels do not repeat do not repeat. -/
theorem nodup_scopeTopics {c : CommunityId} {scope : SubscriptionScope}
    (h : scope.channelIds.Nodup) : (scopeTopics c scope).Nodup := by
  cases scope with
  | global => simp [scopeTopics, SubscriptionScope.isGlobal, SubscriptionScope.channelIds]
  | channels ids =>
      simp only [scopeTopics, SubscriptionScope.isGlobal, Bool.false_eq_true,
        if_false, List.nil_append, SubscriptionScope.channelIds] at h ⊢
      refine h.map fun a b hab => ?_
      exact EventTopic.channel.inj (EventTopicKey.mk.inj hab).2

theorem SubEntry.count_scopeTopics {e : SubEntry} (key : EventTopicKey)
    (h : e.scope.channelIds.Nodup) :
    (scopeTopics e.communityId e.scope).count key = e.weight key := by
  unfold SubEntry.weight
  split
  · next hm => exact List.count_eq_one_of_mem (nodup_scopeTopics h) hm
  · next hm => exact List.count_eq_zero_of_not_mem hm

theorem mem_scopeTopics_channels {c : CommunityId} {ids : List Uuid}
    {key : EventTopicKey} :
    key ∈ scopeTopics c (.channels ids) ↔
      ∃ ch ∈ ids, key = ⟨c, .channel ch⟩ := by
  simp [scopeTopics, SubscriptionScope.isGlobal, SubscriptionScope.channelIds,
    eq_comm]

namespace SubscriptionRegistry

def connRetainers (m : HMap SubId SubEntry) (key : EventTopicKey) : Nat :=
  HMap.sum m fun _ e => e.weight key

/-- The number of registered subscriptions that retain a topic. -/
def retainers (r : SubscriptionRegistry) (key : EventTopicKey) : Nat :=
  HMap.sum r.subs fun _ m => connRetainers m key

/-- What one subscription adds to the count. -/
def entryWeight (r : SubscriptionRegistry) (conn : ConnId) (sub : SubId)
    (key : EventTopicKey) : Nat :=
  (r.entry conn sub).elim 0 (·.weight key)

variable {r : SubscriptionRegistry} {conn : ConnId} {sub : SubId}
  {key : EventTopicKey} {ch : Uuid} {c : CommunityId}

theorem retainers_congr {r' : SubscriptionRegistry} (h : r'.subs = r.subs) :
    r'.retainers key = r.retainers key := by
  unfold retainers; rw [h]

theorem retainers_insertSub (e : SubEntry) :
    (r.insertSub conn sub e).retainers key + r.entryWeight conn sub key =
      r.retainers key + e.weight key := by
  have houter := HMap.sum_alter r.subs conn
    (fun m => some ((m.getD ∅).insert sub e)) fun _ m => connRetainers m key
  have hinner := fun m : HMap SubId SubEntry =>
    HMap.sum_alter m sub (fun _ => some e) fun _ e => e.weight key
  unfold retainers entryWeight entry insertSub
  cases hm : r.subs.lookup conn with
  | none =>
      have := hinner ∅
      simp only [HMap.alter, AList.lookup_empty, Option.elim_none, HMap.sum_empty,
        Option.elim_some] at this
      simp only [hm, Option.elim_none, Option.getD_none, Option.elim_some,
        Option.bind_none] at houter ⊢
      unfold connRetainers at houter ⊢
      omega
  | some m =>
      have := hinner m
      simp only [HMap.alter, Option.elim_some] at this
      simp only [hm, Option.getD_some, Option.elim_some, Option.bind_some] at houter ⊢
      unfold connRetainers at houter ⊢
      omega

theorem retainers_eraseSub :
    (r.eraseSub conn sub).retainers key + r.entryWeight conn sub key =
      r.retainers key := by
  have houter := HMap.sum_alter r.subs conn (Option.map (·.erase sub))
    fun _ m => connRetainers m key
  unfold retainers entryWeight entry eraseSub
  cases hm : r.subs.lookup conn with
  | none =>
      simp only [hm, Option.elim_none, Option.map_none, Option.bind_none] at houter ⊢
      omega
  | some m =>
      have hinner := HMap.sum_eq_add_sum_erase m sub fun _ e => e.weight key
      simp only [hm, Option.map_some, Option.elim_some, Option.bind_some] at houter ⊢
      unfold connRetainers at houter ⊢
      omega

theorem retainers_removeSubscription :
    (r.removeSubscription conn sub).1.retainers key +
      r.entryWeight conn sub key = r.retainers key := by
  unfold removeSubscription
  cases he : r.entry conn sub with
  | none => simp [entryWeight, he]
  | some e =>
      simp only
      rw [retainers_congr (subs_removeFromIndex _ _ _)]
      exact retainers_eraseSub

theorem removeSubscription_snd :
    (r.removeSubscription conn sub).2 =
      (r.entry conn sub).map SubEntry.removed := by
  unfold removeSubscription
  cases r.entry conn sub <;> rfl

theorem retainers_registerWithScope (c : CommunityId) (filters : List Filter)
    (scope : SubscriptionScope) :
    (r.registerWithScope c conn sub filters scope).1.retainers key +
      r.entryWeight conn sub key =
      r.retainers key + SubEntry.weight key ⟨filters, c, scope⟩ := by
  have hins : ((r.removeSubscription conn sub).1.insertSub conn sub
      ⟨filters, c, scope⟩).retainers key +
      (r.removeSubscription conn sub).1.entryWeight conn sub key = _ :=
    retainers_insertSub _
  have hgone : (r.removeSubscription conn sub).1.entryWeight conn sub key = 0 := by
    unfold entryWeight
    rw [entry_removeSubscription, if_pos ⟨rfl, rfl⟩]
    rfl
  have hrem : (r.removeSubscription conn sub).1.retainers key +
      r.entryWeight conn sub key = r.retainers key := retainers_removeSubscription
  rw [registerWithScope_eq, retainers_congr (subs_foldl_pushBucket _)]
  omega

theorem registerWithScope_snd (c : CommunityId) (filters : List Filter)
    (scope : SubscriptionScope) :
    (r.registerWithScope c conn sub filters scope).2 =
      (r.entry conn sub).map SubEntry.removed := by
  rw [registerWithScope_eq, removeSubscription_snd]

/-! A connection's removal takes out what each of its subscriptions adds. -/

def removedWeight (key : EventTopicKey) (removed : RemovedSubscription) : Nat :=
  if key ∈ scopeTopics removed.communityId removed.scope then 1 else 0

theorem retainers_removeConnection :
    (r.removeConnection conn).1.retainers key +
      ((r.removeConnection conn).2.map (removedWeight key)).sum =
      r.retainers key := by
  have hsubs : ∀ (l : List ((_ : SubId) × SubEntry)) (r : SubscriptionRegistry),
      (l.foldl (fun r s => r.removeFromIndex conn s.1 s.2.filters
        s.2.communityId s.2.scope) r).subs = r.subs := by
    intro l
    induction l with
    | nil => intro r; rfl
    | cons s l ih => intro r; rw [List.foldl_cons, ih, subs_removeFromIndex]
  unfold removeConnection
  cases h : r.subs.lookup conn with
  | none => simp
  | some m =>
      simp only
      rw [retainers_congr (hsubs _ _), List.map_map]
      have herase := HMap.sum_eq_add_sum_erase r.subs conn
        fun _ m => connRetainers m key
      rw [h, Option.elim_some] at herase
      have hconn : (m.entries.map (removedWeight key ∘ fun s => s.2.removed)).sum =
          connRetainers m key := rfl
      show HMap.sum (r.subs.erase conn) _ +
        (m.entries.map (removedWeight key ∘ fun s => s.2.removed)).sum = _
      rw [hconn]
      show HMap.sum (r.subs.erase conn) _ + _ = HMap.sum r.subs _
      omega

theorem removeConnection_snd {removed : RemovedSubscription}
    (h : removed ∈ (r.removeConnection conn).2) :
    ∃ sub e, r.entry conn sub = some e ∧ removed = e.removed := by
  unfold removeConnection at h
  cases hm : r.subs.lookup conn with
  | none => simp [hm] at h
  | some m =>
      simp only [hm, List.mem_map] at h
      obtain ⟨⟨sub, e⟩, hs, rfl⟩ := h
      refine ⟨sub, e, ?_, rfl⟩
      rw [entry, hm]
      exact HMap.mem_entries_iff.1 hs

/-! ## Narrowing -/

theorem retainers_narrowSub {e : SubEntry} {ids : List Uuid}
    (he : r.entry conn sub = some e) (hs : e.scope = .channels ids)
    (hch : ch ∈ ids) :
    (r.narrowSub e.communityId conn ch sub e ids).1.retainers key +
      (if key = ⟨e.communityId, .channel ch⟩ then 1 else 0) =
      r.retainers key := by
  -- The kept scope has the old topics less the revoked channel's.
  have hweight : SubEntry.weight key
        { e with scope := .channels (ids.filter (· != ch)) } +
      (if key = ⟨e.communityId, .channel ch⟩ then 1 else 0) = e.weight key := by
    have hkept : key ∈ scopeTopics e.communityId
          (.channels (ids.filter (· != ch))) ↔
        key ∈ scopeTopics e.communityId e.scope ∧
          key ≠ ⟨e.communityId, .channel ch⟩ := by
      rw [hs, mem_scopeTopics_channels, mem_scopeTopics_channels]
      constructor
      · rintro ⟨ch', hch', rfl⟩
        rw [List.mem_filter, bne_iff_ne] at hch'
        refine ⟨⟨ch', hch'.1, rfl⟩, fun hk => hch'.2 ?_⟩
        exact EventTopic.channel.inj (EventTopicKey.mk.inj hk).2
      · rintro ⟨⟨ch', hch', rfl⟩, hne⟩
        refine ⟨ch', ?_, rfl⟩
        rw [List.mem_filter, bne_iff_ne]
        exact ⟨hch', fun h => hne (by rw [h])⟩
    have hin : key = ⟨e.communityId, .channel ch⟩ →
        key ∈ scopeTopics e.communityId e.scope := by
      intro hk
      rw [hs, mem_scopeTopics_channels]
      exact ⟨ch, hch, hk⟩
    unfold SubEntry.weight
    by_cases hk : key = ⟨e.communityId, .channel ch⟩
    · rw [if_neg fun h => (hkept.1 h).2 hk, if_pos hk, if_pos (hin hk)]
    · rw [if_neg hk, Nat.add_zero]
      exact if_congr ⟨fun h => (hkept.1 h).1, fun h => hkept.2 ⟨h, hk⟩⟩ rfl rfl
  have hins : (r.insertSub conn sub
      { e with scope := .channels (ids.filter (· != ch)) }).retainers key +
      r.entryWeight conn sub key = _ := retainers_insertSub _
  have hold : r.entryWeight conn sub key = e.weight key := by
    simp [entryWeight, he]
  unfold narrowSub
  dsimp only
  split
  · next hempty =>
      -- Nothing is left of the scope, so dropping the entry drops no topic.
      have herase : (((r.insertSub conn sub
          { e with scope := .channels (ids.filter (· != ch)) }).removeFromIndex
          conn sub e.filters e.communityId (.channels [ch])).eraseSub conn
          sub).retainers key + _ = _ := retainers_eraseSub
      rw [retainers_congr (subs_removeFromIndex _ _ _)] at herase
      have hzero : SubEntry.weight key
          { e with scope := .channels (ids.filter (· != ch)) } = 0 := by
        rw [List.isEmpty_iff.1 hempty]
        simp [SubEntry.weight, mem_scopeTopics_channels]
      have hgone : entryWeight ((r.insertSub conn sub
          { e with scope := .channels (ids.filter (· != ch)) }).removeFromIndex
          conn sub e.filters e.communityId (.channels [ch])) conn sub key = 0 := by
        unfold entryWeight
        rw [entry_congr (subs_removeFromIndex _ _ _), entry_insertSub,
          if_pos ⟨rfl, rfl⟩]
        exact hzero
      omega
  · rw [retainers_congr (subs_removeFromIndex _ _ _)]
    omega

/-- What the revocation loop needs of an id it collected. -/
def Reached (r : SubscriptionRegistry) (c : CommunityId) (conn : ConnId)
    (ch : Uuid) (sub : SubId) : Prop :=
  ∃ e ids, r.entry conn sub = some e ∧ e.communityId = c ∧
    e.scope = .channels ids ∧ ch ∈ ids

theorem reached_channelSubIds :
    ∀ sub ∈ r.channelSubIds c conn ch, Reached r c conn ch sub := by
  intro sub hsub
  unfold channelSubIds at hsub
  cases h : r.subs.lookup conn with
  | none => simp [h] at hsub
  | some m =>
      simp only [h, Option.map_some, Option.getD_some, List.mem_map,
        List.mem_filter, Bool.and_eq_true, beq_iff_eq, List.contains_iff_mem] at hsub
      obtain ⟨⟨s, e⟩, ⟨hmem, hcom, hch⟩, rfl⟩ := hsub
      have he : r.entry conn s = some e := by
        rw [entry, h]; exact HMap.mem_entries_iff.1 hmem
      cases hs : e.scope with
      | global => simp [hs, SubscriptionScope.channelIds] at hch
      | channels ids =>
          rw [hs] at hch
          exact ⟨e, ids, he, hcom, hs, hch⟩

theorem nodup_channelSubIds :
    (r.channelSubIds c conn ch).Nodup := by
  unfold channelSubIds
  cases r.subs.lookup conn with
  | none => exact List.nodup_nil
  | some m =>
      have hkeys : m.keys.Nodup := m.keys_nodup
      exact hkeys.sublist (List.filter_sublist.map _)

/-- The loop takes the revoked topic off each collected subscription, once,
and reports the ones it dropped. -/
theorem narrowSubs_spec {subs : List SubId} (hnd : subs.Nodup)
    (hreach : ∀ sub ∈ subs, Reached r c conn ch sub) :
    (narrowSubs c conn ch r subs).2.length = subs.length ∧
    (∀ key, (narrowSubs c conn ch r subs).1.retainers key +
      (if key = ⟨c, .channel ch⟩ then subs.length else 0) = r.retainers key) ∧
    (∀ sub, sub ∉ subs → (narrowSubs c conn ch r subs).1.entry conn sub =
      r.entry conn sub) ∧
    ∀ u ∈ (narrowSubs c conn ch r subs).2, u.subId ∈ subs ∧
      (u.removed = true →
        (narrowSubs c conn ch r subs).1.entry conn u.subId = none) := by
  induction subs generalizing r with
  | nil => simp [narrowSubs]
  | cons sub rest ih =>
      obtain ⟨e, ids, he, rfl, hs, hch⟩ := hreach sub List.mem_cons_self
      obtain ⟨m, hm, hl⟩ := Option.bind_eq_some_iff.1 he
      obtain ⟨hsub, hrest⟩ := List.nodup_cons.1 hnd
      have hstep : narrowSubs e.communityId conn ch r (sub :: rest) =
          ((narrowSubs e.communityId conn ch
              (r.narrowSub e.communityId conn ch sub e ids).1 rest).1,
            (r.narrowSub e.communityId conn ch sub e ids).2 ::
              (narrowSubs e.communityId conn ch
                (r.narrowSub e.communityId conn ch sub e ids).1 rest).2) := by
        rw [narrowSubs]
        simp only [hm, hl, hs]
      have hother : ∀ s, s ≠ sub →
          (r.narrowSub e.communityId conn ch sub e ids).1.entry conn s =
            r.entry conn s := by
        intro s hne
        rw [entry_narrowSub, if_neg fun h => hne h.2]
      have hreach' : ∀ s ∈ rest, Reached
          (r.narrowSub e.communityId conn ch sub e ids).1 e.communityId conn ch s := by
        intro s hmem
        obtain ⟨e', ids', he', hrest'⟩ := hreach s (List.mem_cons_of_mem _ hmem)
        exact ⟨e', ids', by rw [hother s (ne_of_mem_of_not_mem hmem hsub)]; exact he',
          hrest'⟩
      obtain ⟨hlen, hret, hsame, hupd⟩ := ih hrest hreach'
      rw [hstep]
      refine ⟨by simp [hlen], fun key => ?_, fun s hmem => ?_, ?_⟩
      · have := hret key
        have hone : _ + (if key = ⟨e.communityId, .channel ch⟩ then 1 else 0) =
          r.retainers key := retainers_narrowSub he hs hch
        simp only [List.length_cons]
        by_cases hk : key = ⟨e.communityId, .channel ch⟩
        · rw [if_pos hk] at this hone ⊢
          omega
        · rw [if_neg hk] at this hone ⊢
          omega
      · rw [List.mem_cons, not_or] at hmem
        simp only
        rw [hsame s hmem.2, hother s hmem.1]
      · intro u hu
        rcases List.mem_cons.1 hu with rfl | hu
        · refine ⟨List.mem_cons_self, fun hrem => ?_⟩
          show (narrowSubs _ _ _ _ rest).1.entry conn sub = none
          rw [hsame sub hsub, entry_narrowSub, if_pos ⟨rfl, rfl⟩]
          exact if_pos hrem
        · exact ⟨List.mem_cons_of_mem _ (hupd u hu).1, (hupd u hu).2⟩

/-- A narrowed entry is an old one with fewer channels. -/
theorem entry_narrowSubs {subs : List SubId} {conn' : ConnId} {sub' : SubId}
    {e' : SubEntry}
    (h : (narrowSubs c conn ch r subs).1.entry conn' sub' = some e') :
    ∃ e, r.entry conn' sub' = some e ∧ e'.communityId = e.communityId ∧
      e'.scope.channelIds.Sublist e.scope.channelIds := by
  induction subs generalizing r with
  | nil => exact ⟨e', h, rfl, List.Sublist.refl _⟩
  | cons sub rest ih =>
      unfold narrowSubs at h
      split at h
      · exact ⟨e', h, rfl, List.Sublist.refl _⟩
      · next m hm =>
          split at h
          · exact ih h
          · next e he =>
              split at h
              · exact ih h
              · next ids hs =>
                  obtain ⟨e₁, he₁, hcom, hsub⟩ := ih h
                  rw [entry_narrowSub] at he₁
                  split at he₁
                  · next hp =>
                      split at he₁
                      · cases he₁
                      · cases he₁
                        obtain ⟨rfl, rfl⟩ := hp
                        refine ⟨e, by rw [entry, hm]; exact he, hcom, ?_⟩
                        rw [hs]
                        exact hsub.trans List.filter_sublist
                  · exact ⟨e₁, he₁, hcom, hsub⟩

end SubscriptionRegistry

end Buzz.Relay
