import Buzz.Relay.Subscription

/-!
# The indexes hold exactly the registered subscriptions

Registration pushes a pair into the buckets its filters and scope select,
and removal recomputes the same selection. Both loops are folds over one
list, `SubEntry.indexKeys`, so everything about the indexes follows from two
facts: what a single map call does to a bucket's members, and that the loops
visit `indexKeys`.

The invariant `Indexed` reads both ways. A live subscription is in each of
its buckets, which is what fan-out needs to find it, and a bucket holds
nothing else, which is what keeps the indexes from growing with every
replaced subscription.
-/

namespace Buzz.Relay

open Buzz.Core Buzz.Lib

namespace SubscriptionRegistry

/-- The pairs a bucket holds; an absent bucket holds none. -/
def members (r : SubscriptionRegistry) (b : Bucket) : List (ConnId × SubId) :=
  (r.bucket b).getD []

/-! ## What one map call changes -/

variable {r : SubscriptionRegistry} {conn conn' : ConnId} {sub sub' : SubId}
  {b b' : Bucket} {pair x : ConnId × SubId}

@[simp] theorem bucket_alterBucket
    (f : Option (List (ConnId × SubId)) → Option (List (ConnId × SubId))) :
    (r.alterBucket b f).bucket b' =
      if b' = b then f (r.bucket b) else r.bucket b' := by
  cases b <;> cases b' <;> simp [alterBucket, bucket, HMap.lookup_alter]

@[simp] theorem subs_alterBucket
    (f : Option (List (ConnId × SubId)) → Option (List (ConnId × SubId))) :
    (r.alterBucket b f).subs = r.subs := by
  cases b <;> rfl

theorem mem_members_pushBucket :
    x ∈ (r.pushBucket b pair).members b' ↔
      x ∈ r.members b' ∨ (b' = b ∧ x = pair) := by
  unfold members pushBucket
  rw [bucket_alterBucket]
  split
  · next h => subst h; simp
  · next h => simp [h]

theorem mem_members_retainBucket :
    x ∈ (r.retainBucket b pair).members b' ↔
      x ∈ r.members b' ∧ ¬(b' = b ∧ x = pair) := by
  unfold members retainBucket
  rw [bucket_alterBucket]
  split
  · next h =>
      subst h
      cases r.bucket b' with
      | none => simp
      | some entries =>
          simp only [Option.map_some, Option.getD_some, List.mem_filter,
            Prod.ext_iff, Bool.not_eq_true', Bool.and_eq_false_iff, beq_eq_false_iff_ne]
          tauto
  · next h => simp [h]

theorem mem_members_removeIfEmpty :
    x ∈ (r.removeIfEmpty b).members b' ↔ x ∈ r.members b' := by
  unfold members removeIfEmpty
  rw [bucket_alterBucket]
  split
  · next h =>
      subst h
      cases r.bucket b' with
      | none => rfl
      | some entries => cases entries <;> simp [Option.filter]
  · rfl

theorem mem_members_removeIndexEntry :
    x ∈ (r.removeIndexEntry b pair).members b' ↔
      x ∈ r.members b' ∧ ¬(b' = b ∧ x = pair) := by
  unfold removeIndexEntry
  split
  · next h =>
      refine ⟨fun hx => ⟨hx, ?_⟩, And.left⟩
      rintro ⟨rfl, -⟩
      simp [members, h] at hx
  · dsimp only
    split
    · rw [mem_members_removeIfEmpty, mem_members_retainBucket]
    · rw [mem_members_retainBucket]

@[simp] theorem subs_pushBucket : (r.pushBucket b pair).subs = r.subs :=
  subs_alterBucket _

@[simp] theorem subs_removeIndexEntry :
    (r.removeIndexEntry b pair).subs = r.subs := by
  unfold removeIndexEntry
  split
  · rfl
  · dsimp only
    split <;> simp [removeIfEmpty, retainBucket]

theorem entry_congr {r r' : SubscriptionRegistry} (h : r'.subs = r.subs)
    (conn : ConnId) (sub : SubId) : r'.entry conn sub = r.entry conn sub := by
  simp [entry, h]

theorem entry_insertSub (e : SubEntry) :
    (r.insertSub conn sub e).entry conn' sub' =
      if conn' = conn ∧ sub' = sub then some e else r.entry conn' sub' := by
  simp only [entry, insertSub, HMap.lookup_alter]
  by_cases hc : conn' = conn
  · subst hc
    cases r.subs.lookup conn' <;> by_cases hs : sub' = sub <;>
      simp [HMap.lookup_insert_ite, hs, -AList.insert_empty]
  · simp [hc]

theorem entry_eraseSub :
    (r.eraseSub conn sub).entry conn' sub' =
      if conn' = conn ∧ sub' = sub then none else r.entry conn' sub' := by
  simp only [entry, eraseSub, HMap.lookup_alter]
  by_cases hc : conn' = conn
  · subst hc
    cases r.subs.lookup conn' <;> by_cases hs : sub' = sub <;>
      simp [HMap.lookup_erase_ite, hs]
  · simp [hc]

theorem entry_eraseConn :
    (r.eraseConn conn).entry conn' sub' =
      if conn' = conn then none else r.entry conn' sub' := by
  simp only [entry, eraseConn, HMap.lookup_erase_ite]
  by_cases hc : conn' = conn <;> simp [hc]

/-! ## The loops visit `indexKeys` -/

theorem removeFromIndex_eq (filters : List Filter) (communityId : CommunityId)
    (scope : SubscriptionScope) :
    r.removeFromIndex conn sub filters communityId scope =
      (indexKeys communityId filters scope).foldl
        (fun r b => r.removeIndexEntry b (conn, sub)) r := by
  cases scope with
  | channels channelIds =>
      simp only [removeFromIndex, indexKeys, List.foldl_flatMap]
      congr 1
      funext r ch
      rcases extractKindsFromFilters filters with _ | _ | ⟨k, ks⟩
      · rfl
      · rfl
      · simp only [List.foldl_map]
  | global =>
      simp only [removeFromIndex, indexKeys]
      rcases extractGlobalSelectorIndexKeys communityId filters with _ | keys
      · rcases extractKindsFromFilters filters with _ | _ | ⟨k, ks⟩
        · rfl
        · rfl
        · simp only [List.foldl_map]
      · simp only [List.foldl_map]

theorem registerWithScope_eq (communityId : CommunityId)
    (filters : List Filter) (scope : SubscriptionScope) :
    r.registerWithScope communityId conn sub filters scope =
      ((indexKeys communityId filters scope).foldl
          (fun r b => r.pushBucket b (conn, sub))
          ((r.removeSubscription conn sub).1.insertSub conn sub
            ⟨filters, communityId, scope⟩),
        (r.removeSubscription conn sub).2) := by
  cases scope with
  | channels channelIds =>
      simp only [registerWithScope, indexKeys, List.foldl_flatMap]
      congr 2
      funext r ch
      rcases extractKindsFromFilters filters with _ | _ | ⟨k, ks⟩
      · rfl
      · rfl
      · simp only [List.foldl_map]
  | global =>
      simp only [registerWithScope, indexKeys]
      congr 1
      rcases extractGlobalSelectorIndexKeys communityId filters with _ | keys
      · rcases extractKindsFromFilters filters with _ | _ | ⟨k, ks⟩
        · rfl
        · rfl
        · simp only [List.foldl_map]
      · simp only [List.foldl_map]

theorem mem_members_foldl_pushBucket (bs : List Bucket) :
    x ∈ (bs.foldl (fun r b => r.pushBucket b pair) r).members b ↔
      x ∈ r.members b ∨ (b ∈ bs ∧ x = pair) := by
  induction bs generalizing r with
  | nil => simp
  | cons b₀ bs ih =>
      rw [List.foldl_cons, ih, mem_members_pushBucket, List.mem_cons]
      tauto

theorem subs_foldl_pushBucket (bs : List Bucket) :
    (bs.foldl (fun r b => r.pushBucket b pair) r).subs = r.subs := by
  induction bs generalizing r with
  | nil => rfl
  | cons b₀ bs ih => rw [List.foldl_cons, ih, subs_pushBucket]

theorem mem_members_removeFromIndex (filters : List Filter)
    (communityId : CommunityId) (scope : SubscriptionScope) :
    x ∈ (r.removeFromIndex conn sub filters communityId scope).members b ↔
      x ∈ r.members b ∧
        ¬(b ∈ indexKeys communityId filters scope ∧ x = (conn, sub)) := by
  rw [removeFromIndex_eq]
  generalize indexKeys communityId filters scope = bs
  induction bs generalizing r with
  | nil => simp
  | cons b₀ bs ih =>
      rw [List.foldl_cons, ih, mem_members_removeIndexEntry, List.mem_cons]
      tauto

@[simp] theorem subs_removeFromIndex (filters : List Filter)
    (communityId : CommunityId) (scope : SubscriptionScope) :
    (r.removeFromIndex conn sub filters communityId scope).subs = r.subs := by
  rw [removeFromIndex_eq]
  generalize indexKeys communityId filters scope = bs
  induction bs generalizing r with
  | nil => rfl
  | cons b₀ bs ih => rw [List.foldl_cons, ih, subs_removeIndexEntry]

/-! ## The invariant and the operations -/

/-- A bucket holds a pair exactly when the pair is registered with filters
and scope that select the bucket. -/
def Indexed (r : SubscriptionRegistry) : Prop :=
  ∀ conn sub b, (conn, sub) ∈ r.members b ↔
    ∃ e, r.entry conn sub = some e ∧ b ∈ e.indexKeys

theorem indexed_new : Indexed new := by
  intro conn sub b
  have hb : new.members b = [] := by cases b <;> rfl
  have he : new.entry conn sub = none := rfl
  simp [hb, he]

theorem entry_removeSubscription :
    (r.removeSubscription conn sub).1.entry conn' sub' =
      if conn' = conn ∧ sub' = sub then none else r.entry conn' sub' := by
  unfold removeSubscription
  split
  · next h =>
      split
      · next hp => rw [hp.1, hp.2, h]
      · rfl
  · rw [entry_congr (subs_removeFromIndex _ _ _), entry_eraseSub]

theorem mem_members_removeSubscription (hr : Indexed r) :
    (conn', sub') ∈ (r.removeSubscription conn sub).1.members b ↔
      (conn', sub') ∈ r.members b ∧ ¬(conn' = conn ∧ sub' = sub) := by
  unfold removeSubscription
  split
  · next h =>
      -- Nothing was registered, so no bucket holds the pair.
      refine ⟨fun hx => ⟨hx, ?_⟩, And.left⟩
      rintro ⟨rfl, rfl⟩
      obtain ⟨e, he, -⟩ := (hr _ _ _).1 hx
      rw [h] at he
      cases he
  · next e h =>
      rw [mem_members_removeFromIndex]
      refine and_congr_right fun hx => ?_
      have hx : (conn', sub') ∈ r.members b := hx
      rw [Prod.mk.injEq, not_iff_not, and_iff_right_iff_imp]
      rintro ⟨rfl, rfl⟩
      obtain ⟨e', he', hb⟩ := (hr _ _ _).1 hx
      rw [h] at he'
      cases he'
      exact hb

theorem indexed_removeSubscription (hr : Indexed r) :
    Indexed (r.removeSubscription conn sub).1 := by
  intro conn' sub' b
  rw [mem_members_removeSubscription hr, entry_removeSubscription, hr]
  split
  · next h => simp [h]
  · next h => simp [h]

theorem entry_registerWithScope (communityId : CommunityId)
    (filters : List Filter) (scope : SubscriptionScope) :
    (r.registerWithScope communityId conn sub filters scope).1.entry conn' sub' =
      if conn' = conn ∧ sub' = sub then some ⟨filters, communityId, scope⟩
      else r.entry conn' sub' := by
  rw [registerWithScope_eq, entry_congr (subs_foldl_pushBucket _),
    entry_insertSub, entry_removeSubscription]
  split <;> rfl

theorem indexed_registerWithScope (hr : Indexed r) (communityId : CommunityId)
    (filters : List Filter) (scope : SubscriptionScope) :
    Indexed (r.registerWithScope communityId conn sub filters scope).1 := by
  intro conn' sub' b
  rw [entry_registerWithScope, registerWithScope_eq,
    mem_members_foldl_pushBucket, Prod.mk.injEq]
  have hold : (conn', sub') ∈ ((r.removeSubscription conn sub).1.insertSub conn
      sub ⟨filters, communityId, scope⟩).members b ↔ _ :=
    mem_members_removeSubscription hr
  rw [hold, hr]
  by_cases hp : conn' = conn ∧ sub' = sub
  · simp [hp, SubEntry.indexKeys]
  · simp [hp]

theorem entry_removeConnection :
    (r.removeConnection conn).1.entry conn' sub' =
      if conn' = conn then none else r.entry conn' sub' := by
  have hfold : ∀ (l : List ((_ : SubId) × SubEntry)) (r : SubscriptionRegistry),
      (l.foldl (fun r s => r.removeFromIndex conn s.1 s.2.filters
        s.2.communityId s.2.scope) r).subs = r.subs := by
    intro l
    induction l with
    | nil => intro r; rfl
    | cons s l ih => intro r; rw [List.foldl_cons, ih, subs_removeFromIndex]
  unfold removeConnection
  split
  · next h =>
      split
      · next hp => subst hp; simp [entry, h]
      · rfl
  · rw [entry_congr (hfold _ _), entry_eraseConn]

theorem mem_members_foldl_removeFromIndex (l : List ((_ : SubId) × SubEntry)) :
    x ∈ (l.foldl (fun r s => r.removeFromIndex conn s.1 s.2.filters
        s.2.communityId s.2.scope) r).members b ↔
      x ∈ r.members b ∧
        ¬∃ s ∈ l, b ∈ s.2.indexKeys ∧ x = (conn, s.1) := by
  induction l generalizing r with
  | nil => simp
  | cons s l ih =>
      rw [List.foldl_cons, ih, mem_members_removeFromIndex, and_assoc,
        ← not_or]
      simp only [List.mem_cons, or_and_right, exists_or, exists_eq_left]
      rfl

theorem indexed_removeConnection (hr : Indexed r) :
    Indexed (r.removeConnection conn).1 := by
  intro conn' sub' b
  rw [entry_removeConnection]
  unfold removeConnection
  split
  · next h =>
      split
      · next hp => subst hp; rw [hr]; simp [entry, h]
      · exact hr conn' sub' b
  · next connSubs h =>
      rw [mem_members_foldl_removeFromIndex]
      have hbase : (conn', sub') ∈ (r.eraseConn conn).members b ↔ _ :=
        hr conn' sub' b
      rw [hbase]
      by_cases hp : conn' = conn
      · subst hp
        simp only [entry, h, Option.bind_some, if_true]
        refine iff_of_false ?_ (by simp)
        rintro ⟨⟨e, he, hb⟩, hno⟩
        exact hno ⟨⟨sub', e⟩, HMap.mem_entries_iff.2 he, hb, rfl⟩
      · simp [hp]

/-! Narrowing a scope. The loop passes the revoked community to the index
removal, so it matters that the collected ids all belong to it. -/

theorem mem_indexKeys_channels (communityId : CommunityId)
    (filters : List Filter) (channelIds : List Uuid) :
    b ∈ indexKeys communityId filters (.channels channelIds) ↔
      ∃ ch ∈ channelIds, b ∈ indexKeys communityId filters (.channels [ch]) := by
  simp [indexKeys]

/-- Two channels never share a bucket. -/
theorem indexKeys_channel_disjoint {c c' : CommunityId}
    {filters : List Filter} {ch ch' : Uuid}
    (h : b ∈ indexKeys c filters (.channels [ch]))
    (h' : b ∈ indexKeys c' filters (.channels [ch'])) : ch = ch' := by
  simp only [indexKeys, List.flatMap_cons, List.flatMap_nil,
    List.append_nil] at h h'
  split at h <;> rename_i hk <;> rw [hk] at h'
  · simp only [List.mem_singleton] at h h'
    subst h
    exact (Bucket.channelWildcard.inj h').2
  · simp only [List.mem_map] at h h'
    obtain ⟨k, -, rfl⟩ := h
    obtain ⟨k', -, hb⟩ := h'
    exact ((IndexKey.mk.inj (Bucket.channelKind.inj hb).2).1).symm

theorem entry_narrowSub (communityId : CommunityId) (ch : Uuid) (e : SubEntry)
    (channelIds : List Uuid) :
    (r.narrowSub communityId conn ch sub e channelIds).1.entry conn' sub' =
      if conn' = conn ∧ sub' = sub then
        if (channelIds.filter (· != ch)).isEmpty then none
        else some { e with scope := .channels (channelIds.filter (· != ch)) }
      else r.entry conn' sub' := by
  unfold narrowSub
  dsimp only
  split
  · rw [entry_eraseSub, entry_congr (subs_removeFromIndex _ _ _), entry_insertSub]
    split <;> rfl
  · rw [entry_congr (subs_removeFromIndex _ _ _), entry_insertSub]

theorem indexed_narrowSub (hr : Indexed r) {ch : Uuid} {e : SubEntry}
    {channelIds : List Uuid} (he : r.entry conn sub = some e)
    (hs : e.scope = .channels channelIds) :
    Indexed (r.narrowSub e.communityId conn ch sub e channelIds).1 := by
  intro conn' sub' b
  have hmem : (conn', sub') ∈
      (r.narrowSub e.communityId conn ch sub e channelIds).1.members b ↔
      (conn', sub') ∈ r.members b ∧
        ¬(b ∈ indexKeys e.communityId e.filters (.channels [ch]) ∧
          (conn', sub') = (conn, sub)) := by
    unfold narrowSub
    dsimp only
    split <;> exact mem_members_removeFromIndex _ _ _
  rw [hmem, entry_narrowSub, hr]
  by_cases hp : conn' = conn ∧ sub' = sub
  · obtain ⟨rfl, rfl⟩ := hp
    have hkept : ∀ b, (b ∈ e.indexKeys ∧
        b ∉ indexKeys e.communityId e.filters (.channels [ch])) ↔
        b ∈ indexKeys e.communityId e.filters
          (.channels (channelIds.filter (· != ch))) := by
      intro b
      rw [SubEntry.indexKeys, hs, mem_indexKeys_channels,
        mem_indexKeys_channels _ _ (channelIds.filter _)]
      constructor
      · rintro ⟨⟨ch', hch', hb⟩, hno⟩
        refine ⟨ch', ?_, hb⟩
        rw [List.mem_filter]
        refine ⟨hch', ?_⟩
        rw [bne_iff_ne]
        rintro rfl
        exact hno hb
      · rintro ⟨ch', hch', hb⟩
        rw [List.mem_filter, bne_iff_ne] at hch'
        exact ⟨⟨ch', hch'.1, hb⟩,
          fun hb' => hch'.2 (indexKeys_channel_disjoint hb hb')⟩
    simp only [he, and_true, Option.some.injEq, exists_eq_left', if_true]
    rw [hkept]
    split
    · next hempty => simp [List.isEmpty_iff.1 hempty, indexKeys]
    · simp [SubEntry.indexKeys]
  · simp [hp]

theorem indexed_narrowSubs (communityId : CommunityId) (ch : Uuid)
    (subs : List SubId) (hr : Indexed r)
    (hc : ∀ sub ∈ subs, ∀ e, r.entry conn sub = some e →
      e.communityId = communityId) :
    Indexed (narrowSubs communityId conn ch r subs).1 := by
  induction subs generalizing r with
  | nil => exact hr
  | cons sub rest ih =>
      have hrest : ∀ s ∈ rest, ∀ e, r.entry conn s = some e →
          e.communityId = communityId := fun s hs => hc s (List.mem_cons_of_mem _ hs)
      unfold narrowSubs
      split
      · exact hr
      · next connSubs h =>
          split
          · exact ih hr hrest
          · next e he =>
              split
              · exact ih hr hrest
              · next channelIds hs =>
                  have he : r.entry conn sub = some e := by simp [entry, h, he]
                  have hcom := hc sub List.mem_cons_self e he
                  subst hcom
                  refine ih (indexed_narrowSub hr he hs) fun s hs' e' he' => ?_
                  rw [entry_narrowSub] at he'
                  split at he'
                  · split at he'
                    · cases he'
                    · cases he'; rfl
                  · exact hrest s hs' e' he'

theorem indexed_removeChannelSubscriptionsScoped (hr : Indexed r)
    (communityId : CommunityId) (ch : Uuid) :
    Indexed (r.removeChannelSubscriptionsScoped communityId conn ch).1 := by
  refine indexed_narrowSubs _ _ _ hr fun sub hsub e he => ?_
  unfold channelSubIds at hsub
  cases h : r.subs.lookup conn with
  | none => simp [h] at hsub
  | some connSubs =>
      simp only [h, Option.map_some, Option.getD_some, List.mem_map,
        List.mem_filter, Bool.and_eq_true, beq_iff_eq] at hsub
      obtain ⟨⟨s, e'⟩, ⟨hmem, hcom, -⟩, rfl⟩ := hsub
      rw [HMap.mem_entries_iff] at hmem
      simp only [entry, h, Option.bind_some, hmem, Option.some.injEq] at he
      exact he ▸ hcom

/-- Every operation keeps the indexes exact. -/
theorem indexed_apply (hr : Indexed r) (op : RegistryOp) :
    Indexed (op.apply r) := by
  cases op with
  | registerScoped => exact indexed_registerWithScope hr _ _ _
  | registerChannelsScoped => exact indexed_registerWithScope hr _ _ _
  | removeSubscription => exact indexed_removeSubscription hr
  | removeChannelSubscriptionsScoped =>
      exact indexed_removeChannelSubscriptionsScoped hr _ _
  | removeConnection => exact indexed_removeConnection hr

theorem indexed_foldl (hr : Indexed r) (ops : List RegistryOp) :
    Indexed (ops.foldl RegistryOp.apply r) := by
  induction ops generalizing r with
  | nil => exact hr
  | cons op ops ih => exact ih (indexed_apply hr op)

end SubscriptionRegistry

end Buzz.Relay
