import Buzz.Proofs.RegistryIndex

/-!
# Indexed fan-out refines a scan of the registry

`fan_out_scoped` visits a handful of buckets and re-checks each candidate
against its authoritative entry, so nothing it returns can be wrong; what has
to be shown is that it misses nothing. That is a statement about keys alone:
an entry that matches an event selects at least one bucket the event looks
into. With the index invariant of `RegistryIndex` the two halves meet, and
fan-out equals the scan of every registered subscription.
-/

namespace Buzz.Relay

open Buzz.Core Buzz.Lib

/-! ## Index keys meet event keys -/

/-- The kinds collected from filters that all name kinds include the kinds
of each of them. -/
theorem mem_extractKinds {filters : List Filter} {kinds : List Kind}
    (h : extractKindsFromFilters filters = some kinds) :
    ∀ f ∈ filters, ∃ ks, f.kinds = some ks ∧ ∀ k ∈ ks.elems, k ∈ kinds := by
  have hloop : ∀ (filters : List Filter) (acc out : List Kind),
      filters.foldlM (fun kinds f =>
        f.kinds.map fun ks => ks.elems.foldl pushNew kinds) acc = some out →
      (∀ k ∈ acc, k ∈ out) ∧
      ∀ f ∈ filters, ∃ ks, f.kinds = some ks ∧ ∀ k ∈ ks.elems, k ∈ out := by
    intro filters
    induction filters with
    | nil =>
        intro acc out h
        cases h
        exact ⟨fun _ hk => hk, by simp⟩
    | cons f rest ih =>
        intro acc out h
        cases hk : f.kinds with
        | none => simp [hk] at h
        | some ks =>
            simp only [List.foldlM_cons, hk, Option.map_some,
              Option.bind_eq_bind, Option.bind_some] at h
            obtain ⟨hacc, hrest⟩ := ih _ _ h
            refine ⟨fun k hk' => hacc k (by simp [hk']), ?_⟩
            intro g hg
            rcases List.mem_cons.1 hg with rfl | hg
            · exact ⟨ks, hk, fun k hk' => hacc k (by simp [hk'])⟩
            · exact hrest g hg
  exact (hloop filters [] kinds h).2

theorem selectorKeysStep_some {c : CommunityId} {f : Filter}
    {acc out : List GlobalSelectorIndexKey × Nat}
    (h : selectorKeysStep c acc f = some out) :
    (∀ key ∈ acc.1, key ∈ out.1) ∧
    (f.kinds.any (·.isEmpty) = false → ∃ selectors,
      filterSelectors f = some selectors ∧ ∀ s ∈ selectors,
        (f.kinds = none → ⟨c, none, s⟩ ∈ out.1) ∧
        ∀ ks, f.kinds = some ks → ∀ k ∈ ks.elems, ⟨c, some k, s⟩ ∈ out.1) := by
  unfold selectorKeysStep at h
  dsimp only at h
  split at h
  · next hempty =>
      cases h
      exact ⟨fun _ hk => hk, by simp [hempty]⟩
  · split at h
    · cases h
    · next selectors hsel =>
        split at h
        · cases h
        · split at h
          · cases h
          · cases h
            refine ⟨fun key hk => by simp [hk], fun _ => ⟨selectors, hsel, ?_⟩⟩
            intro s hs
            refine ⟨fun hk => ?_, fun ks hk k hkm => ?_⟩
            · simp [filterKinds, hk, hs]
            · simp [filterKinds, hk, hs, hkm]

/-- The selector keys of filters that all have selectors include, for each
filter that can match at all, its selectors at its kinds. -/
theorem mem_extractGlobalSelectorIndexKeys {c : CommunityId}
    {filters : List Filter} {keys : List GlobalSelectorIndexKey}
    (h : extractGlobalSelectorIndexKeys c filters = some keys) :
    ∀ f ∈ filters, f.kinds.any (·.isEmpty) = false → ∃ selectors,
      filterSelectors f = some selectors ∧ ∀ s ∈ selectors,
        (f.kinds = none → ⟨c, none, s⟩ ∈ keys) ∧
        ∀ ks, f.kinds = some ks → ∀ k ∈ ks.elems, ⟨c, some k, s⟩ ∈ keys := by
  have hloop : ∀ (filters : List Filter) (acc out),
      filters.foldlM (selectorKeysStep c) acc = some out →
      (∀ key ∈ acc.1, key ∈ out.1) ∧
      ∀ f ∈ filters, f.kinds.any (·.isEmpty) = false → ∃ selectors,
        filterSelectors f = some selectors ∧ ∀ s ∈ selectors,
          (f.kinds = none → ⟨c, none, s⟩ ∈ out.1) ∧
          ∀ ks, f.kinds = some ks → ∀ k ∈ ks.elems, ⟨c, some k, s⟩ ∈ out.1 := by
    intro filters
    induction filters with
    | nil =>
        intro acc out h
        cases h
        exact ⟨fun _ hk => hk, by simp⟩
    | cons f rest ih =>
        intro acc out h
        rw [List.foldlM_cons, Option.bind_eq_bind, Option.bind_eq_some_iff] at h
        obtain ⟨mid, hmid, h⟩ := h
        obtain ⟨hkeep, hf⟩ := selectorKeysStep_some hmid
        obtain ⟨hacc, hrest⟩ := ih _ _ h
        refine ⟨fun key hk => hacc key (hkeep key hk), ?_⟩
        intro g hg hne
        rcases List.mem_cons.1 hg with rfl | hg
        · obtain ⟨selectors, hsel, hmem⟩ := hf hne
          exact ⟨selectors, hsel, fun s hs => ⟨fun hk => hacc _ ((hmem s hs).1 hk),
            fun ks hk k hkm => hacc _ ((hmem s hs).2 ks hk k hkm)⟩⟩
        · exact hrest g hg hne
  unfold extractGlobalSelectorIndexKeys at h
  obtain ⟨out, hout, rfl⟩ := Option.map_eq_some_iff.1 h
  exact (hloop filters _ out hout).2

theorem mem_eventGlobalSelectors {ev : StoredEvent} {s : GlobalSelector} :
    s ∈ eventGlobalSelectors ev ↔
      (∃ t ∈ ev.event.tags, t.name = "p" ∧ ∃ v, t.content = some v ∧ s = .p v) ∨
        s = .author ev.event.pubkey := by
  have hloop : ∀ (tags : List Tag) (acc : List GlobalSelector),
      s ∈ tags.foldl pushTagSelector acc ↔
      s ∈ acc ∨ ∃ t ∈ tags, t.name = "p" ∧ ∃ v, t.content = some v ∧ s = .p v := by
    intro tags
    induction tags with
    | nil => simp
    | cons t tags ih =>
        intro acc
        rw [List.foldl_cons, ih, List.exists_mem_cons_iff, ← or_assoc]
        refine or_congr_left ?_
        by_cases hn : t.name = "p"
        · cases hc : t.content with
          | none => simp [pushTagSelector, Tag.kindText, hn, hc]
          | some v => simp [pushTagSelector, Tag.kindText, hn, hc]
        · simp [pushTagSelector, Tag.kindText, hn]
  unfold eventGlobalSelectors
  rw [List.mem_append, hloop, List.mem_singleton]
  simp

/-- A filter that matches an event shares a selector with it, if it has
selectors at all. -/
theorem exists_shared_selector {f : Filter} {ev : StoredEvent}
    (h : filterMatchOne f ev = true) {selectors : List GlobalSelector}
    (hsel : filterSelectors f = some selectors) :
    ∃ s ∈ selectors, s ∈ eventGlobalSelectors ev := by
  unfold filterSelectors at hsel
  split at hsel
  · next values hp =>
      cases hsel
      have hm := filterMatchOne_lookup h hp
      rw [genericTagMatches_of_ne (by decide) (by decide), tagValuesMatch_iff] at hm
      obtain ⟨t, ht, hn, -, v, hv, hc⟩ := hm
      exact ⟨.p v, List.mem_map_of_mem hv,
        mem_eventGlobalSelectors.2 (.inl ⟨t, ht, hn, v, hc, rfl⟩)⟩
  · next authors _ hauthors =>
      cases hsel
      have hm := (filterMatchOne_iff.1 h).2.2.1 authors hauthors
      exact ⟨.author ev.event.pubkey, List.mem_map_of_mem hm,
        mem_eventGlobalSelectors.2 (.inr rfl)⟩
  · cases hsel

/-- An entry that matches an event is indexed under one of the event's
buckets. -/
theorem exists_indexKey_of_entryMatches {c : CommunityId} {ev : StoredEvent}
    {e : SubEntry} (h : SubscriptionRegistry.entryMatches c ev e = true) :
    ∃ b ∈ e.indexKeys, b ∈ eventBuckets c ev := by
  simp only [SubscriptionRegistry.entryMatches, Bool.and_eq_true, beq_iff_eq,
    and_assoc] at h
  obtain ⟨hcom, hscope, hmatch⟩ := h
  obtain ⟨f, hf, hm⟩ := filtersMatch_iff.1 hmatch
  have hkind := (filterMatchOne_iff.1 hm).2.1
  unfold SubEntry.indexKeys eventBuckets
  rw [hcom]
  cases hs : e.scope with
  | channels channelIds =>
      cases hch : ev.channelId with
      | none => simp [hs, hch, SubscriptionScope.matchesChannel] at hscope
      | some ch =>
          rw [hs, hch] at hscope
          have hmem : ch ∈ channelIds := by
            simpa [SubscriptionScope.matchesChannel] using hscope
          cases hk : extractKindsFromFilters e.filters with
          | none =>
              exact ⟨.channelWildcard c ch, by simp [indexKeys, hk, hmem], by simp⟩
          | some kinds =>
              obtain ⟨ks, hks, hsub⟩ := mem_extractKinds hk f hf
              have hin := hsub _ (hkind ks hks)
              exact ⟨.channelKind c ⟨ch, ev.event.kind⟩,
                by simp [indexKeys, hk, hmem, hin], by simp⟩
  | global =>
      cases hch : ev.channelId with
      | some ch => simp [hs, hch, SubscriptionScope.matchesChannel] at hscope
      | none =>
          cases hsel : extractGlobalSelectorIndexKeys c e.filters with
          | some keys =>
              have hne : f.kinds.any (·.isEmpty) = false := by
                cases hk : f.kinds with
                | none => rfl
                | some ks =>
                    have := List.ne_nil_of_mem (hkind ks hk)
                    simpa [BTreeSet.isEmpty] using this
              obtain ⟨selectors, hfs, hkeys⟩ :=
                mem_extractGlobalSelectorIndexKeys hsel f hf hne
              obtain ⟨s, hs, hev⟩ := exists_shared_selector hm hfs
              cases hk : f.kinds with
              | none =>
                  exact ⟨.globalSelector ⟨c, none, s⟩,
                    by simpa [indexKeys, hsel] using (hkeys s hs).1 hk,
                    by simp [hev]⟩
              | some ks =>
                  exact ⟨.globalSelector ⟨c, some ev.event.kind, s⟩,
                    by simpa [indexKeys, hsel] using
                      (hkeys s hs).2 ks hk _ (hkind ks hk),
                    by simp [hev]⟩
          | none =>
              cases hk : extractKindsFromFilters e.filters with
              | none =>
                  exact ⟨.globalWildcard c, by simp [indexKeys, hsel, hk], by simp⟩
              | some kinds =>
                  obtain ⟨ks, hks, hsub⟩ := mem_extractKinds hk f hf
                  have hin := hsub _ (hkind ks hks)
                  exact ⟨.globalKind c ev.event.kind,
                    by simp [indexKeys, hsel, hk, hin], by simp⟩

namespace SubscriptionRegistry

/-! ## The fan-out loops -/

variable {r : SubscriptionRegistry} {c : CommunityId} {ev : StoredEvent}
  {results : List (ConnId × SubId)} {x : ConnId × SubId}

/-- The scan's own condition: the pair is registered and its entry passes
the check. -/
def Matching (r : SubscriptionRegistry) (c : CommunityId) (ev : StoredEvent)
    (pair : ConnId × SubId) : Prop :=
  ∃ e, r.entry pair.1 pair.2 = some e ∧ entryMatches c ev e = true

theorem mem_pushMatch (pair : ConnId × SubId) :
    x ∈ r.pushMatch c ev results pair ↔
      x ∈ results ∨ (x = pair ∧ Matching r c ev x) := by
  unfold pushMatch Matching
  cases he : r.entry pair.1 pair.2 with
  | none =>
      refine ⟨.inl, ?_⟩
      rintro (hx | ⟨rfl, e, he', -⟩)
      · exact hx
      · rw [he] at he'; cases he'
  | some e =>
      dsimp only
      split
      · next hm =>
          rw [mem_pushNew]
          refine or_congr_right ⟨?_, And.left⟩
          rintro rfl
          exact ⟨rfl, e, he, hm⟩
      · next hm =>
          refine ⟨.inl, ?_⟩
          rintro (hx | ⟨rfl, e', he', hm'⟩)
          · exact hx
          · rw [he] at he'; cases he'; exact absurd hm' hm

theorem nodup_pushMatch (h : results.Nodup) (pair : ConnId × SubId) :
    (r.pushMatch c ev results pair).Nodup := by
  unfold pushMatch
  split
  · split
    · exact nodup_pushNew h
    · exact h
  · exact h

theorem mem_matchBucket (b : Bucket) :
    x ∈ r.matchBucket c ev results b ↔
      x ∈ results ∨ (x ∈ r.members b ∧ Matching r c ev x) := by
  have hloop : ∀ (candidates results : List (ConnId × SubId)),
      x ∈ candidates.foldl (r.pushMatch c ev) results ↔
        x ∈ results ∨ (x ∈ candidates ∧ Matching r c ev x) := by
    intro candidates
    induction candidates with
    | nil => simp
    | cons p rest ih =>
        intro results
        rw [List.foldl_cons, ih, mem_pushMatch, List.mem_cons]
        tauto
  unfold matchBucket members
  cases r.bucket b with
  | none => simp
  | some candidates => exact hloop candidates results

theorem nodup_matchBucket (h : results.Nodup) (b : Bucket) :
    (r.matchBucket c ev results b).Nodup := by
  have hloop : ∀ (candidates results : List (ConnId × SubId)), results.Nodup →
      (candidates.foldl (r.pushMatch c ev) results).Nodup := by
    intro candidates
    induction candidates with
    | nil => intro results h; exact h
    | cons p rest ih => intro results h; exact ih _ (nodup_pushMatch h p)
  unfold matchBucket
  split
  · exact hloop _ _ h
  · exact h

theorem fanOutScoped_eq :
    r.fanOutScoped c ev = (eventBuckets c ev).foldl (r.matchBucket c ev) [] := by
  unfold fanOutScoped eventBuckets
  cases ev.channelId with
  | some ch => rfl
  | none =>
      simp only [List.foldl_append, List.foldl_flatMap, List.foldl_map]
      rfl

theorem mem_fanOutScoped :
    x ∈ r.fanOutScoped c ev ↔
      (∃ b ∈ eventBuckets c ev, x ∈ r.members b) ∧ Matching r c ev x := by
  have hloop : ∀ (bs : List Bucket) (results : List (ConnId × SubId)),
      x ∈ bs.foldl (r.matchBucket c ev) results ↔
        x ∈ results ∨ ((∃ b ∈ bs, x ∈ r.members b) ∧ Matching r c ev x) := by
    intro bs
    induction bs with
    | nil => simp
    | cons b bs ih =>
        intro results
        rw [List.foldl_cons, ih, mem_matchBucket, List.exists_mem_cons_iff]
        tauto
  rw [fanOutScoped_eq, hloop]
  simp

theorem nodup_fanOutScoped : (r.fanOutScoped c ev).Nodup := by
  have hloop : ∀ (bs : List Bucket) (results : List (ConnId × SubId)),
      results.Nodup → (bs.foldl (r.matchBucket c ev) results).Nodup := by
    intro bs
    induction bs with
    | nil => intro results h; exact h
    | cons b bs ih => intro results h; exact ih _ (nodup_matchBucket h b)
  rw [fanOutScoped_eq]
  exact hloop _ _ List.nodup_nil

/-- With exact indexes fan-out finds every match. -/
theorem mem_fanOutScoped_of_indexed (hr : Indexed r) :
    x ∈ r.fanOutScoped c ev ↔ Matching r c ev x := by
  rw [mem_fanOutScoped, and_iff_right_iff_imp]
  rintro ⟨e, he, hm⟩
  obtain ⟨b, hb, hev⟩ := exists_indexKey_of_entryMatches hm
  exact ⟨b, hev, (hr _ _ _).2 ⟨e, he, hb⟩⟩

/-- Indexed fan-out refines a plain scan: after any sequence of operations
from the empty registry, fan-out returns each pair at most once and returns
exactly the pairs whose entry has the community, a scope that matches the
event's channel, and filters that match the event. -/
theorem fanOutScoped_refines_scan (ops : List RegistryOp) (c : CommunityId)
    (ev : StoredEvent) :
    let r := ops.foldl RegistryOp.apply new
    (r.fanOutScoped c ev).Nodup ∧
    ∀ conn sub, (conn, sub) ∈ r.fanOutScoped c ev ↔
      ∃ filters scope,
        r.entry conn sub = some ⟨filters, c, scope⟩ ∧
        scope.matchesChannel ev.channelId = true ∧
        filtersMatch filters ev = true := by
  intro r
  refine ⟨nodup_fanOutScoped, fun conn sub => ?_⟩
  rw [mem_fanOutScoped_of_indexed (indexed_foldl indexed_new ops)]
  simp only [Matching, entryMatches, Bool.and_eq_true, beq_iff_eq, and_assoc]
  constructor
  · rintro ⟨⟨filters, c', scope⟩, he, rfl, hscope, hm⟩
    exact ⟨filters, scope, he, hscope, hm⟩
  · rintro ⟨filters, scope, he, hscope, hm⟩
    exact ⟨⟨filters, c, scope⟩, he, rfl, hscope, hm⟩

end SubscriptionRegistry

end Buzz.Relay
