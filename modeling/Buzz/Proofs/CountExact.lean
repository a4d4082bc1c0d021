import Buzz.Proofs.Pushdown
import Buzz.Relay.Count

/-!
# When the SQL count is the filter's count

`count_events` is meant to count what the matcher accepts. On the fields of
`Candidate` the two read alike. What is left of SQL's reading is `Selected`,
what is left of the matcher's is `Matched`, and the count is exact over a set
of rows when the two agree on each of them.

The visibility gates add nothing: the conditions under which a filter is
counted in SQL make every matching event visible.
-/

namespace Buzz.Relay

open Buzz.Core Buzz.Db

/-- The fields SQL and the matcher read alike. -/
structure Candidate (filter : Filter) (event : Event) : Prop where
  kinds : ∀ ks, filter.kinds = some ks → event.kind ∈ ks.elems
  authors : ∀ as, filter.authors = some as → as.elems = [] ∨ event.pubkey ∈ as.elems
  ids : ∀ ids, filter.ids = some ids → ids.elems = [] ∨ event.id ∈ ids.elems
  eTags : ∀ vs, filter.genericTags.lookup .e = some vs →
    vs.elems = [] ∨ tagValuesMatch "e" vs.elems event = true
  notice : isMembershipNotice event = true →
    noticeVisible (noticeChannelTypes filter) event = true

/-- SQL's reading of the rest: time bounds that went through `i64` and chrono,
the first `d` tag, and a mention of the same hex digits in any case. -/
structure Selected (filter : Filter) (event : Event) : Prop where
  since : ∀ b, timeBound filter.since = some b → b ≤ secsAsI64 event.createdAt
  until' : ∀ b, timeBound filter.until' = some b → secsAsI64 event.createdAt ≤ b
  dTag : isNip33Only filter = true → ∀ vs, filter.genericTags.lookup .d = some vs →
    vs.elems = [] ∨ ∃ d ∈ vs.elems, extractDTag event = some d
  pTag : ∀ vs v, filter.genericTags.lookup .p = some vs → vs.elems = [v] →
    toAsciiLowercase v ∈ mentionKeys event

/-- The matcher's reading of the rest: an empty set matches nothing, time
bounds compare as `u64`, any tag of the name may hold the value, and `#h` is
compared with the event's `h` tags. -/
structure Matched (filter : Filter) (stored : StoredEvent) : Prop where
  authors : ∀ as, filter.authors = some as → as.elems ≠ []
  ids : ∀ ids, filter.ids = some ids → ids.elems ≠ []
  since : ∀ s, filter.since = some s → s ≤ stored.event.createdAt
  until' : ∀ u, filter.until' = some u → stored.event.createdAt ≤ u
  tags : ∀ entry ∈ filter.genericTags.entries,
    genericTagMatches stored entry.1.toText entry.2.elems = true

section

variable {filter : Filter} {reader : PublicKey} {stored : StoredEvent}

theorem filterMatchOne_iff_reads :
    filterMatchOne filter stored = true ↔
      Candidate filter stored.event ∧ Matched filter stored := by
  constructor
  · intro h
    obtain ⟨hnotice, hkinds, hauthors, hsince, huntil, hids, htags⟩ := filterMatchOne_iff.1 h
    refine ⟨⟨hkinds, fun as ha => .inr (hauthors as ha), fun ids hi => .inr (hids ids hi),
      fun vs hl => .inr ?_, hnotice⟩,
      ⟨fun as ha => List.ne_nil_of_mem (hauthors as ha),
        fun ids hi => List.ne_nil_of_mem (hids ids hi), hsince, huntil, htags⟩⟩
    have := filterMatchOne_lookup h hl
    rwa [genericTagMatches_of_ne (by decide) (by decide)] at this
  · rintro ⟨hc, hm⟩
    exact filterMatchOne_iff.2 ⟨hc.notice, hc.kinds,
      fun as ha => (hc.authors as ha).resolve_left (hm.authors as ha), hm.since, hm.until',
      fun ids hi => (hc.ids ids hi).resolve_left (hm.ids ids hi), hm.tags⟩

/-! ## The SQL side -/

/-- What `filter_fully_pushable` says of one tag. -/
theorem pushable_entry (h : filterFullyPushable filter = true) {key : SingleLetterTag}
    {vs : BTreeSet String} (hl : filter.genericTags.lookup key = some vs) :
    (match key.toText with
      | "h" => true
      | "p" => !(1 < vs.len)
      | "d" => vs.isEmpty || isNip33Only filter
      | "e" => true
      | _ => vs.isEmpty) = true := by
  simp only [filterFullyPushable, Bool.and_eq_true, List.all_eq_true] at h
  exact h.1 ⟨key, vs⟩ (AList.mem_lookup_iff.1 hl)

/-- A pushable filter leaves nothing to the tag clauses: `#d` goes to the
column, and `#t` and `#P` are empty. -/
theorem tagClauses_of_pushable (h : filterFullyPushable filter = true)
    {channelId : Option Uuid} {cols : Columns} :
    tagClauses (filterToQueryParams filter channelId) cols = true := by
  have hd : (filterToQueryParams filter channelId).dTagValues = none := by
    simp only [filterToQueryParams]
    split
    next hart =>
        rw [Option.eq_none_iff_forall_ne_some]
        intro values hvalues
        obtain ⟨vs, hl, rfl, hne⟩ := nonEmptyValues_eq_some.1 hvalues
        have hentry : (vs.isEmpty || isNip33Only filter) = true := pushable_entry h hl
        rcases Bool.or_eq_true _ _ ▸ hentry with hempty | hnip
        · exact hne (List.isEmpty_iff.1 hempty)
        · rw [isNip33Only_artifact hnip] at hart
          cases hart
    · rfl
  have ht : (filterToQueryParams filter channelId).tagValues = [] := by
    simp only [filterToQueryParams, groupStateTagValues]
    split
    next =>
        rw [List.filterMap_eq_nil_iff]
        intro key hkey
        cases hl : filter.genericTags.lookup key with
        | none => rfl
        | some vs =>
            have hempty : vs.isEmpty = true := by
              simp only [List.mem_cons, List.not_mem_nil, or_false] at hkey
              rcases hkey with rfl | rfl <;> exact pushable_entry h hl
            simp [hempty]
    · rfl
  simp only [tagClauses, hd, ht, Option.all_none, Bool.true_and]
  rfl

/-- A filter's query under an applied channel scope. -/
def scopedQuery (filter : Filter) (channelId : Option Uuid) (channelIds : Option (List Uuid))
    (includeGlobal : Bool) (limit : Option Int) : EventQuery :=
  { filterToQueryParams filter channelId with
    channelIds := channelIds, channelIdsIncludeGlobal := includeGlobal, limit := limit }

variable {channelId : Option Uuid} {channelIds : Option (List Uuid)} {includeGlobal : Bool}
  {limit : Option Int}

/-- The live rows of the query's scope, without superseded artifact
revisions. -/
def inAnswerScope (q : EventQuery) (row : StoredRow) : Bool :=
  !row.deleted && channelClauses q row.channelId && currentRevision q row

theorem countEventsSql_iff (h : filterFullyPushable filter = true)
    (hkinds : ∀ ks, filter.kinds = some ks → ks.elems ≠ []) (row : StoredRow) :
    countEventsSql (scopedQuery filter channelId channelIds includeGlobal limit) row = true ↔
      inAnswerScope (scopedQuery filter channelId channelIds includeGlobal limit) row = true ∧
        Candidate filter row.event ∧ Selected filter row.event := by
  have hcreated : row.columns.createdAt = secsAsI64 row.event.createdAt := by rw [columns_eq]
  have hmentions : row.columns.mentions = mentionKeys row.event := by rw [columns_eq]
  simp only [countEventsSql, inAnswerScope, Bool.and_eq_true, columns_channelId]
  constructor
  · rintro ⟨⟨⟨⟨⟨⟨⟨⟨⟨hlive, hmention⟩, hcurrent⟩, hnotice⟩, hchannel⟩, hsel⟩, -⟩, hsince⟩, huntil⟩,
      hdtag⟩
    -- Every clause but the channels' is that of the unscoped parameters.
    have hsel : selectors (filterToQueryParams filter channelId) row.columns = true := hsel
    obtain ⟨hk, hauthors, hids, he⟩ := (selectors_iff row).1 hsel
    have hk := fun ks hks => (hk ks hks).resolve_left (hkinds ks hks)
    have hnotice : noticeVisibility (filterToQueryParams filter channelId) row.columns = true :=
      hnotice
    have hdtag : dTagColumn (filterToQueryParams filter channelId) row.columns = true := hdtag
    have hmention : mentionJoin (filterToQueryParams filter channelId) row.columns = true :=
      hmention
    refine ⟨⟨⟨hlive, hchannel⟩, hcurrent⟩,
      ⟨hk, hauthors, hids, he, (noticeVisibility_iff row hk).1 hnotice⟩,
      ⟨fun b hb => ?_, fun b hb => ?_, (dTagColumn_iff row).1 hdtag, fun vs v hl hv => ?_⟩⟩
    · simpa [hcreated] using (Option.all_eq_true _ _).1 hsince b hb
    · simpa [hcreated] using (Option.all_eq_true _ _).1 huntil b hb
    · rw [← hmentions]
      exact key_of_mentionJoin hmention (pTagHex_eq_some.2 ⟨vs, hl, hv⟩)
  · rintro ⟨⟨⟨hlive, hchannel⟩, hcurrent⟩, hc, hs⟩
    have hsel : selectors (filterToQueryParams filter channelId) row.columns = true :=
      (selectors_iff row).2 ⟨fun ks hks => .inr (hc.kinds ks hks), hc.authors, hc.ids, hc.eTags⟩
    have hsince : ((timeBound filter.since).all
        fun s => decide (s ≤ row.columns.createdAt)) = true := by
      rw [Option.all_eq_true]
      exact fun b hb => by simpa [hcreated] using hs.since b hb
    have huntil : ((timeBound filter.until').all
        fun u => decide (row.columns.createdAt ≤ u)) = true := by
      rw [Option.all_eq_true]
      exact fun b hb => by simpa [hcreated] using hs.until' b hb
    have hmention : mentionJoin (filterToQueryParams filter channelId) row.columns = true := by
      refine mentionJoin_of_key (fun p hp => ?_) hsince huntil hsel
      obtain ⟨vs, hl, hv⟩ := pTagHex_eq_some.1 hp
      rw [hmentions]
      exact hs.pTag vs p hl hv
    have hnotice : noticeVisibility (filterToQueryParams filter channelId) row.columns = true :=
      (noticeVisibility_iff row hc.kinds).2 hc.notice
    have htags : tagClauses (filterToQueryParams filter channelId) row.columns = true :=
      tagClauses_of_pushable h
    have hdtag : dTagColumn (filterToQueryParams filter channelId) row.columns = true :=
      (dTagColumn_iff row).2 hs.dTag
    exact ⟨⟨⟨⟨⟨⟨⟨⟨⟨hlive, hmention⟩, hcurrent⟩, hnotice⟩, hchannel⟩, hsel⟩, htags⟩, hsince⟩,
      huntil⟩, hdtag⟩

/-! ## Visibility -/

/-- A filter that matches an event of one of `kinds` can match those kinds. -/
theorem filterCanMatch_of_mem {kinds : List Nat}
    (h : filterMatchOne filter stored = true)
    (hkind : eventKind stored.event ∈ kinds) :
    filterCanMatch filter kinds = true := by
  by_contra hno
  rw [Bool.not_eq_true, filterCanMatch_eq_false] at hno
  obtain ⟨ks, hks, hnone⟩ := hno
  exact hnone _ ((filterMatchOne_iff.1 h).2.1 ks hks) hkind

/-- Under the conditions of the SQL count, what matches is visible. -/
theorem visible_of_match (hsql : countsInSql filter reader = true)
    (h : filterMatchOne filter stored = true) :
    eventVisibleToReader stored.event reader = true := by
  simp only [countsInSql, Bool.and_eq_true, Bool.or_eq_true, Bool.not_eq_true'] at hsql
  obtain ⟨⟨⟨-, hauthor⟩, hresult⟩, hshared⟩ := hsql
  have hauthorOnly : isAuthorOnlyEvent stored.event reader = false := by
    by_contra hevent
    simp only [isAuthorOnlyEvent, isAuthorOnlyEventKind, Bool.not_eq_false, Bool.and_eq_true,
      Bool.or_eq_true, decide_eq_true_eq, beq_iff_eq, bne_iff_ne] at hevent
    have hkind : eventKind stored.event ∈ kindDeletion :: authorOnlyKinds := by
      rcases hevent.1 with hk | ⟨hk, -⟩
      · exact List.mem_cons_of_mem _ hk
      · rw [hk]; exact List.mem_cons_self
    -- The filter then names the reader as the only author.
    rcases hauthor with hno | hself
    · rw [filterCanMatchAuthorOnlyKinds, filterCanMatch_of_mem h hkind] at hno
      cases hno
    · obtain ⟨as, has, hall⟩ := (Option.any_eq_true _ _).1 hself
      simp only [Bool.and_eq_true, List.all_eq_true, beq_iff_eq] at hall
      exact hevent.2 (hall.2 _ ((filterMatchOne_iff.1 h).2.2.1 as has))
  have hunshared : isUnsharedGatedEvent stored.event reader = false := by
    by_contra hevent
    simp only [isUnsharedGatedEvent, Bool.not_eq_false, Bool.and_eq_true,
      decide_eq_true_eq] at hevent
    rw [filterCanMatchSharedGatedKinds, filterCanMatch_of_mem h hevent.1.1] at hshared
    cases hshared
  have hgated : readerAuthorizedForEvent stored.event reader.toHex = true := by
    simp only [readerAuthorizedForEvent, Bool.or_eq_true, decide_eq_true_eq]
    by_cases hkind : eventKind stored.event ∈ resultGatedKinds
    · -- `#p` is the reader alone, and some `p` tag holds that value.
      refine .inr ?_
      rw [filterCanMatchResultGatedKinds, filterCanMatch_of_mem h hkind, Bool.true_and,
        Bool.not_eq_false', resultGatedCountSafeForPushdown, pTagIsSelf] at hresult
      obtain ⟨vs, hl, hall⟩ := (Option.any_eq_true _ _).1 hresult
      simp only [Bool.and_eq_true, List.all_eq_true, beq_iff_eq] at hall
      have hm := filterMatchOne_lookup h hl
      rw [genericTagMatches_of_ne (by decide) (by decide), tagValuesMatch_iff] at hm
      obtain ⟨t, ht, hname, -, v, hv, hc⟩ := hm
      have hname : t.name = "p" := hname
      rw [List.any_eq_true]
      exact ⟨t, ht, by simp [hname, hc, hall.2 v hv]⟩
    · exact .inl hkind
  simp [eventVisibleToReader, hauthorOnly, hunshared, hgated]

theorem countedEvent_iff (hsql : countsInSql filter reader = true) :
    countedEvent filter reader stored = true ↔
      Candidate filter stored.event ∧ Matched filter stored := by
  rw [← filterMatchOne_iff_reads, countedEvent, Bool.and_eq_true]
  have hone : filtersMatch [filter] stored = filterMatchOne filter stored := by
    simp [filtersMatch]
  rw [hone]
  exact ⟨fun h => h.1, fun h => ⟨h, visible_of_match hsql h⟩⟩

/-! ## The counts -/

/-- Whether SQL and the matcher count one row alike. -/
theorem countsRow_iff (hsql : countsInSql filter reader = true)
    (hkinds : ∀ ks, filter.kinds = some ks → ks.elems ≠ []) (row : StoredRow) :
    countEventsSql (scopedQuery filter channelId channelIds includeGlobal limit) row =
      (inAnswerScope (scopedQuery filter channelId channelIds includeGlobal limit) row &&
        countedEvent filter reader row.stored) ↔
    (inAnswerScope (scopedQuery filter channelId channelIds includeGlobal limit) row = true →
      Candidate filter row.event →
      (Selected filter row.event ↔ Matched filter row.stored)) := by
  have hpush : filterFullyPushable filter = true := by
    simp only [countsInSql, Bool.and_eq_true] at hsql
    exact hsql.1.1.1
  rw [Bool.eq_iff_iff, countEventsSql_iff hpush hkinds, Bool.and_eq_true,
    countedEvent_iff hsql]
  constructor
  · intro h hscope hc
    exact ⟨fun hs => (h.1 ⟨hscope, hc, hs⟩).2.2, fun hm => (h.2 ⟨hscope, hc, hm⟩).2.2⟩
  · intro h
    exact ⟨fun ⟨hscope, hc, hs⟩ => ⟨hscope, hc, (h hscope hc).1 hs⟩,
      fun ⟨hscope, hc, hm⟩ => ⟨hscope, hc, (h hscope hc).2 hm⟩⟩

/-- With a kind to look for, the count goes to the database: no other list
of the query is ever empty. -/
theorem countEvents_scopedQuery (hkinds : ∀ ks, filter.kinds = some ks → ks.elems ≠ [])
    (db : EventStore) :
    countEvents (scopedQuery filter channelId channelIds includeGlobal limit) db =
      match bindError (scopedQuery filter channelId channelIds includeGlobal limit) with
      | some e => .error e
      | none => .ok (db.rows.countP
          (countEventsSql (scopedQuery filter channelId channelIds includeGlobal limit))) := by
  have hempty := emptyLists_filterToQueryParams filter channelId
  have hk : filter.kinds.any (·.isEmpty) = false := by
    cases h : filter.kinds with
    | none => rfl
    | some ks => simpa [BTreeSet.isEmpty] using hkinds ks h
  rw [hk] at hempty
  refine if_neg ?_
  simp only [Bool.or_eq_true, not_or, Bool.not_eq_true]
  exact ⟨⟨⟨hempty.1, hempty.2.1⟩, hempty.2.2.1⟩, hempty.2.2.2⟩

theorem countEvents_of_no_kind {ks : BTreeSet Kind} (hks : filter.kinds = some ks)
    (hempty : ks.elems = []) (db : EventStore) :
    countEvents (scopedQuery filter channelId channelIds includeGlobal limit) db = .ok 0 := by
  refine if_pos ?_
  simp [scopedQuery, filterToQueryParams, hks, hempty]

/-- Over every set of rows of a store, the SQL count is the number of rows in
the scope that match the filter and are visible, exactly when SQL and the
matcher agree on each row both could count. A filter with an empty kind set
counts nothing on either side, and a statement whose parameters Postgres
refuses counts nothing at all. -/
theorem countEvents_exact_iff (filter : Filter) (reader : PublicKey)
    (channelId : Option Uuid) (channelIds : Option (List Uuid)) (includeGlobal : Bool)
    (limit : Option Int) (db : EventStore) (hsql : countsInSql filter reader = true) :
    (∀ db' : EventStore, (∀ row ∈ db'.rows, row ∈ db.rows) →
      countEvents (scopedQuery filter channelId channelIds includeGlobal limit) db' =
        .ok (db'.rows.countP fun row =>
          inAnswerScope (scopedQuery filter channelId channelIds includeGlobal limit) row &&
            countedEvent filter reader row.stored)) ↔
    (∃ ks, filter.kinds = some ks ∧ ks.elems = []) ∨
      (bindError (scopedQuery filter channelId channelIds includeGlobal limit) = none ∧
        ∀ row ∈ db.rows,
          inAnswerScope (scopedQuery filter channelId channelIds includeGlobal limit) row =
            true →
          Candidate filter row.event →
          (Selected filter row.event ↔ Matched filter row.stored)) := by
  by_cases hkinds : ∃ ks, filter.kinds = some ks ∧ ks.elems = []
  · -- No kind to count: zero on both sides.
    refine iff_of_true (fun db' _ => ?_) (.inl hkinds)
    obtain ⟨ks, hks, hempty⟩ := hkinds
    rw [countEvents_of_no_kind hks hempty]
    refine congrArg Except.ok (Eq.symm (List.countP_eq_zero.2 fun row _ h => ?_))
    rw [Bool.and_eq_true, countedEvent_iff hsql] at h
    have hmem := h.2.1.kinds ks hks
    rw [hempty] at hmem
    cases hmem
  · rw [or_iff_right hkinds]
    push Not at hkinds
    constructor
    · intro hcount
      have hbind : bindError (scopedQuery filter channelId channelIds includeGlobal limit) =
          none := by
        have hnone := hcount ⟨[], by simp⟩ (fun row hrow => by cases hrow)
        rw [countEvents_scopedQuery hkinds] at hnone
        split at hnone
        · cases hnone
        · assumption
      refine ⟨hbind, fun row hrow => ?_⟩
      -- One row alone: equal counts are equal verdicts.
      have hone := hcount ⟨[row], by simp⟩ (fun r hr => by
        rw [List.mem_singleton.1 hr]; exact hrow)
      rw [countEvents_scopedQuery hkinds, hbind] at hone
      have hone := Except.ok.inj hone
      rw [List.countP_singleton, List.countP_singleton] at hone
      refine (countsRow_iff hsql hkinds row).1 ?_
      revert hone
      cases countEventsSql (scopedQuery filter channelId channelIds includeGlobal limit) row <;>
        cases inAnswerScope (scopedQuery filter channelId channelIds includeGlobal limit) row &&
          countedEvent filter reader row.stored <;> simp
    · rintro ⟨hbind, hrows⟩ db' hsub
      rw [countEvents_scopedQuery hkinds, hbind]
      refine congrArg Except.ok (List.countP_congr fun row hrow => ?_)
      rw [(countsRow_iff hsql hkinds row).2 (hrows row (hsub row hrow))]

end

/-- Messages of one author since the epoch: nothing for the two to read
differently. -/
def authorFilter : Filter where
  kinds := some (.single 9)
  authors := some (.single (.ofByte 7))
  since := some 0

theorem countEvents_exact_iff_authorFilter :
    countsInSql authorFilter (.ofByte 0) = true ∧
    ∀ db' : EventStore, (∀ row ∈ db'.rows, row ∈ (oneMessage (.ofByte 1)).rows) →
      countEvents (scopedQuery authorFilter none (some [.ofByte 1]) true none) db' =
        .ok (db'.rows.countP fun row =>
          inAnswerScope (scopedQuery authorFilter none (some [.ofByte 1]) true none) row &&
            countedEvent authorFilter (.ofByte 0) row.stored) := by
  refine ⟨rfl, (countEvents_exact_iff authorFilter (.ofByte 0) none (some [.ofByte 1]) true
    none (oneMessage (.ofByte 1)) rfl).2 (.inr ⟨rfl, fun row hrow _ _ => ?_⟩)⟩
  rw [oneMessage, List.mem_singleton] at hrow
  subst hrow
  refine iff_of_true ⟨fun b hb => ?_, fun b hb => ?_, fun h => ?_, fun vs v hl _ => ?_⟩
    ⟨fun as ha => ?_, fun ids hi => ?_, fun s hs => ?_, fun u hu => ?_, fun entry he => ?_⟩
  · cases hb; decide
  · cases hb
  · cases h
  · cases hl
  · cases ha; decide
  · cases hi
  · cases hs; decide
  · cases hu
  · cases he

/-- An empty `authors` list: SQL drops the constraint and counts the channel's
message, the matcher accepts no event at all. -/
theorem emptyAuthors_overcounts :
    let filter : Filter := { kinds := some ⟨[9], by decide⟩, authors := some ⟨[], by decide⟩ }
    let q := scopedQuery filter none (some [.ofByte 1]) true none
    countsInSql filter (.ofByte 0) = true ∧
    countEvents q (oneMessage (.ofByte 1)) = .ok 1 ∧
    ((oneMessage (.ofByte 1)).rows.countP fun row =>
      inAnswerScope q row && countedEvent filter (.ofByte 0) row.stored) = 0 :=
  ⟨rfl, rfl, rfl⟩

/-! ## The usual case -/

/-- A filter the two cannot read differently: no list is empty, times are in
the years chrono knows, and a `#p` value is a key in lower case. -/
structure PlainFilter (filter : Filter) : Prop where
  authors : ∀ as, filter.authors = some as → as.elems ≠ []
  ids : ∀ ids, filter.ids = some ids → ids.elems ≠ []
  tags : ∀ entry ∈ filter.genericTags.entries, entry.2.elems ≠ []
  since : ∀ s, filter.since = some s → s.toNat ≤ 8210266876799
  until' : ∀ u, filter.until' = some u → u.toNat ≤ 8210266876799
  pTag : ∀ vs, filter.genericTags.lookup .p = some vs →
    ∀ v ∈ vs.elems, isPubkeyHex v = true ∧ toAsciiLowercase v = v

/-- And a row they cannot: its time is no negative one, it has one `d` tag where
`#d` asks for it, its keys are in lower case, and its channel is one that `#h`
names and its `h` tags name no other. -/
structure PlainRow (filter : Filter) (stored : StoredEvent) : Prop where
  createdAt : stored.event.createdAt.toNat < 2 ^ 63
  dTag : ∀ vs, filter.genericTags.lookup .d = some vs →
    ∃ value rest, stored.event.tags.filter (·.name == "d") = [⟨"d", value :: rest⟩]
  pTag : ∀ t ∈ stored.event.tags, t.name = "p" → ∀ value, t.content = some value →
    isPubkeyHex value = true → toAsciiLowercase value = value
  hTag : ∀ vs, filter.genericTags.lookup .h = some vs →
    ∃ c, stored.channelId = some c ∧ c.toText ∈ vs.elems ∧
      ∀ t ∈ stored.event.tags, t.name = "h" → t.content = some c.toText

section Plain

variable {filter : Filter} {stored : StoredEvent} {vs : BTreeSet String}

theorem secsAsI64_of_lt {s : UInt64} (h : s.toNat < 2 ^ 63) :
    secsAsI64 s = s.toNat := by
  rcases secsAsI64_cases s with ⟨-, heq⟩ | ⟨hge, -⟩
  · exact heq
  · omega

theorem timeBound_of_le {s : UInt64} (h : s.toNat ≤ 8210266876799) :
    timeBound (some s) = some (s.toNat : Int) := by
  show fromTimestamp (secsAsI64 s) = _
  rw [secsAsI64_of_lt (by omega), fromTimestamp_eq_some]
  omega

theorem not_attribution_of_ne {event : Event} {t : Tag} (h : t.name ≠ "p") :
    isWorkflowOwnerAttribution event t = false := by
  unfold isWorkflowOwnerAttribution Tag.asSlice
  obtain ⟨name, rest⟩ := t
  have hname : (name == "p") = false := beq_eq_false_iff_ne.2 h
  match rest with
  | [] => rfl
  | [_] => rfl
  | [_, _] => rfl
  | _ :: _ :: marker :: _ =>
      dsimp only
      rw [hname]
      rfl

theorem findSome?_of_one {tags : List Tag} {name value : String} {first : Tag}
    {f : Tag → Option String} (hfirst : f first = some value)
    (hother : ∀ t : Tag, t.name ≠ name → f t = none)
    (h : tags.filter (·.name == name) = [first]) : tags.findSome? f = some value := by
  induction tags with
  | nil => cases h
  | cons t tags ih =>
      by_cases hname : t.name = name
      · rw [List.filter_cons, if_pos (beq_iff_eq.2 hname)] at h
        rw [(List.cons.inj h).1, List.findSome?_cons, hfirst]
      · rw [List.filter_cons, if_neg fun heq => hname (beq_iff_eq.1 heq)] at h
        rw [List.findSome?_cons, hother t hname]
        exact ih h

/-- The one `d` tag is the first one. -/
theorem extractDTag_of_one {event : Event} {value : String} {rest : List String}
    (hkind : isParameterizedReplaceable (eventKind event) = true)
    (h : event.tags.filter (·.name == "d") = [⟨"d", value :: rest⟩]) :
    extractDTag event = some value := by
  unfold extractDTag
  rw [if_pos hkind, findSome?_of_one rfl (fun t hname => ?_) h, Option.getD_some]
  obtain ⟨name, rest⟩ := t
  cases rest with
  | nil => rfl
  | cons v rest => exact if_neg hname

theorem genericTagMatches_h {values : List String} (h : ∃ c, stored.channelId = some c ∧
      c.toText ∈ values ∧ ∀ t ∈ stored.event.tags, t.name = "h" →
        t.content = some c.toText) :
    genericTagMatches stored "h" values = true := by
  obtain ⟨c, hchannel, hmem, htags⟩ := h
  unfold genericTagMatches
  split
  · rfl
  · split
    · rfl
    · next hno =>
        rw [if_pos rfl, hchannel, Bool.and_eq_true, Bool.not_eq_true']
        refine ⟨?_, List.any_eq_true.2 ⟨_, hmem, beq_self_eq_true _⟩⟩
        rw [← Bool.not_eq_true, List.any_eq_true]
        rintro ⟨t, ht, hname⟩
        have hname : t.name = "h" := beq_iff_eq.1 hname
        refine hno (tagValuesMatch_iff.2 ⟨t, ht, hname, ?_, _, hmem, htags t ht hname⟩)
        exact not_attribution_of_ne (by rw [hname]; decide)

theorem PlainFilter.since_iff (h : PlainFilter filter) (hrow : PlainRow filter stored) :
    (∀ b, timeBound filter.since = some b → b ≤ secsAsI64 stored.event.createdAt) ↔
      ∀ s, filter.since = some s → s ≤ stored.event.createdAt := by
  cases hsince : filter.since with
  | none => exact iff_of_true nofun nofun
  | some s =>
      rw [timeBound_of_le (h.since s hsince), secsAsI64_of_lt hrow.createdAt]
      simp only [Option.some.injEq, forall_eq', UInt64.le_iff_toNat_le, Int.ofNat_le]

theorem PlainFilter.until_iff (h : PlainFilter filter) (hrow : PlainRow filter stored) :
    (∀ b, timeBound filter.until' = some b → secsAsI64 stored.event.createdAt ≤ b) ↔
      ∀ u, filter.until' = some u → stored.event.createdAt ≤ u := by
  cases huntil : filter.until' with
  | none => exact iff_of_true nofun nofun
  | some u =>
      rw [timeBound_of_le (h.until' u huntil), secsAsI64_of_lt hrow.createdAt]
      simp only [Option.some.injEq, forall_eq', UInt64.le_iff_toNat_le, Int.ofNat_le]

/-- SQL finds the first `d` tag, the matcher any: there is one. -/
theorem PlainRow.dTag_iff (hrow : PlainRow filter stored)
    (hkind : isParameterizedReplaceable (eventKind stored.event) = true)
    (hl : filter.genericTags.lookup .d = some vs) :
    (∃ d ∈ vs.elems, extractDTag stored.event = some d) ↔
      tagValuesMatch "d" vs.elems stored.event = true := by
  obtain ⟨value, rest, hone⟩ := hrow.dTag vs hl
  have htag : ∀ t ∈ stored.event.tags, t.name = "d" → t = ⟨"d", value :: rest⟩ := by
    intro t ht hname
    have hmem : t ∈ stored.event.tags.filter (·.name == "d") :=
      List.mem_filter.2 ⟨ht, beq_iff_eq.2 hname⟩
    rw [hone] at hmem
    exact List.mem_singleton.1 hmem
  have hthere : (⟨"d", value :: rest⟩ : Tag) ∈ stored.event.tags :=
    (List.mem_filter.1 (hone ▸ List.mem_singleton.2 rfl)).1
  rw [extractDTag_of_one hkind hone, tagValuesMatch_iff]
  constructor
  · rintro ⟨d, hd, heq⟩
    cases heq
    exact ⟨_, hthere, rfl, not_attribution_of_ne (by simp), value, hd, rfl⟩
  · rintro ⟨t, ht, hname, -, v, hv, hcontent⟩
    rw [htag t ht hname] at hcontent
    cases hcontent
    exact ⟨value, hv, rfl⟩

/-- The mention index has a key in lower case, and so has the tag. -/
theorem PlainFilter.pTag_iff (h : PlainFilter filter)
    (hrow : PlainRow filter stored) {v : String}
    (hl : filter.genericTags.lookup .p = some vs) (hone : vs.elems = [v]) :
    toAsciiLowercase v ∈ mentionKeys stored.event ↔
      tagValuesMatch "p" vs.elems stored.event = true := by
  have hv := h.pTag vs hl v (by rw [hone]; exact List.mem_cons_self)
  rw [hone, hv.2, mem_mentionKeys, tagValuesMatch_iff]
  refine exists_congr fun t => and_congr_right fun ht => and_congr_right fun hname =>
    and_congr_right fun _ => ?_
  constructor
  · rintro ⟨w, hcontent, hhex, hlower⟩
    rw [hrow.pTag t ht hname w hcontent hhex] at hlower
    exact ⟨v, List.mem_singleton.2 rfl, hlower ▸ hcontent⟩
  · rintro ⟨w, hw, hcontent⟩
    rw [List.mem_singleton.1 hw] at hcontent
    exact ⟨v, hcontent, hv⟩

/-- The tags a filter that is counted in SQL can have. -/
theorem pushable_key (h : filterFullyPushable filter = true)
    {key : SingleLetterTag} (hl : filter.genericTags.lookup key = some vs)
    (hne : vs.elems ≠ []) :
    key = .h ∨ (key = .p ∧ ∃ v, vs.elems = [v]) ∨
      (key = .d ∧ isNip33Only filter = true) ∨ key = .e := by
  have hentry := pushable_entry h hl
  have hkey : ∀ {k : SingleLetterTag}, key.toText = k.toText → key = k :=
    fun htext => SingleLetterTag.toText_injective htext
  have hempty : vs.isEmpty = false := List.isEmpty_eq_false_iff.2 hne
  split at hentry
  · next htext => exact .inl (hkey htext)
  · next htext =>
      refine .inr (.inl ⟨hkey htext, List.length_eq_one_iff.1 ?_⟩)
      have hpos := List.length_pos_iff.2 hne
      have hone : ¬ 1 < vs.elems.length := by
        rw [Bool.not_eq_true'] at hentry
        exact of_decide_eq_false hentry
      omega
  · next htext =>
      rw [hempty, Bool.false_or] at hentry
      exact .inr (.inr (.inl ⟨hkey htext, hentry⟩))
  · next htext => exact .inr (.inr (.inr (hkey htext)))
  · rw [hempty] at hentry
    cases hentry

theorem parameterized_of_candidate (hnip : isNip33Only filter = true)
    (hc : Candidate filter stored.event) :
    isParameterizedReplaceable (eventKind stored.event) = true := by
  obtain ⟨ks, hks, hall⟩ := (Option.any_eq_true _ _).1 hnip
  rw [Bool.and_eq_true, List.all_eq_true] at hall
  exact hall.2 _ (hc.kinds ks hks)

theorem PlainFilter.selected_iff_matched (h : PlainFilter filter)
    (hrow : PlainRow filter stored) (hpush : filterFullyPushable filter = true)
    (hc : Candidate filter stored.event) :
    Selected filter stored.event ↔ Matched filter stored := by
  have hvalues : ∀ {key : SingleLetterTag} {vs : BTreeSet String},
      filter.genericTags.lookup key = some vs → vs.elems ≠ [] :=
    fun hl => h.tags _ (AList.mem_lookup_iff.1 hl)
  constructor
  · intro hs
    refine ⟨h.authors, h.ids, (h.since_iff hrow).1 hs.since,
      (h.until_iff hrow).1 hs.until', fun entry he => ?_⟩
    obtain ⟨key, vs⟩ := entry
    have hl : filter.genericTags.lookup key = some vs := AList.mem_lookup_iff.2 he
    rcases pushable_key hpush hl (hvalues hl) with rfl | ⟨rfl, v, hv⟩ | ⟨rfl, hnip⟩ | rfl
    · exact genericTagMatches_h (hrow.hTag vs hl)
    · show genericTagMatches stored SingleLetterTag.p.toText vs.elems = true
      rw [genericTagMatches_of_ne (by decide) (by decide)]
      exact (h.pTag_iff hrow hl hv).1 (hs.pTag vs v hl hv)
    · show genericTagMatches stored SingleLetterTag.d.toText vs.elems = true
      rw [genericTagMatches_of_ne (by decide) (by decide)]
      refine (hrow.dTag_iff (parameterized_of_candidate hnip hc) hl).1 ?_
      exact (hs.dTag hnip vs hl).resolve_left (hvalues hl)
    · show genericTagMatches stored SingleLetterTag.e.toText vs.elems = true
      rw [genericTagMatches_of_ne (by decide) (by decide)]
      exact (hc.eTags vs hl).resolve_left (hvalues hl)
  · intro hm
    have htag : ∀ {key : SingleLetterTag} {vs : BTreeSet String},
        filter.genericTags.lookup key = some vs →
        genericTagMatches stored key.toText vs.elems = true :=
      fun {key vs} hl => hm.tags ⟨key, vs⟩ (AList.mem_lookup_iff.1 hl)
    refine ⟨(h.since_iff hrow).2 hm.since, (h.until_iff hrow).2 hm.until',
      fun hnip vs hl => .inr ?_, fun vs v hl hv => ?_⟩
    · refine (hrow.dTag_iff (parameterized_of_candidate hnip hc) hl).2 ?_
      have hmatch := htag hl
      rwa [genericTagMatches_of_ne (by decide) (by decide)] at hmatch
    · refine (h.pTag_iff hrow hl hv).2 ?_
      have hmatch := htag hl
      rwa [genericTagMatches_of_ne (by decide) (by decide)] at hmatch

end Plain

/-- The SQL count of a plain filter over plain rows is exact. -/
theorem countEvents_exact_of_plain {filter : Filter} {reader : PublicKey}
    {channelId : Option Uuid} {channelIds : Option (List Uuid)} {includeGlobal : Bool}
    {limit : Option Int} {db : EventStore} (hsql : countsInSql filter reader = true)
    (hkinds : ∀ ks, filter.kinds = some ks → ks.elems ≠ [])
    (hbind : bindError (scopedQuery filter channelId channelIds includeGlobal limit) = none)
    (hfilter : PlainFilter filter)
    (hrows : ∀ row ∈ db.rows,
      inAnswerScope (scopedQuery filter channelId channelIds includeGlobal limit) row = true →
        PlainRow filter row.stored) :
    countEvents (scopedQuery filter channelId channelIds includeGlobal limit) db =
      .ok (db.rows.countP fun row =>
        inAnswerScope (scopedQuery filter channelId channelIds includeGlobal limit) row &&
          countedEvent filter reader row.stored) := by
  have hpush : filterFullyPushable filter = true := by
    simp only [countsInSql, Bool.and_eq_true] at hsql
    exact hsql.1.1.1
  rw [countEvents_scopedQuery hkinds, hbind]
  refine congrArg Except.ok (List.countP_congr fun row hrow => ?_)
  rw [(countsRow_iff hsql hkinds row).2 fun hscope hc => ?_]
  exact hfilter.selected_iff_matched (hrows row hrow hscope) hpush hc

end Buzz.Relay
