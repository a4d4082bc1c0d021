import Buzz.Proofs.Pushdown
import Buzz.Relay.History

/-!
# When a history read drops nothing

A REQ queries first and matches afterwards, so an event that matches but fails
a pushed clause is lost without a trace. Given the match, each clause is
either implied by it or comes down to one fact about the event, and `Kept`
lists these facts: the stored channel is one the `#h` values name, the time
bounds survive the trip through `i64`, the first `d` tag carries the value,
and the `#p` value is one the mention index can hold.
-/

namespace Buzz.Relay

open Buzz.Core Buzz.Db

/-! ## Time bounds -/

/-- The only way a satisfied lower bound turns into a failed clause: the
event's time wraps below zero and the bound does not. -/
theorem since_iff {since createdAt : UInt64} (h : since ≤ createdAt) :
    (∀ b, fromTimestamp (secsAsI64 since) = some b → b ≤ secsAsI64 createdAt) ↔
      ¬ (since.toNat ≤ 8210266876799 ∧ 2 ^ 63 ≤ createdAt.toNat) := by
  have hle : since.toNat ≤ createdAt.toNat := UInt64.le_iff_toNat_le.1 h
  have hs := since.toNat_lt
  have hc := createdAt.toNat_lt
  simp only [fromTimestamp_eq_some]
  constructor
  · rintro hall ⟨hsmall, hbig⟩
    have := hall (secsAsI64 since)
    rcases secsAsI64_cases since with ⟨-, hs'⟩ | ⟨hs', -⟩ <;>
      rcases secsAsI64_cases createdAt with ⟨hc', -⟩ | ⟨-, hc'⟩ <;> omega
  · rintro hno b ⟨rfl, hlo, hhi⟩
    rcases secsAsI64_cases since with ⟨_, hs'⟩ | ⟨_, hs'⟩ <;>
      rcases secsAsI64_cases createdAt with ⟨_, hc'⟩ | ⟨_, hc'⟩ <;> omega

/-- And of an upper bound: the bound wraps into the years chrono knows, and
the event's time does not wrap. -/
theorem until_iff {until' createdAt : UInt64} (h : createdAt ≤ until') :
    (∀ b, fromTimestamp (secsAsI64 until') = some b → secsAsI64 createdAt ≤ b) ↔
      ¬ (createdAt.toNat < 2 ^ 63 ∧ 2 ^ 64 - 8334601228800 ≤ until'.toNat) := by
  have hle : createdAt.toNat ≤ until'.toNat := UInt64.le_iff_toNat_le.1 h
  have hu := until'.toNat_lt
  have hc := createdAt.toNat_lt
  simp only [fromTimestamp_eq_some]
  constructor
  · rintro hall ⟨hsmall, hbig⟩
    have := hall (secsAsI64 until')
    rcases secsAsI64_cases until' with ⟨hu', -⟩ | ⟨-, hu'⟩ <;>
      rcases secsAsI64_cases createdAt with ⟨-, hc'⟩ | ⟨hc', -⟩ <;> omega
  · rintro hno b ⟨rfl, hlo, hhi⟩
    rcases secsAsI64_cases until' with ⟨_, hu'⟩ | ⟨_, hu'⟩ <;>
      rcases secsAsI64_cases createdAt with ⟨_, hc'⟩ | ⟨_, hc'⟩ <;> omega

/-! ## Channels -/

section Channels

variable {parse : String → Option Uuid} {reach : Reach} {reader : PublicKey}
  {filters : List Filter} {filter : Filter}

theorem values_eq_some {found found' : Option Uuid} {ids : List Uuid}
    (h : extractChannelIdFromFilters.values found ids = some found') :
    (∀ id ∈ ids, found' = some id) ∧ (∀ id, found = some id → found' = some id) := by
  induction ids generalizing found with
  | nil =>
      cases h
      exact ⟨fun id hid => (by cases hid), fun id hid => hid⟩
  | cons x xs ih =>
      rw [extractChannelIdFromFilters.values] at h
      split at h
      · cases h
      next hx =>
          obtain ⟨hall, hfound⟩ := ih h
          refine ⟨fun id hid => ?_, fun id hid => ?_⟩
          · rcases List.mem_cons.1 hid with rfl | hid
            · exact hfound id rfl
            · exact hall id hid
          · rw [hid, Option.any_some, bne_iff_ne, not_not] at hx
            exact hfound id (by rw [hx])

/-- A request-level channel is the only one that each filter names. -/
theorem go_eq_some {found : Option Uuid} {ch : Uuid}
    (h : extractChannelIdFromFilters.go parse found filters = some ch) :
    (∀ id, found = some id → id = ch) ∧
    ∀ filter ∈ filters, ∃ vs, filter.genericTags.lookup .h = some vs ∧
      parsedChannels parse vs ≠ [] ∧ ∀ id ∈ parsedChannels parse vs, id = ch := by
  induction filters generalizing found with
  | nil =>
      rw [extractChannelIdFromFilters.go] at h
      refine ⟨fun id hid => ?_, fun filter hf => by cases hf⟩
      rw [hid, Option.some.injEq] at h
      exact h
  | cons f rest ih =>
      rw [extractChannelIdFromFilters.go] at h
      split at h
      · cases h
      next found' hvalues =>
      split at h
      · cases h
      next hne =>
      obtain ⟨hids, hfound⟩ := values_eq_some hvalues
      obtain ⟨hch, hrest⟩ := ih h
      refine ⟨fun id hid => hch id (hfound id hid), fun filter hf => ?_⟩
      rcases List.mem_cons.1 hf with rfl | hf
      · cases hl : filter.genericTags.lookup .h with
        | none => simp [hl] at hne
        | some vs =>
            rw [hl, Option.map_some, Option.getD_some] at hne hids
            exact ⟨vs, rfl, by simpa using hne, fun id hid => hch id (hids id hid)⟩
      · exact hrest filter hf

/-- A filter's query channel is the only one its `#h` names. -/
theorem perFilterChannel_eq_some (hf : filter ∈ filters) {ch : Uuid}
    (h : perFilterChannel parse filters filter = some ch) :
    ∃ vs, filter.genericTags.lookup .h = some vs ∧
      ∀ id, id ∈ parsedChannels parse vs ↔ id = ch := by
  rw [perFilterChannel, Option.or_eq_some_iff] at h
  rcases h with h | ⟨-, h⟩
  · rw [extractChannelIdFromFilter, Option.bind_eq_some_iff] at h
    obtain ⟨vs, hl, h⟩ := h
    split at h
    next value hvalue =>
        refine ⟨vs, hl, fun id => ?_⟩
        rw [parsedChannels, hvalue]
        simp [h]
    · cases h
  · obtain ⟨vs, hl, hne, hall⟩ := (go_eq_some h).2 filter hf
    refine ⟨vs, hl, fun id => ⟨hall id, ?_⟩⟩
    rintro rfl
    obtain ⟨x, hx⟩ := List.exists_mem_of_ne_nil _ hne
    rw [← hall x hx]
    exact hx

/-- For a channel in the scope, the channel clauses ask that `#h` name it. -/
theorem channelClauses_reqQuery (hf : filter ∈ filters) {ch : Uuid}
    (hscope : ch ∈ reach.scope parse filter) :
    channelClauses (reqQuery parse reach reader filters filter) (some ch) = true ↔
      ∀ vs, filter.genericTags.lookup .h = some vs → ch ∈ parsedChannels parse vs := by
  rw [reqQuery, channelClauses_withSharedGate]
  cases hch : perFilterChannel parse filters filter with
  | some single =>
      obtain ⟨vs, hl, hmem⟩ := perFilterChannel_eq_some hf hch
      simp only [applyChannelScopeToQuery, channelClauses, filterToQueryParams, channelScope,
        Bool.and_true, beq_iff_eq, Option.some.injEq, hl, forall_eq', hmem]
  | none =>
      cases hl : filter.genericTags.lookup .h with
      | none =>
          simp [applyChannelScopeToQuery, channelClauses, filterToQueryParams, channelScope, hl,
            hscope]
      | some vs =>
          simp [applyChannelScopeToQuery, channelClauses, filterToQueryParams, channelScope, hl,
            hscope]

/-- Channel-less rows pass exactly for a filter without `#h`. -/
theorem channelClauses_reqQuery_none (hf : filter ∈ filters) :
    channelClauses (reqQuery parse reach reader filters filter) none = true ↔
      filter.genericTags.lookup .h = none := by
  rw [reqQuery, channelClauses_withSharedGate]
  cases hch : perFilterChannel parse filters filter with
  | some single =>
      obtain ⟨vs, hl, -⟩ := perFilterChannel_eq_some hf hch
      simp [applyChannelScopeToQuery, channelClauses, filterToQueryParams, hl]
  | none =>
      cases hl : filter.genericTags.lookup .h with
      | none =>
          simp [applyChannelScopeToQuery, channelClauses, filterToQueryParams, channelScope, hl]
      | some vs =>
          simp [applyChannelScopeToQuery, channelClauses, filterToQueryParams, channelScope, hl]

end Channels

/-! ## Mentions and the shared gate -/

theorem isAsciiHexdigit_iff (c : Char) :
    isAsciiHexdigit c = true ↔
      (48 ≤ c.toNat ∧ c.toNat ≤ 57) ∨ (97 ≤ c.toNat ∧ c.toNat ≤ 102) ∨
        (65 ≤ c.toNat ∧ c.toNat ≤ 70) := by
  simp only [isAsciiHexdigit, Char.isDigit, Bool.or_eq_true, Bool.and_eq_true,
    decide_eq_true_eq, Char.le_def, UInt32.le_iff_toNat_le, ge_iff_le, or_assoc]
  exact Iff.rfl

theorem toNat_toLower (c : Char) :
    c.toLower.toNat = if 65 ≤ c.toNat ∧ c.toNat ≤ 90 then c.toNat + 32 else c.toNat := by
  unfold Char.toLower
  split
  next h =>
      have hupper : 65 ≤ c.toNat ∧ c.toNat ≤ 90 := by
        simpa [UInt32.le_iff_toNat_le, ge_iff_le] using h
      have hgap : ('a'.val - 'A'.val).toNat = 32 := by decide
      rw [if_pos hupper]
      show (c.val + ('a'.val - 'A'.val)).toNat = _
      rw [UInt32.toNat_add, hgap]
      change (c.toNat + 32) % 2 ^ 32 = _
      omega
  next h =>
      rw [if_neg]
      simpa [UInt32.le_iff_toNat_le, ge_iff_le] using h

theorem isAsciiHexdigit_toLower (c : Char) : isAsciiHexdigit c.toLower = isAsciiHexdigit c := by
  rw [Bool.eq_iff_iff, isAsciiHexdigit_iff, isAsciiHexdigit_iff, toNat_toLower]
  split <;> omega

theorem isPubkeyHex_toAsciiLowercase (s : String) :
    isPubkeyHex (toAsciiLowercase s) = isPubkeyHex s := by
  simp only [isPubkeyHex, toAsciiLowercase, String.toList_map, List.length_map, List.all_map,
    Function.comp_def, isAsciiHexdigit_toLower]

theorem shared_of_go {tags : List Tag} {count : Nat}
    (h : eventIsShared.go tags count = true) :
    count = 1 ∨ exactTagMatch "shared" ["true"] tags = true := by
  rw [exactTagMatch_iff]
  induction tags generalizing count with
  | nil => exact .inl (by simpa [eventIsShared.go] using h)
  | cons t rest ih =>
      have hrest : ∀ n, eventIsShared.go rest n = true →
          n = 1 ∨ ∃ t' ∈ t :: rest, t'.name = "shared" ∧
            ∃ v ∈ ["true"], t'.content = some v := by
        intro n hn
        refine (ih hn).imp_right ?_
        rintro ⟨t', ht', hname⟩
        exact ⟨t', List.mem_cons_of_mem _ ht', hname⟩
      rw [eventIsShared.go] at h
      split at h
      next name value hslice =>
          split at h
          next hname =>
              split at h
              next hvalue =>
                  rw [Tag.asSlice, List.cons.injEq] at hslice
                  refine .inr ⟨t, List.mem_cons_self, hslice.1.trans hname, "true", by simp, ?_⟩
                  rw [Tag.content, hslice.2, hvalue]
                  rfl
              · cases h
          · exact hrest count h
      · split at h
        · cases h
        · exact hrest count h
      · exact hrest count h

/-! ## One row -/

/-- What a match leaves to check: the facts a pushed clause asks for beyond
it. -/
structure Kept (parse : String → Option Uuid) (filter : Filter) (row : StoredRow) : Prop where
  /-- The `#h` values name the channel the event is stored under. -/
  channel : ∀ vs ch, filter.genericTags.lookup .h = some vs → row.channelId = some ch →
    ch ∈ parsedChannels parse vs
  /-- The event's time is not taken for one before the bound. -/
  since : ∀ s, filter.since = some s →
    ¬ (s.toNat ≤ 8210266876799 ∧ 2 ^ 63 ≤ row.event.createdAt.toNat)
  /-- The bound is not taken for one before 1970. -/
  until' : ∀ u, filter.until' = some u →
    ¬ (row.event.createdAt.toNat < 2 ^ 63 ∧ 2 ^ 64 - 8334601228800 ≤ u.toNat)
  /-- On NIP-33 kinds the first `d` tag carries a wanted value. -/
  dTag : isNip33Only filter = true → ∀ vs, filter.genericTags.lookup .d = some vs →
    ∃ d ∈ vs.elems, extractDTag row.event = some d
  /-- A lone `#p` value is 64 hex digits. -/
  pTag : ∀ vs v, filter.genericTags.lookup .p = some vs → vs.elems = [v] →
    isPubkeyHex v = true

/-- Every `WHERE` predicate but the current-revision rule and the deletion
mark. -/
def whereButRevision (q : EventQuery) (row : StoredRow) : Bool :=
  mentionJoin q row.columns &&
  noticeVisibility q row.columns &&
  channelClauses q row.columns.channelId &&
  selectors q row.columns &&
  tagClauses q row.columns &&
  (q.since.all fun s => s ≤ row.columns.createdAt) &&
  untilClause q row.columns &&
  dTagColumn q row.columns &&
  sharedGate q row.columns

theorem queryEventsSql_eq (q : EventQuery) (row : StoredRow) :
    queryEventsSql q row = (!row.deleted && currentRevision q row && whereButRevision q row) := by
  simp only [queryEventsSql, pushEventFilters, whereButRevision]
  cases row.deleted <;> cases currentRevision q row <;> simp [Bool.and_assoc]

/-- The row's channel is in the filter's scope; a channel-less row is in that
of a filter without `#h`. -/
def InScope (parse : String → Option Uuid) (reach : Reach) (filter : Filter)
    (row : StoredRow) : Prop :=
  match row.channelId with
  | some ch => ch ∈ reach.scope parse filter
  | none => filter.genericTags.lookup .h = none

section Rows

variable {parse : String → Option Uuid} {reach : Reach} {reader : PublicKey}
  {filters : List Filter} {filter : Filter} {row : StoredRow}

/-- A REQ's query is the filter's parameters with channels and a reader. -/
theorem reqQuery_eq (parse : String → Option Uuid) (reach : Reach) (reader : PublicKey)
    (filters : List Filter) (filter : Filter) : ∃ ids includeGlobal gate,
    reqQuery parse reach reader filters filter =
      { filterToQueryParams filter (perFilterChannel parse filters filter) with
        channelIds := ids
        channelIdsIncludeGlobal := includeGlobal
        sharedGatedReader := gate } ∧
    (gate = none ∨ gate = some reader) := by
  simp only [reqQuery, withSharedGate, applyChannelScopeToQuery]
  split <;> split
  · exact ⟨_, _, _, rfl, .inr rfl⟩
  · split <;> exact ⟨_, _, _, rfl, .inr rfl⟩
  · exact ⟨_, _, _, rfl, .inl rfl⟩
  · split <;> exact ⟨_, _, _, rfl, .inl rfl⟩

theorem sharedGate_of_visible (hvisible : eventVisibleToReader row.event reader = true)
    {q : EventQuery} (hgate : q.sharedGatedReader = none ∨ q.sharedGatedReader = some reader) :
    sharedGate q row.columns = true := by
  rcases hgate with hgate | hgate
  · simp [sharedGate, hgate]
  simp only [eventVisibleToReader, Bool.and_eq_true, Bool.not_eq_true'] at hvisible
  have hshared := hvisible.1.2
  rw [columns_eq]
  simp only [sharedGate, hgate, Option.all_some, Bool.or_eq_true, Bool.not_eq_true']
  by_cases hkind : eventKind row.event ∈ sharedGatedKinds
  · by_cases hauthor : row.event.pubkey = reader
    · exact .inl (.inr (by simp [hauthor]))
    · refine .inr ?_
      have : eventIsShared row.event = true := by
        simpa [isUnsharedGatedEvent, hkind, hauthor] using hshared
      exact (shared_of_go this).resolve_left (by decide)
  · exact .inl (.inl (by simp [hkind]))

/-- Given a `p` match, the mention index has the value when it is hex. -/
theorem pTag_iff (hmatch : filterMatchOne filter row.stored = true) {vs : BTreeSet String}
    {v : String} (hl : filter.genericTags.lookup .p = some vs) (hv : vs.elems = [v]) :
    toAsciiLowercase v ∈ mentionKeys row.event ↔ isPubkeyHex v = true := by
  have hm := tagValuesMatch_of_match row hmatch hl (by decide) (fun h => by cases h)
  rw [tagValuesMatch_iff, hv] at hm
  obtain ⟨t, ht, hname, hattr, w, hw, hc⟩ := hm
  rw [List.mem_singleton] at hw
  subst hw
  rw [mem_mentionKeys]
  constructor
  · rintro ⟨t', -, -, -, w', -, hhex, heq⟩
    rwa [← isPubkeyHex_toAsciiLowercase, ← heq, isPubkeyHex_toAsciiLowercase]
  · intro hhex
    exact ⟨t, ht, hname, hattr, w, hc, hhex, rfl⟩

theorem sinceClause_iff (hmatch : filterMatchOne filter row.stored = true) :
    ((timeBound filter.since).all fun s => s ≤ row.columns.createdAt) = true ↔
      ∀ s, filter.since = some s →
        ¬ (s.toNat ≤ 8210266876799 ∧ 2 ^ 63 ≤ row.event.createdAt.toNat) := by
  have hcreated : row.columns.createdAt = secsAsI64 row.event.createdAt := by rw [columns_eq]
  rw [hcreated, timeBound]
  cases hs : filter.since with
  | none => simp
  | some since =>
      have hle : since ≤ row.event.createdAt := (filterMatchOne_iff.1 hmatch).2.2.2.1 since hs
      rw [Option.bind_some, Option.all_eq_true]
      simp only [decide_eq_true_eq, Option.some.injEq, forall_eq']
      exact since_iff hle

theorem untilClause_iff (hmatch : filterMatchOne filter row.stored = true) :
    ((timeBound filter.until').all fun u => row.columns.createdAt ≤ u) = true ↔
      ∀ u, filter.until' = some u →
        ¬ (row.event.createdAt.toNat < 2 ^ 63 ∧ 2 ^ 64 - 8334601228800 ≤ u.toNat) := by
  have hcreated : row.columns.createdAt = secsAsI64 row.event.createdAt := by rw [columns_eq]
  rw [hcreated, timeBound]
  cases hu : filter.until' with
  | none => simp
  | some bound =>
      have hle : row.event.createdAt ≤ bound :=
        (filterMatchOne_iff.1 hmatch).2.2.2.2.1 bound hu
      rw [Option.bind_some, Option.all_eq_true]
      simp only [decide_eq_true_eq, Option.some.injEq, forall_eq']
      exact until_iff hle

theorem channelClauses_iff (hf : filter ∈ filters) (hscope : InScope parse reach filter row) :
    channelClauses (reqQuery parse reach reader filters filter) row.columns.channelId = true ↔
      ∀ vs ch, filter.genericTags.lookup .h = some vs → row.channelId = some ch →
        ch ∈ parsedChannels parse vs := by
  rw [columns_channelId]
  simp only [InScope] at hscope
  cases hch : row.channelId with
  | none =>
      rw [hch] at hscope
      exact iff_of_true ((channelClauses_reqQuery_none hf).2 hscope)
        (fun vs ch hl => by rw [hscope] at hl; cases hl)
  | some ch =>
      rw [hch] at hscope
      rw [channelClauses_reqQuery hf hscope]
      simp

/-- For a stored event that matches, is visible and lies in the scope, the
`WHERE` predicates come down to `Kept`. -/
theorem whereButRevision_iff (hf : filter ∈ filters) (hscope : InScope parse reach filter row)
    (hmatch : filterMatchOne filter row.stored = true)
    (hvisible : eventVisibleToReader row.event reader = true) :
    whereButRevision (reqQuery parse reach reader filters filter) row = true ↔
      Kept parse filter row := by
  obtain ⟨hnotice, hkinds, hauthors, -, -, hids, -⟩ := filterMatchOne_iff.1 hmatch
  have hchannel : channelClauses (reqQuery parse reach reader filters filter)
      row.columns.channelId = true ↔ _ := channelClauses_iff hf hscope
  obtain ⟨ids, includeGlobal, gate, hq, hgate⟩ :=
    reqQuery_eq parse reach reader filters filter
  rw [hq] at hchannel ⊢
  -- The clauses the match implies.
  have hsel : selectors (filterToQueryParams filter (perFilterChannel parse filters filter))
      row.columns = true :=
    (selectors_iff row).2 ⟨fun ks hks => .inr (hkinds ks hks),
      fun as has => .inr (hauthors as has), fun ids hi => .inr (hids ids hi),
      fun vs hl => .inr
        (tagValuesMatch_of_match row hmatch hl (by decide) (fun h => by cases h))⟩
  have htags : tagClauses (filterToQueryParams filter (perFilterChannel parse filters filter))
      row.columns = true := tagClauses_of_match row hmatch
  have hnotice : noticeVisibility
      (filterToQueryParams filter (perFilterChannel parse filters filter)) row.columns = true :=
    (noticeVisibility_iff row hkinds).2 hnotice
  have hshared := sharedGate_of_visible hvisible (q := { sharedGatedReader := gate }) hgate
  have huntilEq : untilClause
      (filterToQueryParams filter (perFilterChannel parse filters filter)) row.columns =
      (timeBound filter.until').all fun u => row.columns.createdAt ≤ u := by
    simp only [untilClause, filterToQueryParams]
    cases timeBound filter.until' <;> rfl
  have hmentions : row.columns.mentions = mentionKeys row.event := by rw [columns_eq]
  simp only [whereButRevision, Bool.and_eq_true]
  constructor
  · rintro ⟨⟨⟨⟨⟨⟨⟨⟨hmention, -⟩, hch⟩, -⟩, -⟩, hsince⟩, huntil⟩, hdtag⟩, -⟩
    have huntil : untilClause
        (filterToQueryParams filter (perFilterChannel parse filters filter)) row.columns =
        true := huntil
    have hmention : mentionJoin
        (filterToQueryParams filter (perFilterChannel parse filters filter)) row.columns =
        true := hmention
    have hdtag : dTagColumn
        (filterToQueryParams filter (perFilterChannel parse filters filter)) row.columns =
        true := hdtag
    rw [huntilEq] at huntil
    refine ⟨hchannel.1 hch, (sinceClause_iff hmatch).1 hsince, (untilClause_iff hmatch).1 huntil,
      fun hnip vs hl => ?_, fun vs v hl hv => (pTag_iff hmatch hl hv).1 ?_⟩
    · -- The match has a value, so the set is not empty.
      refine ((dTagColumn_iff row).1 hdtag hnip vs hl).resolve_left fun hempty => ?_
      have := tagValuesMatch_of_match row hmatch hl (by decide) (fun h => by cases h)
      rw [hempty, tagValuesMatch_nil] at this
      cases this
    · rw [← hmentions]
      exact key_of_mentionJoin hmention (pTagHex_eq_some.2 ⟨vs, hl, hv⟩)
  · intro hkept
    have hsince := (sinceClause_iff hmatch).2 hkept.since
    have huntil := (untilClause_iff hmatch).2 hkept.until'
    have hmention : mentionJoin
        (filterToQueryParams filter (perFilterChannel parse filters filter)) row.columns =
        true := by
      refine mentionJoin_of_key (fun p hp => ?_) hsince huntil hsel
      obtain ⟨vs, hl, hv⟩ := pTagHex_eq_some.1 hp
      rw [hmentions]
      exact (pTag_iff hmatch hl hv).2 (hkept.pTag vs p hl hv)
    have hdtag : dTagColumn
        (filterToQueryParams filter (perFilterChannel parse filters filter)) row.columns =
        true := (dTagColumn_iff row).2 fun hnip vs hl => .inr (hkept.dTag hnip vs hl)
    rw [← huntilEq] at huntil
    exact ⟨⟨⟨⟨⟨⟨⟨⟨hmention, hnotice⟩, hchannel.2 hkept.channel⟩, hsel⟩, htags⟩, hsince⟩, huntil⟩,
      hdtag⟩, hshared⟩

end Rows

/-! ## One page -/

/-- A row reads back as the event it was written for, unless its time wrapped
below zero. -/
theorem rowToStoredEvent_columns (row : StoredRow) :
    rowToStoredEvent row.columns =
      if row.event.createdAt.toNat < 2 ^ 63 then some row.stored else none := by
  rw [columns_eq]
  have hc := row.event.createdAt.toNat_lt
  simp only [rowToStoredEvent, eventKind, StoredRow.stored, UInt16.ofNat_toNat]
  rcases secsAsI64_cases row.event.createdAt with ⟨hlt, heq⟩ | ⟨hge, heq⟩
  · rw [if_neg (by omega), if_pos hlt, heq, Int.toNat_natCast, UInt64.ofNat_toNat]
  · rw [if_pos (by omega), if_neg (by omega)]

variable {q : EventQuery}

/-- A page that is not full holds every row the statement selects. -/
theorem queryEvents_of_not_full {db : EventStore}
    (hanswer : answerWithoutDb q = none) (hbind : bindError q = none)
    (hpage : (db.rows.countP (queryEventsSql q) : Int) < pageLimit q) :
    ∃ events, queryEvents q db = .ok events ∧ ∀ stored, stored ∈ events ↔
      ∃ row ∈ db.rows, queryEventsSql q row = true ∧
        rowToStoredEvent row.columns = some stored := by
  have hlen : ((db.rows.filter (queryEventsSql q)).mergeSort pageOrder).length ≤
      (pageLimit q).toNat := by
    rw [List.length_mergeSort, ← List.countP_eq_length_filter]
    omega
  have hpositive : ¬ pageLimit q < 0 := by omega
  refine ⟨_, by simp only [queryEvents, hanswer, hbind, if_neg hpositive]; rfl, fun stored => ?_⟩
  simp only [List.take_of_length_le hlen, List.mem_filterMap, List.mem_mergeSort,
    List.mem_filter, and_assoc]

theorem queryEvents_mem {db : EventStore} {events : List StoredEvent}
    (h : queryEvents q db = .ok events) {stored : StoredEvent}
    (hmem : stored ∈ events) :
    ∃ row ∈ db.rows, row.event.createdAt.toNat < 2 ^ 63 ∧ row.stored = stored := by
  simp only [queryEvents] at h
  split at h
  next answer hanswer =>
      -- A read answered without the database has no rows.
      simp only [answerWithoutDb] at hanswer
      split at hanswer
      · cases hanswer; cases h
      split at hanswer
      · cases hanswer; cases h
      split at hanswer
      · cases hanswer; cases h; cases hmem
      · cases hanswer
  next =>
      split at h
      · cases h
      split at h
      · cases h
      cases h
      obtain ⟨row, hrow, hread⟩ := List.mem_filterMap.1 hmem
      rw [rowToStoredEvent_columns] at hread
      split at hread
      next hsmall =>
          have := List.mem_mergeSort.1 (List.mem_of_mem_take hrow)
          exact ⟨row, (List.mem_filter.1 this).1, hsmall, Option.some.inj hread⟩
      · cases hread

theorem bindError_of_queryEvents {db : EventStore} {events : List StoredEvent}
    (hanswer : answerWithoutDb q = none) (h : queryEvents q db = .ok events) :
    bindError q = none := by
  simp only [queryEvents, hanswer] at h
  split at h
  · cases h
  · assumption

/-! ## Delivery -/

section Deliver

variable {accept : StoredEvent → Bool} {rows : List StoredEvent} {sent : List Event}

/-- Deduplication loses no event as long as an id determines its event. -/
theorem mem_deliverRows {p : Event → Prop}
    (hid : ∀ a b, p a → p b → a.id = b.id → a = b) (hsent : ∀ e ∈ sent, p e)
    (hrows : ∀ s ∈ rows, p s.event) {ev : Event} :
    ev ∈ deliverRows accept rows sent ↔
      ev ∈ sent ∨ ∃ s ∈ rows, accept s = true ∧ s.event = ev := by
  induction rows generalizing sent with
  | nil => simp [deliverRows]
  | cons s rest ih =>
      have hs := hrows s List.mem_cons_self
      have hrest : ∀ s' ∈ rest, p s'.event := fun s' h => hrows s' (List.mem_cons_of_mem _ h)
      rw [deliverRows]
      split
      next hsend =>
          rw [Bool.and_eq_true] at hsend
          rw [ih (fun e he => ?_) hrest, List.mem_append, List.mem_singleton, or_assoc]
          · refine or_congr_right ⟨?_, ?_⟩
            · rintro (rfl | ⟨s', hs', hacc, rfl⟩)
              · exact ⟨s, List.mem_cons_self, hsend.1, rfl⟩
              · exact ⟨s', List.mem_cons_of_mem _ hs', hacc, rfl⟩
            · rintro ⟨s', hs', hacc, rfl⟩
              rcases List.mem_cons.1 hs' with rfl | hs'
              · exact .inl rfl
              · exact .inr ⟨s', hs', hacc, rfl⟩
          · rcases List.mem_append.1 he with he | he
            · exact hsent e he
            · rw [List.mem_singleton.1 he]; exact hs
      next hskip =>
          rw [ih hsent hrest]
          refine ⟨fun h => h.imp_right ?_, ?_⟩
          · rintro ⟨s', hs', hacc, rfl⟩
            exact ⟨s', List.mem_cons_of_mem _ hs', hacc, rfl⟩
          · rintro (h | ⟨s', hs', hacc, rfl⟩)
            · exact .inl h
            · rcases List.mem_cons.1 hs' with rfl | hs'
              · -- Accepted but skipped: its id was sent, so it was.
                refine .inl ?_
                simp only [hacc, Bool.true_and, Bool.not_eq_true, Bool.not_eq_false',
                  List.any_eq_true, beq_iff_eq] at hskip
                obtain ⟨e, he, heq⟩ := hskip
                rwa [← hid e s'.event (hsent e he) hs heq]
              · exact .inr ⟨s', hs', hacc, rfl⟩

theorem deliverRows_subset {ev : Event} (h : ev ∈ deliverRows accept rows sent) :
    ev ∈ sent ∨ ∃ s ∈ rows, s.event = ev := by
  induction rows generalizing sent with
  | nil => exact .inl h
  | cons s rest ih =>
      rw [deliverRows] at h
      split at h
      · rcases ih h with h | ⟨s', hs', rfl⟩
        · rcases List.mem_append.1 h with h | h
          · exact .inl h
          · exact .inr ⟨s, List.mem_cons_self, (List.mem_singleton.1 h).symm⟩
        · exact .inr ⟨s', List.mem_cons_of_mem _ hs', rfl⟩
      · rcases ih h with h | ⟨s', hs', rfl⟩
        · exact .inl h
        · exact .inr ⟨s', List.mem_cons_of_mem _ hs', rfl⟩

theorem nodup_deliverRows (h : (sent.map (·.id)).Nodup) :
    ((deliverRows accept rows sent).map (·.id)).Nodup := by
  induction rows generalizing sent with
  | nil => exact h
  | cons s rest ih =>
      rw [deliverRows]
      split
      next hsend =>
          refine ih ?_
          simp only [Bool.and_eq_true, Bool.not_eq_true', List.any_eq_false, beq_iff_eq] at hsend
          rw [List.map_append, List.nodup_append]
          refine ⟨h, List.nodup_singleton _, fun a ha b hb hab => ?_⟩
          obtain ⟨e, he, rfl⟩ := List.mem_map.1 ha
          rw [List.map_singleton, List.mem_singleton] at hb
          exact hsend.2 e he (hab.trans hb)
      · exact ih h

end Deliver

/-! ## The request -/

section Request

variable (parse : String → Option Uuid) (reach : Reach) (reader : PublicKey)
  (filters : List Filter) (route : ThreadRoute) (db : EventStore)

/-- No read of the request takes the thread-reply route. -/
def GenericRoute : Prop :=
  ∀ filter ∈ filters, ∀ root,
    threadReplyRoot (reqQuery parse reach reader filters filter) = some root →
      route.recordedReply root = true

def PagesNotFull : Prop :=
  ∀ filter ∈ filters,
    (db.rows.countP (queryEventsSql (reqQuery parse reach reader filters filter)) : Int) <
      pageLimit (reqQuery parse reach reader filters filter)

/-- A live row of the filter's scope that matches and that the reader may
see. -/
def Wanted (filter : Filter) (row : StoredRow) : Prop :=
  row.deleted = false ∧ InScope parse reach filter row ∧
    filtersMatch [filter] row.stored = true ∧ eventVisibleToReader row.event reader = true

/-- The request ends with EOSE, and what it sent before is each wanted event
of a current revision, once. -/
def DeliversExactly : Prop :=
  ∃ sent, reqHistory parse reach reader filters route db filters [] = .eose sent ∧
    (sent.map (·.id)).Nodup ∧
    ∀ ev, ev ∈ sent ↔ ∃ filter ∈ filters, ∃ row ∈ db.rows, Wanted parse reach reader filter row ∧
      currentRevision (reqQuery parse reach reader filters filter) row = true ∧ row.event = ev

variable {parse reach reader filters route db} {filter : Filter}

theorem filtersMatch_singleton {stored : StoredEvent} :
    filtersMatch [filter] stored = filterMatchOne filter stored := by
  simp [filtersMatch]

/-- With a page to fill, only an empty kind set answers a REQ's query without
the database. -/
theorem answerWithoutDb_reqQuery
    (hpage : 0 < pageLimit (reqQuery parse reach reader filters filter)) :
    answerWithoutDb (reqQuery parse reach reader filters filter) =
      if filter.kinds.any (·.isEmpty) then some (.ok []) else none := by
  obtain ⟨ids, includeGlobal, gate, hq, -⟩ := reqQuery_eq parse reach reader filters filter
  rw [hq] at hpage ⊢
  have hempty := emptyLists_filterToQueryParams filter (perFilterChannel parse filters filter)
  have hzero : ¬ (pageLimit { filterToQueryParams filter (perFilterChannel parse filters filter)
      with channelIds := ids, channelIdsIncludeGlobal := includeGlobal,
           sharedGatedReader := gate } = 0) := by omega
  simp only [answerWithoutDb, hempty.1, hempty.2.1, hempty.2.2.1, hempty.2.2.2, hzero,
    Bool.or_false, decide_false, Bool.false_or]
  rfl

section

variable (hgeneric : GenericRoute parse reach reader filters route)
include hgeneric

theorem queryEventsRouted_generic (hf : filter ∈ filters)
    (hpage : 0 < pageLimit (reqQuery parse reach reader filters filter)) :
    queryEventsRouted route (reqQuery parse reach reader filters filter) db =
      if filter.kinds.any (·.isEmpty) then .ok []
      else queryEvents (reqQuery parse reach reader filters filter) db := by
  rw [queryEventsRouted, answerWithoutDb_reqQuery hpage]
  cases filter.kinds.any (·.isEmpty) with
  | true => rfl
  | false =>
      simp only [Bool.false_eq_true, ↓reduceIte]
      split
      next root hroot => rw [if_pos (hgeneric filter hf root hroot)]
      · rfl

/-- A row the read of `filter` selects and returns. -/
def Returned (parse : String → Option Uuid) (reach : Reach) (reader : PublicKey)
    (filters : List Filter) (filter : Filter) (row : StoredRow) : Prop :=
  filter.kinds.any (·.isEmpty) = false ∧
    queryEventsSql (reqQuery parse reach reader filters filter) row = true ∧
    row.event.createdAt.toNat < 2 ^ 63

theorem queryEventsRouted_mem
    (hpages : PagesNotFull parse reach reader filters db)
    (hf : filter ∈ filters)
    (hbind : filter.kinds.any (·.isEmpty) = true ∨
      bindError (reqQuery parse reach reader filters filter) = none) :
    ∃ events,
      queryEventsRouted route (reqQuery parse reach reader filters filter) db = .ok events ∧
      ∀ stored, stored ∈ events ↔ ∃ row ∈ db.rows,
        Returned parse reach reader filters filter row ∧ row.stored = stored := by
  have hfull := hpages filter hf
  have hpage : 0 < pageLimit (reqQuery parse reach reader filters filter) := by omega
  rw [queryEventsRouted_generic hgeneric hf hpage]
  by_cases hkinds : filter.kinds.any (·.isEmpty) = true
  · refine ⟨[], if_pos hkinds, fun stored => ⟨fun h => (by cases h), ?_⟩⟩
    rintro ⟨row, -, hret, -⟩
    rw [hret.1] at hkinds
    cases hkinds
  · have hanswer := answerWithoutDb_reqQuery hpage
    rw [if_neg hkinds] at hanswer ⊢
    obtain ⟨events, hread, hmem⟩ :=
      queryEvents_of_not_full hanswer (hbind.resolve_left hkinds) hfull
    refine ⟨events, hread, fun stored => (hmem stored).trans ?_⟩
    refine exists_congr fun row => and_congr_right fun _ => ?_
    rw [rowToStoredEvent_columns, Returned, and_assoc, Bool.not_eq_true] at *
    simp only [hkinds, true_and]
    rw [and_assoc]
    refine and_congr_right fun _ => ?_
    split
    next hsmall =>
      exact ⟨fun h => ⟨hsmall, Option.some.inj h⟩, fun h => congrArg some h.2⟩
    next hbig => exact ⟨fun h => (by cases h), fun h => absurd h.1 hbig⟩

/-- Events of the store: the id determines the event. -/
def Stored (db : EventStore) (ev : Event) : Prop := ∃ row ∈ db.rows, row.event = ev

omit hgeneric in
theorem stored_inj {a b : Event} (ha : Stored db a) (hb : Stored db b) (h : a.id = b.id) :
    a = b := by
  obtain ⟨ra, hra, rfl⟩ := ha
  obtain ⟨rb, hrb, rfl⟩ := hb
  rw [List.inj_on_of_nodup_map db.nodup hra hrb h]

/-- The filter loop: each filter adds the rows its read returns and its tests
accept. -/
theorem reqHistory_sent (hpages : PagesNotFull parse reach reader filters db)
    (hbind : ∀ filter ∈ filters, filter.kinds.any (·.isEmpty) = true ∨
      bindError (reqQuery parse reach reader filters filter) = none)
    {rest : List Filter} (hrest : ∀ filter ∈ rest, filter ∈ filters)
    {sent : List Event} (hsent : ∀ e ∈ sent, Stored db e)
    (hnodup : (sent.map (·.id)).Nodup) :
    ∃ sent', reqHistory parse reach reader filters route db rest sent = .eose sent' ∧
      (sent'.map (·.id)).Nodup ∧
      ∀ ev, ev ∈ sent' ↔ ev ∈ sent ∨ ∃ filter ∈ rest, ∃ row ∈ db.rows,
        Returned parse reach reader filters filter row ∧
        deliverable filter reader (reach.scope parse filter) row.stored = true ∧
        row.event = ev := by
  induction rest generalizing sent with
  | nil => exact ⟨sent, rfl, hnodup, fun ev => by simp⟩
  | cons filter rest ih =>
      have hf := hrest filter List.mem_cons_self
      obtain ⟨events, hread, hmem⟩ := queryEventsRouted_mem hgeneric hpages hf (hbind filter hf)
      have hevents : ∀ s ∈ events, Stored db s.event := by
        intro s hs
        obtain ⟨row, hrow, -, rfl⟩ := (hmem s).1 hs
        exact ⟨row, hrow, rfl⟩
      have hdeliver : ∀ ev, ev ∈ deliverRows
          (deliverable filter reader (reach.scope parse filter)) events sent ↔ _ :=
        fun ev => mem_deliverRows (fun a b => stored_inj) hsent hevents
      have hdelivered : ∀ e ∈ deliverRows
          (deliverable filter reader (reach.scope parse filter)) events sent, Stored db e := by
        intro e he
        rcases (hdeliver e).1 he with he | ⟨s, hs, -, rfl⟩
        · exact hsent e he
        · exact hevents s hs
      obtain ⟨sent', heose, hnodup', hsent'⟩ :=
        ih (fun f h => hrest f (List.mem_cons_of_mem _ h)) hdelivered (nodup_deliverRows hnodup)
      refine ⟨sent', by rw [reqHistory, hread]; exact heose, hnodup', fun ev => ?_⟩
      rw [hsent', hdeliver, or_assoc]
      refine or_congr_right ?_
      simp only [List.mem_cons, exists_eq_or_imp]
      refine or_congr_left ⟨?_, ?_⟩
      · rintro ⟨s, hs, hacc, rfl⟩
        obtain ⟨row, hrow, hret, rfl⟩ := (hmem s).1 hs
        exact ⟨row, hrow, hret, hacc, rfl⟩
      · rintro ⟨row, hrow, hret, hacc, rfl⟩
        exact ⟨row.stored, (hmem _).2 ⟨row, hrow, hret, rfl⟩, hacc, rfl⟩

omit hgeneric in
/-- What a read returns and the tests accept is what is wanted, when no wanted
row fails a clause or its read-back. -/
theorem returned_iff_wanted (hf : filter ∈ filters) {row : StoredRow}
    (hkept : Wanted parse reach reader filter row → Kept parse filter row)
    (hsmall : Wanted parse reach reader filter row →
      currentRevision (reqQuery parse reach reader filters filter) row = true →
      row.event.createdAt.toNat < 2 ^ 63) :
    (Returned parse reach reader filters filter row ∧
      deliverable filter reader (reach.scope parse filter) row.stored = true) ↔
    (Wanted parse reach reader filter row ∧
      currentRevision (reqQuery parse reach reader filters filter) row = true) := by
  constructor
  · rintro ⟨⟨-, hsql, -⟩, hdeliver⟩
    rw [queryEventsSql_eq, Bool.and_eq_true, Bool.and_eq_true, Bool.not_eq_true'] at hsql
    simp only [deliverable, Bool.and_eq_true] at hdeliver
    refine ⟨⟨hsql.1.1, ?_, hdeliver.1.1, hdeliver.2⟩, hsql.1.2⟩
    have hchannel : channelClauses (reqQuery parse reach reader filters filter)
        row.channelId = true := by
      have hwhere := hsql.2
      simp only [whereButRevision, Bool.and_eq_true, columns_channelId] at hwhere
      exact hwhere.1.1.1.1.1.1.2
    have hscope := hdeliver.1.2
    simp only [StoredRow.stored] at hscope
    simp only [InScope]
    cases hch : row.channelId with
    | none =>
        rw [hch] at hchannel
        exact (channelClauses_reqQuery_none hf).1 hchannel
    | some ch =>
        rw [hch] at hscope
        simpa using hscope
  · rintro ⟨hwanted, hcurrent⟩
    obtain ⟨hlive, hscope, hmatch, hvisible⟩ := hwanted
    have hone : filterMatchOne filter row.stored = true := by
      rwa [← filtersMatch_singleton]
    have hwhere := (whereButRevision_iff hf hscope hone hvisible).2
      (hkept ⟨hlive, hscope, hmatch, hvisible⟩)
    refine ⟨⟨?_, ?_, hsmall ⟨hlive, hscope, hmatch, hvisible⟩ hcurrent⟩, ?_⟩
    · -- The event has one of the filter's kinds.
      cases hk : filter.kinds with
      | none => rfl
      | some ks =>
          have hmem := (filterMatchOne_iff.1 hone).2.1 ks hk
          rw [Option.any_some, BTreeSet.isEmpty, List.isEmpty_eq_false_iff]
          exact List.ne_nil_of_mem hmem
    · rw [queryEventsSql_eq, hlive, hcurrent, hwhere]
      rfl
    · simp only [deliverable, Bool.and_eq_true]
      refine ⟨⟨hmatch, ?_⟩, hvisible⟩
      simp only [InScope] at hscope
      simp only [StoredRow.stored]
      cases hch : row.channelId with
      | none => rfl
      | some ch =>
          rw [hch] at hscope
          simpa using hscope

/-- An EOSE means that every read succeeded, and every event sent has a time
that reads back. -/
theorem of_reqHistory_eose (hpages : PagesNotFull parse reach reader filters db)
    {rest : List Filter} (hrest : ∀ filter ∈ rest, filter ∈ filters)
    {sent sent' : List Event} (hsent : ∀ e ∈ sent, e.createdAt.toNat < 2 ^ 63)
    (h : reqHistory parse reach reader filters route db rest sent = .eose sent') :
    (∀ filter ∈ rest, filter.kinds.any (·.isEmpty) = true ∨
      bindError (reqQuery parse reach reader filters filter) = none) ∧
    ∀ e ∈ sent', e.createdAt.toNat < 2 ^ 63 := by
  induction rest generalizing sent with
  | nil =>
      cases h
      exact ⟨fun f hf => (by cases hf), hsent⟩
  | cons filter rest ih =>
      have hf := hrest filter List.mem_cons_self
      have hpage : 0 < pageLimit (reqQuery parse reach reader filters filter) := by
        have := hpages filter hf
        omega
      rw [reqHistory, queryEventsRouted_generic hgeneric hf hpage] at h
      by_cases hkinds : filter.kinds.any (·.isEmpty) = true
      · rw [if_pos hkinds] at h
        obtain ⟨hbind, hsmall⟩ := ih (fun f hf => hrest f (List.mem_cons_of_mem _ hf)) hsent h
        refine ⟨fun f hf => ?_, hsmall⟩
        rcases List.mem_cons.1 hf with rfl | hf
        · exact .inl hkinds
        · exact hbind f hf
      · have hanswer := answerWithoutDb_reqQuery hpage
        rw [if_neg hkinds] at h hanswer
        split at h
        · cases h
        next events hread =>
        have hdelivered : ∀ e ∈ deliverRows
            (deliverable filter reader (reach.scope parse filter)) events sent,
            e.createdAt.toNat < 2 ^ 63 := by
          intro e he
          rcases deliverRows_subset he with he | ⟨s, hs, rfl⟩
          · exact hsent e he
          · obtain ⟨row, -, hsmall, rfl⟩ := queryEvents_mem hread hs
            exact hsmall
        obtain ⟨hbind, hsmall⟩ :=
          ih (fun f hf => hrest f (List.mem_cons_of_mem _ hf)) hdelivered h
        refine ⟨fun f hf => ?_, hsmall⟩
        rcases List.mem_cons.1 hf with rfl | hf
        · exact .inr (bindError_of_queryEvents hanswer hread)
        · exact hbind f hf

end

end Request

/-- On the generic route a history read drops no wanted event, and a request
whose pages are not full delivers before EOSE exactly what is wanted, if and
only if each wanted event is `Kept` by a statement Postgres accepts and, where
the pages are not full, every read succeeds and every event to deliver has a
time below 2^63. -/
theorem history_complete_iff (parse : String → Option Uuid) (reach : Reach)
    (reader : PublicKey) (filters : List Filter) (route : ThreadRoute) (db : EventStore)
    (hgeneric : GenericRoute parse reach reader filters route) :
    ((∀ filter ∈ filters, ∀ row ∈ db.rows, Wanted parse reach reader filter row →
        bindError (reqQuery parse reach reader filters filter) = none ∧
        whereButRevision (reqQuery parse reach reader filters filter) row = true) ∧
      (PagesNotFull parse reach reader filters db →
        DeliversExactly parse reach reader filters route db)) ↔
    ((∀ filter ∈ filters, ∀ row ∈ db.rows, Wanted parse reach reader filter row →
        bindError (reqQuery parse reach reader filters filter) = none ∧
        Kept parse filter row) ∧
      (PagesNotFull parse reach reader filters db →
        (∀ filter ∈ filters, filter.kinds.any (·.isEmpty) = true ∨
          bindError (reqQuery parse reach reader filters filter) = none) ∧
        ∀ filter ∈ filters, ∀ row ∈ db.rows, Wanted parse reach reader filter row →
          currentRevision (reqQuery parse reach reader filters filter) row = true →
          row.event.createdAt.toNat < 2 ^ 63)) := by
  have hrow : ∀ filter ∈ filters, ∀ row, Wanted parse reach reader filter row →
      (whereButRevision (reqQuery parse reach reader filters filter) row = true ↔
        Kept parse filter row) := by
    rintro filter hf row ⟨-, hscope, hmatch, hvisible⟩
    rw [filtersMatch_singleton] at hmatch
    exact whereButRevision_iff hf hscope hmatch hvisible
  constructor
  · rintro ⟨hwhere, hdeliver⟩
    refine ⟨fun filter hf row hr hw => ⟨(hwhere filter hf row hr hw).1,
      (hrow filter hf row hw).1 (hwhere filter hf row hr hw).2⟩, fun hpages => ?_⟩
    obtain ⟨sent, heose, -, hsent⟩ := hdeliver hpages
    obtain ⟨hbind, hsmall⟩ := of_reqHistory_eose hgeneric hpages (fun f hf => hf)
      (fun e he => (by cases he)) heose
    refine ⟨hbind, fun filter hf row hr hw hcurrent => hsmall _ ?_⟩
    exact (hsent row.event).2 ⟨filter, hf, row, hr, hw, hcurrent, rfl⟩
  · rintro ⟨hkept, hpage⟩
    refine ⟨fun filter hf row hr hw => ⟨(hkept filter hf row hr hw).1,
      (hrow filter hf row hw).2 (hkept filter hf row hr hw).2⟩, fun hpages => ?_⟩
    obtain ⟨hbind, hsmall⟩ := hpage hpages
    have hnil : ∀ e ∈ ([] : List Event), Stored db e := fun e he => (by cases he)
    obtain ⟨sent, heose, hnodup, hsent⟩ := reqHistory_sent hgeneric hpages hbind
      (fun f hf => hf) hnil List.nodup_nil
    refine ⟨sent, heose, hnodup, fun ev => ?_⟩
    rw [hsent ev, or_iff_right (List.not_mem_nil)]
    refine exists_congr fun filter => and_congr_right fun hf =>
      exists_congr fun row => and_congr_right fun hr => ?_
    rw [← and_assoc, ← and_assoc, returned_iff_wanted hf
      (fun hw => (hkept filter hf row hr hw).2) (hsmall filter hf row hr)]

/-- A route that no read of these examples takes. -/
def noThreads : ThreadRoute where
  recordedReply _ := true
  read _ _ := .ok []

/-- A plain request for a channel's messages. -/
theorem history_complete_iff_messages :
    let filter : Filter := { kinds := some ⟨[9], by decide⟩ }
    let reach : Reach := ⟨[.ofByte 1], {}⟩
    GenericRoute (fun _ => none) reach (.ofByte 0) [filter] noThreads ∧
    (∀ f ∈ [filter], ∀ row ∈ (oneMessage (.ofByte 1)).rows,
      Wanted (fun _ => none) reach (.ofByte 0) f row →
      bindError (reqQuery (fun _ => none) reach (.ofByte 0) [filter] f) = none ∧
      whereButRevision (reqQuery (fun _ => none) reach (.ofByte 0) [filter] f) row = true) ∧
    (PagesNotFull (fun _ => none) reach (.ofByte 0) [filter] (oneMessage (.ofByte 1)) →
      DeliversExactly (fun _ => none) reach (.ofByte 0) [filter] noThreads
        (oneMessage (.ofByte 1))) := by
  intro filter reach
  have hgeneric : GenericRoute (fun _ => none) reach (.ofByte 0) [filter] noThreads :=
    fun _ _ _ _ => rfl
  refine ⟨hgeneric, (history_complete_iff (fun _ => none) reach (.ofByte 0) [filter] noThreads
    (oneMessage (.ofByte 1)) hgeneric).2 ⟨fun f hf row hrow _ => ?_, fun _ => ⟨fun f hf => ?_,
      fun f _ row hrow _ _ => ?_⟩⟩⟩
  · rw [List.mem_singleton] at hf
    subst hf
    refine ⟨rfl, ⟨fun vs ch hl => ?_, fun s hs => ?_, fun u hu => ?_, fun hnip => ?_,
      fun vs v hl => ?_⟩⟩
    · cases hl
    · cases hs
    · cases hu
    · cases hnip
    · cases hl
  · rw [List.mem_singleton] at hf
    subst hf
    exact .inr rfl
  · rw [oneMessage, List.mem_singleton] at hrow
    subst hrow
    decide

/-- `until` at the end of `u64` reads as the last second of 1969: the message
matches, fails the clause, and the request ends with EOSE without it. -/
theorem untilMax_drops :
    let filter : Filter := { kinds := some ⟨[9], by decide⟩, until' := some 18446744073709551615 }
    let reach : Reach := ⟨[.ofByte 1], {}⟩
    let q := reqQuery (fun _ => none) reach (.ofByte 0) [filter] filter
    Wanted (fun _ => none) reach (.ofByte 0) filter (messageIn (.ofByte 1)) ∧
    GenericRoute (fun _ => none) reach (.ofByte 0) [filter] noThreads ∧
    whereButRevision q (messageIn (.ofByte 1)) = false ∧
    PagesNotFull (fun _ => none) reach (.ofByte 0) [filter] (oneMessage (.ofByte 1)) ∧
    reqHistory (fun _ => none) reach (.ofByte 0) [filter] noThreads (oneMessage (.ofByte 1))
      [filter] [] = .eose [] := by
  intro filter reach q
  have hscope : InScope (fun _ => none) reach filter (messageIn (.ofByte 1)) := by
    simp [InScope, messageIn, reach, Reach.scope, filterChannelScope]
  refine ⟨⟨rfl, hscope, by decide +kernel, by decide +kernel⟩, fun _ _ _ _ => rfl,
    by decide +kernel, fun f hf => ?_, by decide +kernel⟩
  rw [List.mem_singleton] at hf
  subst hf
  decide +kernel

end Buzz.Relay
