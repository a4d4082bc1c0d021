import Buzz.Proofs.StoredRows
import Buzz.Relay.QueryParams

/-!
# What each pushed clause says about a stored event

The matcher of `buzz-core` and the SQL of `buzz-db` read one filter language
twice. This file puts every clause that `filter_to_query_params` produces
beside the matcher's reading of the same field.

Kinds, non-empty author and id sets, `#e`, artifact `#d`, group-state tags and
the notice rule are read alike. The rest is not: a time bound goes through
`i64` and chrono, `#d` looks at the first `d` tag only, `#p` at the mention
index, which holds 64-digit hex in lower case, and an empty set is no clause
at all where the matcher lets nothing through.
-/

namespace Buzz.Relay

open Buzz.Core Buzz.Db

/-! ## Tags -/

theorem exactTagMatch_iff {name : String} {values : List String} {tags : List Tag} :
    exactTagMatch name values tags = true ↔
      ∃ t ∈ tags, t.name = name ∧ ∃ v ∈ values, t.content = some v := by
  simp only [exactTagMatch, Bool.and_eq_true, List.any_eq_true, beq_iff_eq,
    List.contains_eq_mem, decide_eq_true_eq]
  constructor
  · rintro ⟨-, t, ht, hname, hv⟩
    obtain ⟨v, hc, hv⟩ := (Option.any_eq_true _ _).1 hv
    exact ⟨t, ht, hname, v, by simpa using hv, hc⟩
  · rintro ⟨t, ht, hname, v, hv, hc⟩
    -- The positional match is also a containment.
    have hmem : v ∈ t.asSlice := by
      rw [Tag.content] at hc
      exact List.mem_cons_of_mem _ (List.mem_of_mem_head? hc)
    have hhead : name ∈ t.asSlice := hname ▸ List.mem_cons_self
    exact ⟨⟨v, hv, t, ht, hhead, hmem⟩, t, ht, hname, by simp [hc, hv]⟩

variable {event : Event}

theorem isWorkflowOwnerAttribution_of_ne {t : Tag} (h : t.name ≠ "p") :
    isWorkflowOwnerAttribution event t = false := by
  unfold isWorkflowOwnerAttribution
  split
  next name _ _ marker _ hs =>
      rw [Tag.asSlice, List.cons.injEq] at hs
      simp [← hs.1, h]
  · exact Bool.false_and _

/-- Owner attribution is about `p` tags; elsewhere SQL and the matcher agree. -/
theorem exactTagMatch_eq {name : String} {values : List String} (h : name ≠ "p") :
    exactTagMatch name values event.tags = tagValuesMatch name values event := by
  rw [Bool.eq_iff_iff, exactTagMatch_iff, tagValuesMatch_iff]
  refine exists_congr fun t => and_congr_right fun _ => and_congr_right fun hname => ?_
  exact (and_iff_right (isWorkflowOwnerAttribution_of_ne (hname ▸ h))).symm

theorem tagValuesMatch_nil {key : String} :
    tagValuesMatch key [] event = false := rfl

/-! ## Membership notices -/

variable {visible : Option (List String)}

theorem noticeVisible_go_iff {tags : List Tag} {tagged : Bool} :
    noticeVisible.go visible tags tagged = true ↔
      (∃ t ∈ tags, t.name = noticeChannelTypeTag ∧
        ∃ c, t.content = some c ∧ noticeTypeVisible visible c = true) ∨
      (tagged = false ∧ (∀ t ∈ tags, t.name ≠ noticeChannelTypeTag) ∧
        ∃ c ∈ legacyChannelTypes, noticeTypeVisible visible c = true) := by
  induction tags generalizing tagged with
  | nil => simp [noticeVisible.go]
  | cons t rest ih =>
      rw [noticeVisible.go]
      split
      next hname =>
          rw [ih]
          simp [hname]
      next hname =>
          rw [not_not] at hname
          split
          next hvis =>
              obtain ⟨c, hc, hv⟩ := (Option.any_eq_true _ _).1 hvis
              exact iff_of_true rfl (.inl ⟨t, List.mem_cons_self, hname, c, hc, hv⟩)
          next hvis =>
              have hno : ¬ ∃ c, t.content = some c ∧ noticeTypeVisible visible c = true := by
                rintro ⟨c, hc, hv⟩
                exact hvis (by simp [hc, hv])
              rw [ih]
              simp [hname, hno]

theorem noticeTypeVisible_eq {c : String} :
    noticeTypeVisible visible c = true ↔ c ∈ visible.getD legacyChannelTypes := by
  cases visible <;> simp [noticeTypeVisible]

/-- The notice clause is the notice rule, for a query whose kinds can select
a notice. -/
theorem noticeClause_iff :
    (exactTagMatch noticeChannelTypeTag (visible.getD legacyChannelTypes) event.tags ||
      (((visible.getD legacyChannelTypes).any fun t => legacyChannelTypes.contains t) &&
        !event.tags.any fun t => t.name == noticeChannelTypeTag)) = true ↔
      noticeVisible visible event = true := by
  rw [noticeVisible, noticeVisible_go_iff, Bool.or_eq_true, exactTagMatch_iff]
  refine or_congr ?_ ?_
  · refine exists_congr fun t => and_congr_right fun _ => and_congr_right fun _ => ?_
    simp only [noticeTypeVisible_eq]
    exact exists_congr fun c => and_comm
  · simp only [Bool.and_eq_true, List.any_eq_true, List.contains_eq_mem, decide_eq_true_eq,
      Bool.not_eq_true', List.any_eq_false, beq_iff_eq, true_and, noticeTypeVisible_eq]
    rw [and_comm]
    exact and_congr_right fun _ => exists_congr fun c => and_comm

section Clauses

variable {filter : Filter} {channelId : Option Uuid} (row : StoredRow)
  {q : EventQuery}

theorem mem_kinds_iff {ks : BTreeSet Kind} {kind : Kind} :
    kind.toNat ∈ ks.elems.map (·.toNat) ↔ kind ∈ ks.elems := by
  rw [List.mem_map]
  refine ⟨?_, fun h => ⟨kind, h, rfl⟩⟩
  rintro ⟨k, hk, heq⟩
  exact UInt16.toNat_inj.1 heq ▸ hk

theorem filterCanMatch_eq_false {kinds : List Nat} :
    filterCanMatch filter kinds = false ↔
      ∃ ks, filter.kinds = some ks ∧ ∀ k ∈ ks.elems, k.toNat ∉ kinds := by
  cases h : filter.kinds with
  | none => simp [filterCanMatch, h]
  | some ks => simp [filterCanMatch, h]

/-- For an event of the filter's kinds, the notice clause is the notice
rule. -/
theorem noticeVisibility_iff
    (hkind : ∀ ks, filter.kinds = some ks → row.event.kind ∈ ks.elems) :
    noticeVisibility (filterToQueryParams filter channelId) row.columns = true ↔
      (isMembershipNotice row.event = true →
        noticeVisible (noticeChannelTypes filter) row.event = true) := by
  rw [columns_eq]
  by_cases hnotice : isMembershipNotice row.event = true
  · have hmem : eventKind row.event ∈ membershipNoticeKinds := by
      simpa [isMembershipNotice] using hnotice
    -- The event's own kind is a notice kind, so the clause is not skipped.
    have hpushed : noticeTypesPushed (filterToQueryParams filter channelId) =
        some ((noticeChannelTypes filter).getD legacyChannelTypes) := by
      refine if_pos ?_
      simp only [filterToQueryParams]
      cases hk : filter.kinds with
      | none => rfl
      | some ks =>
          simp only [Option.map_some, Option.all_some, List.any_eq_true,
            List.contains_eq_mem, decide_eq_true_eq]
          exact ⟨_, mem_kinds_iff.2 (hkind ks hk), hmem⟩
    simp only [noticeVisibility, hpushed, hnotice, forall_const, List.contains_eq_mem, hmem,
      decide_true, Bool.not_true, Bool.false_or]
    simpa using noticeClause_iff
  · have hmem : eventKind row.event ∉ membershipNoticeKinds := by
      simpa [isMembershipNotice] using hnotice
    refine iff_of_true ?_ (fun h => absurd h hnotice)
    simp only [noticeVisibility]
    split
    · rfl
    · simp [hmem]

theorem nonEmptyValues_eq_some {α : Type} {set : Option (BTreeSet α)} {values : List α} :
    nonEmptyValues set = some values ↔
      ∃ vs, set = some vs ∧ vs.elems = values ∧ values ≠ [] := by
  cases set with
  | none => simp [nonEmptyValues]
  | some vs =>
      simp only [nonEmptyValues, BTreeSet.isEmpty, Option.filter_some, Option.some.injEq,
        exists_eq_left']
      cases hvs : vs.elems with
      | nil =>
          simp only [List.isEmpty_nil, Bool.not_true, Bool.false_eq_true, ↓reduceIte,
            Option.map_none, reduceCtorEq, false_iff, not_and, not_not]
          exact fun h => h.symm
      | cons x xs =>
          simp only [List.isEmpty_cons, Bool.not_false, ↓reduceIte, Option.map_some, hvs,
            Option.some.injEq]
          exact ⟨fun h => ⟨h, by simp [← h]⟩, fun h => h.1⟩

/-- A clause over an optional non-empty value list. -/
theorem all_nonEmptyValues {α : Type} {set : Option (BTreeSet α)} {p : List α → Bool} :
    ((nonEmptyValues set).all fun vs => vs.isEmpty || p vs) = true ↔
      ∀ vs, set = some vs → vs.elems = [] ∨ p vs.elems = true := by
  rw [Option.all_eq_true]
  constructor
  · intro h vs hvs
    by_cases hempty : vs.elems = []
    · exact .inl hempty
    · have := h _ (nonEmptyValues_eq_some.2 ⟨vs, hvs, rfl, hempty⟩)
      simpa [hempty] using this
  · intro h values hvalues
    obtain ⟨vs, hvs, rfl, hne⟩ := nonEmptyValues_eq_some.1 hvalues
    rw [(h vs hvs).resolve_left hne, Bool.or_true]

theorem any_isEmpty_nonEmptyValues {α : Type} {set : Option (BTreeSet α)} :
    ((nonEmptyValues set).any (·.isEmpty)) = false := by
  rw [Bool.eq_false_iff, ne_eq, Option.any_eq_true]
  rintro ⟨values, hvalues, hempty⟩
  obtain ⟨-, -, -, hne⟩ := nonEmptyValues_eq_some.1 hvalues
  exact hne (List.isEmpty_iff.1 hempty)

/-- The lists of a filter's query that could be empty: only the kinds are. -/
theorem emptyLists_filterToQueryParams (filter : Filter) (channelId : Option Uuid) :
    ((filterToQueryParams filter channelId).kinds.any (·.isEmpty)) =
      filter.kinds.any (·.isEmpty) ∧
    ((filterToQueryParams filter channelId).authors.any (·.isEmpty)) = false ∧
    ((filterToQueryParams filter channelId).ids.any (·.isEmpty)) = false ∧
    ((filterToQueryParams filter channelId).eTags.any (·.isEmpty)) = false := by
  refine ⟨?_, ?_, any_isEmpty_nonEmptyValues, any_isEmpty_nonEmptyValues⟩
  · simp only [filterToQueryParams]
    cases filter.kinds with
    | none => rfl
    | some ks => simp [BTreeSet.isEmpty]
  · simp only [filterToQueryParams]
    cases filter.authors with
    | none => rfl
    | some as =>
        rw [Option.bind_some]
        match as.elems with
        | [] => rfl
        | [a] => rfl
        | a :: b :: rest => rfl

/-- `pubkey` and `authors` together are the filter's author set, when it is
not empty. -/
theorem authors_iff {pubkey : PublicKey} {authors : Option (BTreeSet PublicKey)} :
    ((((authors.bind fun as => match as.elems with
          | [a] => some a
          | _ => none).all fun pk => pubkey == pk) = true) ∧
      (((authors.bind fun as => match as.elems with
          | _ :: _ :: _ => some as.elems
          | _ => none).all fun as => as.isEmpty || as.contains pubkey) = true)) ↔
      ∀ as, authors = some as → as.elems = [] ∨ pubkey ∈ as.elems := by
  cases authors with
  | none => simp
  | some as =>
      simp only [Option.bind_some, Option.some.injEq, forall_eq']
      match as.elems with
      | [] => simp
      | [a] => simp
      | a :: b :: rest => simp

theorem selectors_iff :
    selectors (filterToQueryParams filter channelId) row.columns = true ↔
      (∀ ks, filter.kinds = some ks → ks.elems = [] ∨ row.event.kind ∈ ks.elems) ∧
      (∀ as, filter.authors = some as → as.elems = [] ∨ row.event.pubkey ∈ as.elems) ∧
      (∀ ids, filter.ids = some ids → ids.elems = [] ∨ row.event.id ∈ ids.elems) ∧
      (∀ vs, filter.genericTags.lookup .e = some vs →
        vs.elems = [] ∨ tagValuesMatch "e" vs.elems row.event = true) := by
  have hkinds : ((filterToQueryParams filter channelId).kinds.all
      fun ks => ks.isEmpty || ks.contains (eventKind row.event)) = true ↔
      ∀ ks, filter.kinds = some ks → ks.elems = [] ∨ row.event.kind ∈ ks.elems := by
    simp only [filterToQueryParams]
    cases filter.kinds with
    | none => simp
    | some ks =>
        simp only [Option.map_some, Option.all_some, Bool.or_eq_true, List.isEmpty_iff,
          List.map_eq_nil_iff, List.contains_eq_mem, decide_eq_true_eq, Option.some.injEq,
          forall_eq']
        exact or_congr_right mem_kinds_iff
  rw [columns_eq]
  simp only [selectors, Bool.and_eq_true, hkinds, and_assoc]
  refine and_congr_right fun _ => ?_
  rw [← and_assoc]
  refine and_congr authors_iff (and_congr ?_ ?_)
  · refine all_nonEmptyValues.trans ?_
    simp
  · refine all_nonEmptyValues.trans ?_
    simp [exactTagMatch_eq]

/-- A lone value, or the list of several: the two shapes SQL knows. -/
theorem dTagColumn_iff :
    dTagColumn (filterToQueryParams filter channelId) row.columns = true ↔
      (isNip33Only filter = true → ∀ vs, filter.genericTags.lookup .d = some vs →
        vs.elems = [] ∨ ∃ d ∈ vs.elems, extractDTag row.event = some d) := by
  rw [columns_eq]
  by_cases hnip : isNip33Only filter = true
  · simp only [dTagColumn, filterToQueryParams, hnip, ↓reduceIte, forall_const]
    cases filter.genericTags.lookup .d with
    | none => simp
    | some vs =>
        simp only [Option.bind_some, Option.some.injEq, forall_eq']
        match vs.elems with
        | [] => simp
        | [v] => simp
        | v :: w :: rest =>
            cases extractDTag row.event <;> simp
  · simp [dTagColumn, filterToQueryParams, hnip]

/-! ## Times -/

theorem secsAsI64_cases (s : UInt64) :
    (s.toNat < 2 ^ 63 ∧ secsAsI64 s = s.toNat) ∨
      (2 ^ 63 ≤ s.toNat ∧ secsAsI64 s = (s.toNat : Int) - 2 ^ 64) := by
  have hlt := s.toNat_lt
  have h : secsAsI64 s = (s.toNat : Int).bmod (2 ^ 64) := by
    simp [secsAsI64, Int64.toInt, BitVec.toInt_eq_toNat_bmod]
  rw [h, Int.bmod_def]
  split <;> omega

theorem fromTimestamp_eq_some {secs b : Int} :
    fromTimestamp secs = some b ↔
      b = secs ∧ -8334601228800 ≤ secs ∧ secs ≤ 8210266876799 := by
  unfold fromTimestamp
  split
  next h => simp only [Option.some.injEq, h, and_self, and_true, eq_comm]
  next h => simp only [reduceCtorEq, h, and_false]

/-! ## Mentions -/

/-- The mention index finds a value when some mentioning `p` tag holds the
same 64 hex digits, in any case. -/
theorem mem_mentionKeys {event : Event} {key : String} :
    key ∈ mentionKeys event ↔
      ∃ t ∈ event.tags, t.name = "p" ∧ isWorkflowOwnerAttribution event t = false ∧
        ∃ v, t.content = some v ∧ isPubkeyHex v = true ∧ toAsciiLowercase v = key := by
  simp only [mentionKeys, List.mem_dedup, List.mem_filterMap]
  refine exists_congr fun t => and_congr_right fun _ => ?_
  obtain ⟨name, rest⟩ := t
  cases rest with
  | nil => simp [Tag.asSlice, Tag.content]
  | cons v rest =>
      simp only [Tag.asSlice, Tag.content, List.head?_cons, Option.some.injEq,
        exists_eq_left']
      split
      next h =>
          simp only [Bool.and_eq_true, decide_eq_true_eq, Bool.not_eq_true'] at h
          obtain ⟨⟨rfl, hattr⟩, hhex⟩ := h
          simp [hattr, hhex]
      next h =>
          simp only [reduceCtorEq, false_iff, not_and]
          rintro rfl hattr hhex
          simp [hattr, hhex] at h

/-- The mention join repeats the time and kind clauses of the row itself. -/
theorem mentionJoin_of_key {cols : Columns}
    (hkey : ∀ p, q.pTagHex = some p → toAsciiLowercase p ∈ cols.mentions)
    (hsince : (q.since.all fun s => s ≤ cols.createdAt) = true)
    (huntil : (q.until'.all fun u => cols.createdAt ≤ u) = true)
    (hsel : selectors q cols = true) : mentionJoin q cols = true := by
  simp only [selectors, Bool.and_eq_true] at hsel
  simp only [mentionJoin, hsince, huntil, hsel.1.1.1.1, Bool.and_true]
  rw [Option.all_eq_true]
  exact fun p hp => by simpa using hkey p hp

theorem key_of_mentionJoin {cols : Columns} {p : String}
    (h : mentionJoin q cols = true) (hp : q.pTagHex = some p) :
    toAsciiLowercase p ∈ cols.mentions := by
  simp only [mentionJoin, hp, Option.all_some, Bool.and_eq_true] at h
  simpa using h.1.1.1

theorem pTagHex_eq_some {p : String} :
    (filterToQueryParams filter channelId).pTagHex = some p ↔
      ∃ vs, filter.genericTags.lookup .p = some vs ∧ vs.elems = [p] := by
  simp only [filterToQueryParams]
  cases filter.genericTags.lookup .p with
  | none => simp
  | some vs =>
      simp only [Option.bind_some, Option.some.injEq, exists_eq_left']
      match vs.elems with
      | [] => simp
      | [v] => simp
      | v :: w :: rest => simp

/-! ## Clauses a match implies -/

theorem isNip33Only_artifact (h : isNip33Only filter = true) :
    filterCanMatch filter artifactKinds = false := by
  obtain ⟨ks, hks, hall⟩ := (Option.any_eq_true _ _).1 h
  rw [filterCanMatch_eq_false]
  refine ⟨ks, hks, fun k hk hart => ?_⟩
  simp only [Bool.and_eq_true, List.all_eq_true] at hall
  have := hall.2 k hk
  simp only [isParameterizedReplaceable, Bool.and_eq_true, decide_eq_true_eq] at this
  simp only [artifactKinds, kindArtifact, kindArtifactRemoval, List.mem_cons,
    List.not_mem_nil, or_false] at hart
  omega

/-- Outside `#h`, the matcher compares a group-state event's tag values. -/
theorem tagValuesMatch_of_match (h : filterMatchOne filter row.stored = true)
    {key : SingleLetterTag} {vs : BTreeSet String}
    (hl : filter.genericTags.lookup key = some vs) (hh : key ≠ .h)
    (hnotice : key = .t → isMembershipNotice row.event = false) :
    tagValuesMatch key.toText vs.elems row.event = true := by
  have hm := filterMatchOne_lookup h hl
  have hh : key.toText ≠ "h" := fun heq =>
    hh (SingleLetterTag.toText_injective (show key.toText = SingleLetterTag.h.toText from heq))
  by_cases ht : key = .t
  · simp only [genericTagMatches, StoredRow.stored, hnotice ht, Bool.false_and,
      Bool.false_eq_true, ↓reduceIte, hh] at hm
    simpa using hm
  · have ht : key.toText ≠ noticeChannelTypeTag := fun heq =>
      ht (SingleLetterTag.toText_injective (show key.toText = SingleLetterTag.t.toText from heq))
    rwa [genericTagMatches_of_ne hh ht] at hm

theorem tagClauses_of_match (h : filterMatchOne filter row.stored = true) :
    tagClauses (filterToQueryParams filter channelId) row.columns = true := by
  rw [columns_eq]
  simp only [tagClauses, filterToQueryParams, Bool.and_eq_true]
  refine ⟨⟨?_, by simp⟩, ?_⟩
  · -- The artifact `d` predicate.
    rw [Option.all_eq_true]
    intro values hvalues
    split at hvalues
    case isFalse => cases hvalues
    obtain ⟨vs, hl, rfl, -⟩ := nonEmptyValues_eq_some.1 hvalues
    have hd := tagValuesMatch_of_match row h hl (by decide) (fun h => by cases h)
    simp only [artifactDTagPredicate]
    rw [exactTagMatch_eq (by decide), show "d" = SingleLetterTag.d.toText from rfl, hd,
      Bool.or_true]
  · -- Group-state `#t` and `#P`.
    simp only [tagValueFilters, List.all_eq_true]
    rintro ⟨name, values⟩ hentry
    simp only [groupStateTagValues] at hentry
    split at hentry
    case isFalse => cases hentry
    next hgroup =>
    obtain ⟨key, hkey, hentry⟩ := List.mem_filterMap.1 hentry
    obtain ⟨vs, hl, hentry⟩ := Option.bind_eq_some_iff.1 hentry
    split at hentry
    · cases hentry
    cases hentry
    have hnotice : isMembershipNotice row.event = false := by
      obtain ⟨ks, hks, hall⟩ := (Option.any_eq_true _ _).1 hgroup
      have hkind := (filterMatchOne_iff.1 h).2.1 ks hks
      simp only [Bool.and_eq_true, List.all_eq_true, decide_eq_true_eq] at hall
      have := hall.2 _ hkind
      simp only [StoredRow.stored, kindNip29GroupMetadata, kindNip29GroupRoles] at this
      rw [isMembershipNotice, decide_eq_false_iff_not]
      simp only [membershipNoticeKinds, kindMemberAddedNotification,
        kindMemberRemovedNotification, eventKind, List.mem_cons, List.not_mem_nil, or_false]
      omega
    have hne : key ≠ .h ∧ key.toText ≠ "p" := by
      simp only [List.mem_cons, List.not_mem_nil, or_false] at hkey
      rcases hkey with rfl | rfl <;> decide
    rw [exactTagMatch_eq hne.2, tagValuesMatch_of_match row h hl hne.1 (fun _ => hnotice),
      Bool.or_true]

@[simp] theorem channelClauses_withSharedGate {reader : PublicKey}
    {c : Option Uuid} :
    channelClauses (withSharedGate filter reader q) c = channelClauses q c := by
  unfold withSharedGate
  split <;> rfl

end Clauses

end Buzz.Relay
