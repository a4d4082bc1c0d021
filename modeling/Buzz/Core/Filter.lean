import Buzz.Core.Kind

/-!
# NIP-01 filter matching

`buzz-core/src/filter.rs`: filters are OR-ed, the fields of one filter are
AND-ed, and two kinds of tag are read specially. A workflow's `p` tag that
only attributes the message to its owner is not a mention, and a membership
notice's `t` tag is its channel type, matched by the notice rule.
-/

namespace Buzz.Core

/-- Whether `tag` attributes a workflow message to its owner instead of
mentioning them: `["p", owner, _, "owner", ..]` on an event marked
`["buzz:workflow", "true"]`. -/
def isWorkflowOwnerAttribution (event : Event) (tag : Tag) : Bool :=
  (match tag.asSlice with
    | name :: _ :: _ :: marker :: _ => name == "p" && marker == "owner"
    | _ => false) &&
  event.tags.any fun t => t.asSlice == ["buzz:workflow", "true"]

/-- Result-level authorization of the owner-private kinds: the reader must be
one of the event's `p` values. -/
def readerAuthorizedForEvent (event : Event) (readerHex : String) : Bool :=
  eventKind event ∉ resultGatedKinds ||
    event.tags.any fun t => t.name == "p" && t.content == some readerHex

def membershipNoticeKinds : List Nat :=
  [kindMemberAddedNotification, kindMemberRemovedNotification]

def isMembershipNotice (event : Event) : Bool :=
  eventKind event ∈ membershipNoticeKinds

/-- The tag that carries a notice's channel type. -/
def noticeChannelTypeTag : String := "t"

/-- The channel types whose notices `filter` may see: its `#t` values. `none`
stands for the legacy types. -/
def noticeChannelTypes (filter : Filter) : Option (List String) :=
  (filter.genericTags.lookup .t).map (·.elems)

/-- Whether a type is visible to a filter whose `#t` values are `visible`. -/
def noticeTypeVisible (visible : Option (List String)) (type : String) : Bool :=
  match visible with
  | some types => type ∈ types
  | none => type ∈ legacyChannelTypes

/-- Whether the notice `event` is visible. The loop answers at the first
visible type; an untagged notice counts as every legacy type. -/
def noticeVisible (visible : Option (List String)) (event : Event) : Bool :=
  go event.tags false
where
  go : List Tag → Bool → Bool
    | [], tagged => !tagged && legacyChannelTypes.any (noticeTypeVisible visible)
    | tag :: rest, tagged =>
        if tag.name ≠ noticeChannelTypeTag then go rest tagged
        else if tag.content.any (noticeTypeVisible visible) then true
        else go rest true

/-- The `any` over a filter's tag values: some event tag of that name, not an
owner attribution, carries one of them. -/
def tagValuesMatch (key : String) (values : List String) (event : Event) : Bool :=
  values.any fun value =>
    (event.tags.filter fun t =>
        t.kindText == key && !isWorkflowOwnerAttribution event t).filterMap
      Tag.content |>.any (· == value)

/-- One round of the generic-tag loop: whether the `#key` constraint lets the
event pass. `#h` falls back to the stored channel, but only for an event
that carries no `h` tag at all. -/
def genericTagMatches (ev : StoredEvent) (key : String)
    (values : List String) : Bool :=
  if isMembershipNotice ev.event && key == noticeChannelTypeTag then true
  else if tagValuesMatch key values ev.event then true
  else if key = "h" then
    !(ev.event.tags.any fun t => t.kindText == "h") &&
      (match ev.channelId with
        | some ch => values.any (· == ch.toText)
        | none => false)
  else false

def filterMatchOne (f : Filter) (ev : StoredEvent) : Bool :=
  (!isMembershipNotice ev.event ||
    noticeVisible (noticeChannelTypes f) ev.event) &&
  f.kinds.all (·.contains ev.event.kind) &&
  f.authors.all (·.contains ev.event.pubkey) &&
  f.since.all (fun since => !(ev.event.createdAt < since)) &&
  f.until'.all (fun until' => !(until' < ev.event.createdAt)) &&
  f.ids.all (fun ids =>
    ids.elems.any fun id => id.toHex.toList.isPrefixOf ev.event.id.toHex.toList) &&
  f.genericTags.entries.all fun entry =>
    genericTagMatches ev entry.1.toText entry.2.elems

/-- Whether the event matches any of the filters. -/
def filtersMatch (filters : List Filter) (ev : StoredEvent) : Bool :=
  filters.any (filterMatchOne · ev)

/-! ## What a match says about one field

The indexes and the SQL push-down each look at one field of a filter, so
each reads one of these. -/

variable {ev : StoredEvent}

theorem filterMatchOne_iff {f : Filter} :
    filterMatchOne f ev = true ↔
      (isMembershipNotice ev.event = true →
        noticeVisible (noticeChannelTypes f) ev.event = true) ∧
      (∀ ks, f.kinds = some ks → ev.event.kind ∈ ks.elems) ∧
      (∀ as, f.authors = some as → ev.event.pubkey ∈ as.elems) ∧
      (∀ t, f.since = some t → t ≤ ev.event.createdAt) ∧
      (∀ t, f.until' = some t → ev.event.createdAt ≤ t) ∧
      (∀ ids, f.ids = some ids → ev.event.id ∈ ids.elems) ∧
      (∀ entry ∈ f.genericTags.entries,
        genericTagMatches ev entry.1.toText entry.2.elems = true) := by
  have hid : ∀ ids : BTreeSet EventId,
      (ids.elems.any fun id =>
        id.toHex.toList.isPrefixOf ev.event.id.toHex.toList) = true ↔
        ev.event.id ∈ ids.elems := by
    intro ids
    simp only [List.any_eq_true, List.isPrefixOf_iff_prefix]
    refine ⟨?_, fun h => ⟨_, h, List.prefix_refl _⟩⟩
    rintro ⟨id, hmem, hpre⟩
    -- Both hex strings have 64 digits, so a prefix is the whole string.
    have hlen : ∀ b : EventId, b.toHex.toList.length = 64 := by
      intro b; simp [Bytes32.toHex, hexEncode_length, b.size]
    have heq := hpre.eq_of_length (by rw [hlen, hlen])
    rw [← Bytes32.toHex_injective (String.toList_inj.1 heq)]
    exact hmem
  have hopt : ∀ {α : Type} (o : Option α) (p : α → Bool),
      o.all p = true ↔ ∀ a, o = some a → p a = true := by
    intro α o p; cases o <;> simp
  simp only [filterMatchOne, Bool.and_eq_true, hopt, hid, List.all_eq_true,
    BTreeSet.contains_iff, and_assoc, Bool.or_eq_true, Bool.not_eq_true',
    ← Bool.not_eq_true, ← imp_iff_not_or, decide_eq_true_eq, UInt64.not_lt]

theorem filtersMatch_iff {filters : List Filter} :
    filtersMatch filters ev = true ↔
      ∃ f ∈ filters, filterMatchOne f ev = true := by
  simp [filtersMatch]

theorem tagValuesMatch_iff {key : String} {values : List String}
    {event : Event} :
    tagValuesMatch key values event = true ↔
      ∃ t ∈ event.tags, t.name = key ∧
        isWorkflowOwnerAttribution event t = false ∧
        ∃ v ∈ values, t.content = some v := by
  simp only [tagValuesMatch, List.any_eq_true, List.mem_filterMap,
    List.mem_filter, Bool.and_eq_true, beq_iff_eq, Bool.not_eq_true',
    Tag.kindText]
  constructor
  · rintro ⟨v, hv, w, ⟨t, ⟨ht, hn, ha⟩, hc⟩, rfl⟩
    exact ⟨t, ht, hn, ha, w, hv, hc⟩
  · rintro ⟨t, ht, hn, ha, v, hv, hc⟩
    exact ⟨v, hv, v, ⟨t, ⟨ht, hn, ha⟩, hc⟩, rfl⟩

/-- Outside `#h` and a notice's `#t`, a generic tag is matched by its values
alone. -/
theorem genericTagMatches_of_ne {key : String} {values : List String}
    (hh : key ≠ "h") (ht : key ≠ noticeChannelTypeTag) :
    genericTagMatches ev key values = tagValuesMatch key values ev.event := by
  unfold genericTagMatches
  rw [if_neg (by simp [ht]), if_neg hh]
  cases tagValuesMatch key values ev.event <;> rfl

/-- The entry a lookup finds is one the generic-tag loop visits. -/
theorem filterMatchOne_lookup {f : Filter} (h : filterMatchOne f ev = true)
    {key : SingleLetterTag} {values : BTreeSet String}
    (hl : f.genericTags.lookup key = some values) :
    genericTagMatches ev key.toText values.elems = true :=
  (filterMatchOne_iff.1 h).2.2.2.2.2.2 ⟨key, values⟩ (AList.mem_lookup_iff.1 hl)

end Buzz.Core
