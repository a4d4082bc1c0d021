import Buzz.Proofs.ThreadRuns

/-!
# Two replies to one parent

The first reply to a parent leaves a stub row for it, and the next reply's
resolution reads that stub where the first one read the parent's own tags.
The two readings agree on a parent that is its own root. On a parent whose
markers name another root they do not: the stub says "top level", so the
second reply is refused and a relay reply is filed under the wrong root.

`get_thread_metadata_by_event` takes one row without an order, so the results
below are about every order of the thread table.
-/

namespace Buzz.Relay

open Buzz.Core Buzz.Db Buzz.Lib ThreadRun

/-- The same tables with the thread rows in some other order. -/
def Reordered (s t : ThreadStore) : Prop := t.events = s.events ∧ t.threads.Perm s.threads

/-- All lookups of a resolution see one store. -/
def readsOf (s : ThreadStore) : Reads := ⟨s, s, s⟩

/-- The client path accepts the reply, with this place in the thread. -/
def ClientAnswer (s : ThreadStore) (reply : Event) (channelId : Uuid)
    (visible : Event → Bool) (now : Int) (root parent : EventId) (depth : Nat) : Prop :=
  ∃ q, resolveNip10ThreadMeta (readsOf s) reply channelId visible now = .ok (some q) ∧
    q.rootEventId = some root ∧ q.parentEventId = some parent ∧ q.depth = depth

/-- The relay path computes this place for a reply to the parent. -/
def RelayAnswer (s : ThreadStore) (parentHex : String) (channelId : Uuid)
    (visible : Event → Bool) (now : Int) (root : EventId) (depth : Nat) : Prop :=
  ∃ a, resolveRelayReplyThreadMeta (readsOf s) parentHex channelId visible now = .ok a ∧
    a.rootEventId = root ∧ a.depth = depth

/-- The root and depth a row gives the replies to its message. -/
def ThreadRow.place (row : ThreadRow) (parent : EventId) : EventId × Nat :=
  (row.rootEventId.getD parent, row.depth + 1)

/-- The time column of an event, as the insert binds it. -/
def columnTime (event : Event) (now : Int) : Int :=
  (fromTimestamp (secsAsI64 event.createdAt)).getD now

/-- The parent starts a thread: its rows say so, and without a row its own
markers name no root but itself. -/
structure TopLevel (s : ThreadStore) (parentEvent : Event) (parent : EventId) : Prop where
  rows : ∀ row ∈ s.threads, row.eventId = parent → ThreadRow.place row parent = (parent, 1)
  tags : (∀ row ∈ s.threads, row.eventId ≠ parent) → markedRoot parentEvent parent = parent

/-- What the two readings need: the parent's rows agree, and the parent is top
level whenever the reply's insert writes a stub for it. -/
structure PlaceFixed (s : ThreadStore) (reply parentEvent : Event) (parent : EventId)
    (now : Int) : Prop where
  rows : ∀ row ∈ s.threads, row.eventId = parent → ∀ row' ∈ s.threads, row'.eventId = parent →
    ThreadRow.place row parent = ThreadRow.place row' parent
  stub : (∀ row ∈ s.threads, row.eventId = reply.id →
      row.eventCreatedAt ≠ columnTime reply now) →
    (∀ row ∈ s.threads, row.eventId = parent →
      row.eventCreatedAt ≠ columnTime parentEvent now) →
    TopLevel s parentEvent parent

/-! ## What a resolution computes -/

section Resolve

variable {s t : ThreadStore} {parent root : EventId} {channelId : Uuid}
  {visible : Event → Bool} {now : Int} {depth : Nat}

theorem findParent_eq_ok {row : Db.EventRow} {created : Int} :
    findParent (readsOf s) parent channelId visible now = .ok (row, created) ↔
      s.getEventById parent = some row ∧
        targetReadableInChannel visible channelId row = true ∧
        created = (fromTimestamp (secsAsI64 row.event.createdAt)).getD now := by
  unfold findParent
  rw [show (readsOf s).parentEvent = s from rfl]
  split
  · next hnone =>
      refine ⟨fun h => (by cases h), ?_⟩
      rintro ⟨hrow, hread, -⟩
      rw [hrow, Option.filter_some, if_pos hread] at hnone
      cases hnone
  · next found hfound =>
      obtain ⟨hget, hread⟩ := Option.filter_eq_some_iff.1 hfound
      constructor
      · intro h
        cases h
        exact ⟨hget, hread, rfl⟩
      · rintro ⟨hrow, -, rfl⟩
        rw [hget] at hrow
        cases hrow
        rfl

/-- The root and depth both paths compute for a reply to the parent. -/
def placeIn (s : ThreadStore) (parentEvent : Event) (parent : EventId) : EventId × Nat :=
  match s.getThreadMetadataByEvent parent with
  | some row => ThreadRow.place row parent
  | none =>
      (markedRoot parentEvent parent, if markedRoot parentEvent parent = parent then 1 else 2)

theorem derived_place (ev : Event) (created : Int) :
    ((deriveAncestryFromParentTags (readsOf s) ev parent created).1,
      (deriveAncestryFromParentTags (readsOf s) ev parent created).2.2) =
      (markedRoot ev parent, if markedRoot ev parent = parent then 1 else 2) := by
  unfold deriveAncestryFromParentTags
  dsimp only
  split
  · rfl
  · rfl

theorem relayAncestry_place (ev : Event) (created : Int) :
    ((relayAncestry (readsOf s) ev parent created).1,
      (relayAncestry (readsOf s) ev parent created).2.2) = placeIn s ev parent := by
  cases hmeta : s.getThreadMetadataByEvent parent with
  | some row =>
      have hread : (readsOf s).parentMeta.getThreadMetadataByEvent parent = some row := hmeta
      unfold relayAncestry placeIn
      rw [hread, hmeta]
      rfl
  | none =>
      have hread : (readsOf s).parentMeta.getThreadMetadataByEvent parent = none := hmeta
      unfold relayAncestry placeIn
      rw [hread, hmeta]
      exact derived_place ev created

/-- The client path accepts exactly the root of the place, within the depth
limit. A parent without a row never passes it. -/
theorem clientAncestry_place {ev : Event} {created : Int} {clientRoot : EventId} :
    (∃ time, clientAncestry (readsOf s) ev parent created clientRoot =
      .ok (root, time, depth)) ↔
      placeIn s ev parent = (root, depth) ∧ clientRoot = root ∧ depth ≤ maxThreadDepth := by
  cases hmeta : s.getThreadMetadataByEvent parent with
  | some row =>
      have hread : (readsOf s).parentMeta.getThreadMetadataByEvent parent = some row := hmeta
      unfold clientAncestry placeIn
      rw [hread, hmeta]
      show (∃ time, (if clientRoot ≠ (ThreadRow.place row parent).1 then _
        else if maxThreadDepth < (ThreadRow.place row parent).2 then _ else _) = _) ↔
          ThreadRow.place row parent = _ ∧ _
      split
      · next hne =>
          refine ⟨fun ⟨_, h⟩ => (by cases h), fun ⟨hp, hr, _⟩ => absurd ?_ hne⟩
          rw [hp, hr]
      · next heq =>
          have heq := not_not.1 heq
          split
          · next hdeep =>
              refine ⟨fun ⟨_, h⟩ => (by cases h), fun ⟨hp, _, hle⟩ => ?_⟩
              rw [hp] at hdeep
              exact absurd hle (Nat.not_le.2 hdeep)
          · next hle =>
              have hle := Nat.le_of_not_lt hle
              constructor
              · rintro ⟨time, h⟩
                cases h
                exact ⟨rfl, heq, hle⟩
              · rintro ⟨hp, -, -⟩
                have h₁ : (ThreadRow.place row parent).1 = root := by rw [hp]
                have h₂ : (ThreadRow.place row parent).2 = depth := by rw [hp]
                subst h₁ h₂
                exact ⟨_, rfl⟩
  | none =>
      have hread : (readsOf s).parentMeta.getThreadMetadataByEvent parent = none := hmeta
      have hder := @derived_place s parent ev created
      unfold clientAncestry placeIn
      rw [hread, hmeta]
      have hle : (if markedRoot ev parent = parent then 1 else 2) ≤ maxThreadDepth := by
        unfold maxThreadDepth
        split <;> omega
      generalize deriveAncestryFromParentTags (readsOf s) ev parent created = derived at hder
      obtain ⟨root', time, depth'⟩ := derived
      obtain ⟨hroot, hdepth⟩ := Prod.mk.inj hder
      dsimp only at hroot hdepth ⊢
      subst hroot hdepth
      split
      · next hne =>
          refine ⟨fun ⟨_, h⟩ => (by cases h), fun ⟨hp, hr, _⟩ => absurd ?_ hne⟩
          cases hp
          exact hr
      · next heq =>
          constructor
          · rintro ⟨time', h⟩
            cases h
            exact ⟨rfl, not_not.1 heq, hle⟩
          · rintro ⟨hp, -, -⟩
            cases hp
            exact ⟨time, rfl⟩

/-- A reader may reply to the parent, and the reply's place is this one. -/
def PlacedAt (s : ThreadStore) (parent : EventId) (channelId : Uuid)
    (visible : Event → Bool) (root : EventId) (depth : Nat) : Prop :=
  ∃ row, s.getEventById parent = some row ∧
    targetReadableInChannel visible channelId row = true ∧
    placeIn s row.event parent = (root, depth)

theorem clientAnswer_iff {reply : Event} {rootHex parentHex : String}
    (hmarkers : (parseThreadMarkers reply.tags).resolve = some (rootHex, parentHex))
    (hroot : Bytes32.ofHex rootHex = some root)
    (hparent : Bytes32.ofHex parentHex = some parent) (hle : depth ≤ maxThreadDepth) :
    ClientAnswer s reply channelId visible now root parent depth ↔
      PlacedAt s parent channelId visible root depth := by
  unfold ClientAnswer resolveNip10ThreadMeta
  rw [hmarkers]
  dsimp only
  rw [show decodeId parentHex "invalid parent event ID hex" = .ok parent by
      unfold decodeId; rw [hparent]; rfl,
    show decodeId rootHex "invalid root event ID hex" = .ok root by
      unfold decodeId; rw [hroot]; rfl]
  constructor
  · rintro ⟨q, hq, hqroot, -, hqdepth⟩
    obtain ⟨_, hdec, hq⟩ := bind_eq_ok hq
    cases hdec
    obtain ⟨⟨row, created⟩, hfind, hq⟩ := bind_eq_ok hq
    obtain ⟨_, hdec, hq⟩ := bind_eq_ok hq
    cases hdec
    obtain ⟨⟨root', time, depth'⟩, hanc, hq⟩ := bind_eq_ok hq
    cases hq
    cases hqroot
    cases hqdepth
    obtain ⟨hget, hread, -⟩ := findParent_eq_ok.1 hfind
    exact ⟨row, hget, hread, (clientAncestry_place.1 ⟨time, hanc⟩).1⟩
  · rintro ⟨row, hget, hread, hplace⟩
    have hfind := findParent_eq_ok.2
      (⟨hget, hread, rfl⟩ : _ ∧ _ ∧ (fromTimestamp (secsAsI64 row.event.createdAt)).getD now = _)
    obtain ⟨time, hanc⟩ := (@clientAncestry_place s parent root depth row.event
      ((fromTimestamp (secsAsI64 row.event.createdAt)).getD now) root).2 ⟨hplace, rfl, hle⟩
    have hbind : ∀ f : Db.EventRow × Int → EventId × Int × Nat →
          Except String (Option ThreadMetadataParams),
        ((Except.ok parent : Except String EventId) >>= fun parentId =>
          findParent (readsOf s) parentId channelId visible now >>= fun found =>
          (Except.ok root : Except String EventId) >>= fun clientRoot =>
          clientAncestry (readsOf s) found.1.event parentId found.2 clientRoot >>= f found) =
          f (row, (fromTimestamp (secsAsI64 row.event.createdAt)).getD now)
            (root, time, depth) := by
      intro f
      show (findParent _ _ _ _ _ >>= _) = _
      rw [hfind]
      show (clientAncestry _ _ _ _ _ >>= _) = _
      rw [hanc]
      rfl
    exact ⟨_, hbind fun found place => .ok (some (ReplyAncestry.intoThreadMeta
      ⟨parent, found.2, place.1, place.2.1, place.2.2⟩ reply.id
        ((fromTimestamp (secsAsI64 reply.createdAt)).getD now) channelId
        (reply.tags.any fun t => t.name == "broadcast" && t.content == some "1"))),
      rfl, rfl, rfl⟩

theorem relayAnswer_iff {parentHex : String} (hparent : Bytes32.ofHex parentHex = some parent)
    (hle : depth ≤ maxThreadDepth) :
    RelayAnswer s parentHex channelId visible now root depth ↔
      PlacedAt s parent channelId visible root depth := by
  unfold RelayAnswer resolveRelayReplyThreadMeta
  rw [show decodeId parentHex "invalid parent event ID hex" = .ok parent by
      unfold decodeId; rw [hparent]; rfl]
  constructor
  · rintro ⟨a, ha, rfl, rfl⟩
    obtain ⟨_, hdec, ha⟩ := bind_eq_ok ha
    cases hdec
    obtain ⟨⟨row, created⟩, hfind, ha⟩ := bind_eq_ok ha
    obtain ⟨hget, hread, -⟩ := findParent_eq_ok.1 hfind
    have hplace := @relayAncestry_place s parent row.event created
    dsimp only at ha
    split at ha
    · cases ha
    · cases ha
      exact ⟨row, hget, hread, hplace.symm⟩
  · rintro ⟨row, hget, hread, hplace⟩
    have hfind := findParent_eq_ok.2
      (⟨hget, hread, rfl⟩ : _ ∧ _ ∧ (fromTimestamp (secsAsI64 row.event.createdAt)).getD now = _)
    have hanc := @relayAncestry_place s parent row.event
      ((fromTimestamp (secsAsI64 row.event.createdAt)).getD now)
    rw [hplace] at hanc
    obtain ⟨h₁, h₂⟩ := Prod.mk.inj hanc
    have hshallow : ¬ maxThreadDepth < (relayAncestry (readsOf s) row.event parent
        ((fromTimestamp (secsAsI64 row.event.createdAt)).getD now)).2.2 := by
      rw [h₂]
      exact Nat.not_lt.2 hle
    have hbind : ∀ f : Db.EventRow × Int → Except String ReplyAncestry,
        ((Except.ok parent : Except String EventId) >>= fun parentId =>
          findParent (readsOf s) parentId channelId visible now >>= f) =
          f (row, (fromTimestamp (secsAsI64 row.event.createdAt)).getD now) := by
      intro f
      show (findParent _ _ _ _ _ >>= _) = _
      rw [hfind]
      rfl
    exact ⟨_, (hbind _).trans (if_neg hshallow), h₁, h₂⟩

end Resolve

/-! ## The rows of the parent -/

/-- Every row of the message gives its replies this place. -/
def PlacesAre (rows : List ThreadRow) (parent : EventId) (place : EventId × Nat) : Prop :=
  ∀ row ∈ rows, row.eventId = parent → ThreadRow.place row parent = place

section Rows

variable {rows : List ThreadRow} {parent : EventId} {place : EventId × Nat}

/-- An insert adds the row's own place, if the key is free. -/
theorem placesAre_insertThreadRow (row : ThreadRow) :
    PlacesAre (insertThreadRow rows row).1 parent place ↔
      PlacesAre rows parent place ∧ (row.eventId = parent →
        (∀ r ∈ rows, r.eventId = parent → r.eventCreatedAt ≠ row.eventCreatedAt) →
        ThreadRow.place row parent = place) := by
  unfold insertThreadRow
  split
  · next hkey =>
      obtain ⟨r, hr, hsame⟩ := List.any_eq_true.1 hkey
      simp only [Bool.and_eq_true, beq_iff_eq] at hsame
      refine ⟨fun h => ⟨h, fun hrow hfree => ?_⟩, fun h => h.1⟩
      exact absurd hsame.1 (hfree r hr (hsame.2.trans hrow))
  · next hkey =>
      constructor
      · intro h
        exact ⟨fun r hr => h r (List.mem_append_left _ hr),
          fun hrow _ => h row (List.mem_append_right _ List.mem_cons_self) hrow⟩
      · rintro ⟨hrows, hnew⟩ r hr hid
        rcases List.mem_append.1 hr with hr | hr
        · exact hrows r hr hid
        · cases List.mem_singleton.1 hr
          refine hnew hid fun r' hr' hid' htime => hkey ?_
          exact List.any_eq_true.2 ⟨r', hr', by simp [htime, hid', hid]⟩

theorem placesAre_updateThreadRows {id : EventId} {set : ThreadRow → ThreadRow}
    (hset : ∀ r, (set r).eventId = r.eventId ∧
      ThreadRow.place (set r) parent = ThreadRow.place r parent) :
    PlacesAre (updateThreadRows rows id set) parent place ↔ PlacesAre rows parent place := by
  have hsame : ∀ r : ThreadRow, (if r.eventId = id then set r else r).eventId = r.eventId ∧
      ThreadRow.place (if r.eventId = id then set r else r) parent =
        ThreadRow.place r parent := by
    intro r
    split
    · exact hset r
    · exact ⟨rfl, rfl⟩
  constructor
  · intro h r hr hid
    rw [← (hsame r).2]
    exact h _ (List.mem_map.2 ⟨r, hr, rfl⟩) ((hsame r).1.trans hid)
  · intro h r' hr' hid
    obtain ⟨r, hr, rfl⟩ := List.mem_map.1 hr'
    rw [(hsame r).2]
    exact h r hr ((hsame r).1.symm.trans hid)

/-- The keys of the parent's rows, across an insert for another message. -/
theorem insertThreadRow_other {row : ThreadRow} (hne : row.eventId ≠ parent)
    (q : ThreadRow → Prop) :
    (∀ r ∈ (insertThreadRow rows row).1, r.eventId = parent → q r) ↔
      ∀ r ∈ rows, r.eventId = parent → q r := by
  unfold insertThreadRow
  split
  · exact Iff.rfl
  · refine ⟨fun h r hr => h r (List.mem_append_left _ hr), fun h r hr hid => ?_⟩
    rcases List.mem_append.1 hr with hr | hr
    · exact h r hr hid
    · cases List.mem_singleton.1 hr
      exact absurd hid hne

/-- The insert of a reply adds the place of its parent's stub, if it writes
one; everything else it does is counters and other messages' rows. -/
theorem placesAre_insertThreadMetadata {params : ThreadMetadataParams} {time : Int}
    (hparent : params.parentEventId = some parent)
    (htime : params.parentEventCreatedAt = some time) (hne : params.eventId ≠ parent) :
    PlacesAre (insertThreadMetadata rows params) parent place ↔
      PlacesAre rows parent place ∧
        ((∀ r ∈ rows, r.eventId = params.eventId → r.eventCreatedAt ≠ params.eventCreatedAt) →
          (∀ r ∈ rows, r.eventId = parent → r.eventCreatedAt ≠ time) →
          (parent, 1) = place) := by
  unfold insertThreadMetadata
  have hother := @insertThreadRow_other rows parent { toThreadMetadataParams := params } hne
  generalize hins : insertThreadRow rows { toThreadMetadataParams := params } = ins at hother
  obtain ⟨rows', inserted⟩ := ins
  cases inserted with
  | false =>
      have hkey : rows.any (fun r => r.eventCreatedAt == params.eventCreatedAt &&
          r.eventId == params.eventId) = true := by
        by_contra hno
        unfold insertThreadRow at hins
        rw [if_neg hno] at hins
        cases hins
      have hrows : rows' = rows := by
        unfold insertThreadRow at hins
        rw [if_pos hkey] at hins
        cases hins
        rfl
      subst hrows
      obtain ⟨r, hr, hsame⟩ := List.any_eq_true.1 hkey
      simp only [Bool.and_eq_true, beq_iff_eq] at hsame
      refine ⟨fun h => ⟨h, fun hown => absurd hsame.1 (hown r hr hsame.2)⟩, fun h => h.1⟩
  | true =>
      have hown : ∀ r ∈ rows, r.eventId = params.eventId →
          r.eventCreatedAt ≠ params.eventCreatedAt := by
        intro r hr hid ht
        unfold insertThreadRow at hins
        rw [if_pos (List.any_eq_true.2 ⟨r, hr, by simp [ht, hid]⟩)] at hins
        cases hins
      have hroot : ∀ us, PlacesAre (insertRootStub us params parent) parent place ↔
          PlacesAre us parent place := by
        intro us
        unfold insertRootStub
        split
        · next rootId _ =>
            split
            · exact Iff.rfl
            · next hr => exact insertThreadRow_other hr _
        · exact Iff.rfl
      have hbump : PlacesAre (insertRootStub (insertThreadRow rows'
            (stubRow time parent params.channelId)).1 params parent) parent place ↔
          PlacesAre rows parent place ∧ ((∀ r ∈ rows, r.eventId = parent →
            r.eventCreatedAt ≠ time) → (parent, 1) = place) := by
        rw [hroot, placesAre_insertThreadRow]
        exact and_congr (hother _) ⟨fun h hfree => h rfl ((hother _).2 hfree),
          fun h _ hfree => h ((hother _).1 hfree)⟩
      have hreplies : ∀ us id, PlacesAre (updateThreadRows us id bumpReplies) parent place ↔
          PlacesAre us parent place :=
        fun us id => placesAre_updateThreadRows fun _ => ⟨rfl, rfl⟩
      have hdescendants : ∀ us id,
          PlacesAre (updateThreadRows us id bumpDescendants) parent place ↔
            PlacesAre us parent place :=
        fun us id => placesAre_updateThreadRows fun _ => ⟨rfl, rfl⟩
      rw [hparent, htime]
      dsimp only [Option.getD_some]
      have hclaim := hbump.trans
        (and_congr_right fun _ => ⟨fun h (_ : _) => h, fun h => h hown⟩)
      cases params.rootEventId with
      | none => exact (hreplies _ _).trans hclaim
      | some rootId => exact (hdescendants _ _).trans ((hreplies _ _).trans hclaim)

/-- The insert takes no row away. -/
theorem no_row_before_insert {params : ThreadMetadataParams} {time : Int}
    (hparent : params.parentEventId = some parent)
    (htime : params.parentEventCreatedAt = some time) (hne : params.eventId ≠ parent)
    (hnone : ∀ r ∈ insertThreadMetadata rows params, r.eventId ≠ parent) :
    ∀ r ∈ rows, r.eventId ≠ parent := by
  intro r hr hid
  -- With no row left every place is vacuously right, also one `r` does not have.
  have hall : PlacesAre (insertThreadMetadata rows params) parent (parent, r.depth + 2) :=
    fun r' hr' hid' => absurd hid' (hnone r' hr')
  have hplace := ((placesAre_insertThreadMetadata hparent htime hne).1 hall).1 r hr hid
  have hdepth : r.depth + 1 = r.depth + 2 := (Prod.mk.inj hplace).2
  omega

end Rows

/-! ## Two replies -/

section Replies

variable {s s' : ThreadStore} {parent root : EventId} {channelId : Uuid}
  {visible : Event → Bool} {now : Int} {depth : Nat} {reply : Event}

theorem getThreadMetadataByEvent_of_no_row (h : ∀ row ∈ s.threads, row.eventId ≠ parent) :
    s.getThreadMetadataByEvent parent = none :=
  List.find?_eq_none.2 fun row hrow hid => h row hrow (of_decide_eq_true hid)

theorem getThreadMetadataByEvent_spec {row : ThreadRow}
    (h : s.getThreadMetadataByEvent parent = some row) :
    row ∈ s.threads ∧ row.eventId = parent := by
  have hid := @List.find?_some _ (fun r : ThreadRow => decide (r.eventId = parent)) _ _ h
  exact ⟨List.mem_of_find?_eq_some h, of_decide_eq_true hid⟩

/-- Whatever row the lookup takes, it finds this place: so do all rows, and
the parent's tags when there is no row. -/
theorem placeIn_reordered_iff {ev : Event} {place : EventId × Nat} :
    (∀ t, Reordered s t → placeIn t ev parent = place) ↔
      PlacesAre s.threads parent place ∧
        ((∀ row ∈ s.threads, row.eventId ≠ parent) → placeIn s ev parent = place) := by
  constructor
  · intro h
    refine ⟨fun row hrow hid => ?_, fun _ => h s ⟨rfl, .refl _⟩⟩
    have hfirst := h ⟨s.events, row :: s.threads.erase row⟩
      ⟨rfl, (List.perm_cons_erase hrow).symm⟩
    have hget : ThreadStore.getThreadMetadataByEvent
        ⟨s.events, row :: s.threads.erase row⟩ parent = some row :=
      List.find?_cons_of_pos (decide_eq_true hid)
    unfold placeIn at hfirst
    rw [hget] at hfirst
    exact hfirst
  · rintro ⟨hrows, hnone⟩ t ⟨-, hperm⟩
    cases hmeta : t.getThreadMetadataByEvent parent with
    | some row =>
        obtain ⟨hmem, hid⟩ := getThreadMetadataByEvent_spec hmeta
        unfold placeIn
        rw [hmeta]
        exact hrows row (hperm.mem_iff.1 hmem) hid
    | none =>
        have hno : ∀ row ∈ s.threads, row.eventId ≠ parent := fun row hrow hid =>
          List.find?_eq_none.1 hmeta row (hperm.mem_iff.2 hrow) (decide_eq_true hid)
        have hs := hnone hno
        unfold placeIn at hs ⊢
        rw [getThreadMetadataByEvent_of_no_row hno] at hs
        rw [hmeta]
        exact hs

/-- The condition, seen from the place the first reply was given. -/
theorem placeFixed_iff {ev : Event} {place : EventId × Nat}
    (hplace : placeIn s ev parent = place) :
    PlaceFixed s reply ev parent now ↔
      PlacesAre s.threads parent place ∧
        ((∀ r ∈ s.threads, r.eventId = reply.id → r.eventCreatedAt ≠ columnTime reply now) →
          (∀ r ∈ s.threads, r.eventId = parent → r.eventCreatedAt ≠ columnTime ev now) →
          (parent, 1) = place) := by
  have hfound : ∀ row, s.getThreadMetadataByEvent parent = some row →
      ThreadRow.place row parent = place := by
    intro row hrow
    unfold placeIn at hplace
    rw [hrow] at hplace
    exact hplace
  have hderived : s.getThreadMetadataByEvent parent = none →
      (markedRoot ev parent, if markedRoot ev parent = parent then 1 else 2) = place := by
    intro hnone
    unfold placeIn at hplace
    rw [hnone] at hplace
    exact hplace
  constructor
  · rintro ⟨hrows, hstub⟩
    constructor
    · intro row hrow hid
      cases hmeta : s.getThreadMetadataByEvent parent with
      | none => exact absurd (decide_eq_true hid) (List.find?_eq_none.1 hmeta row hrow)
      | some row' =>
          obtain ⟨hmem, hid'⟩ := getThreadMetadataByEvent_spec hmeta
          exact (hrows row hrow hid row' hmem hid').trans (hfound row' hmeta)
    · intro hown hfree
      have htop := hstub hown hfree
      cases hmeta : s.getThreadMetadataByEvent parent with
      | some row =>
          obtain ⟨hmem, hid⟩ := getThreadMetadataByEvent_spec hmeta
          exact (htop.rows row hmem hid).symm.trans (hfound row hmeta)
      | none =>
          have hroot := htop.tags fun row hrow hid =>
            List.find?_eq_none.1 hmeta row hrow (decide_eq_true hid)
          have hder := hderived hmeta
          rw [hroot, if_pos rfl] at hder
          exact hder
  · rintro ⟨hplaces, hstub⟩
    refine ⟨fun row hrow hid row' hrow' hid' =>
      (hplaces row hrow hid).trans (hplaces row' hrow' hid').symm, fun hown hfree => ?_⟩
    have htop := hstub hown hfree
    refine ⟨fun row hrow hid => (hplaces row hrow hid).trans htop.symm, fun hnone => ?_⟩
    have hder := hderived (getThreadMetadataByEvent_of_no_row hnone)
    rw [← htop] at hder
    exact (Prod.mk.inj hder).1

/-- An accepted reply, taken apart. -/
theorem resolve_accepted {params : ThreadMetadataParams}
    {rootHex parentHex : String}
    (hmarkers : (parseThreadMarkers reply.tags).resolve = some (rootHex, parentHex))
    (hok : resolveNip10ThreadMeta (readsOf s) reply channelId visible now =
      .ok (some params)) :
    ∃ parent root row, Bytes32.ofHex parentHex = some parent ∧
      Bytes32.ofHex rootHex = some root ∧ s.getEventById parent = some row ∧
      placeIn s row.event parent = (root, params.depth) ∧ params.depth ≤ maxThreadDepth ∧
      params.eventId = reply.id ∧ params.eventCreatedAt = columnTime reply now ∧
      params.parentEventId = some parent ∧
      params.parentEventCreatedAt = some (columnTime row.event now) ∧
      params.rootEventId = some root := by
  unfold resolveNip10ThreadMeta at hok
  rw [hmarkers] at hok
  obtain ⟨parent, hdec, hok⟩ := bind_eq_ok hok
  obtain ⟨⟨row, created⟩, hfind, hok⟩ := bind_eq_ok hok
  obtain ⟨clientRoot, hdecroot, hok⟩ := bind_eq_ok hok
  obtain ⟨⟨root, time, depth⟩, hanc, hok⟩ := bind_eq_ok hok
  cases hok
  obtain ⟨hget, -, hcreated⟩ := findParent_eq_ok.1 hfind
  obtain ⟨hplace, hsame, hle⟩ := clientAncestry_place.1 ⟨time, hanc⟩
  have hdecoded : ∀ {hex error : String} {id : EventId},
      decodeId hex error = .ok id → Bytes32.ofHex hex = some id := by
    intro hex error id h
    unfold decodeId at h
    cases hhex : Bytes32.ofHex hex with
    | none => rw [hhex] at h; cases h
    | some id' => rw [hhex] at h; cases h; rfl
  subst hsame hcreated
  exact ⟨parent, clientRoot, row, hdecoded hdec, hdecoded hdecroot, hget, hplace, hle,
    rfl, rfl, rfl, rfl, rfl⟩

/-- What storing an accepted reply leaves: the parent is still found, and the
thread table is the insert's. -/
theorem stored_accepted {params : ThreadMetadataParams} {row : Db.EventRow}
    (hget : s.getEventById parent = some row)
    (hstored : s.insertEventWithThreadMetadata reply (some channelId) (some params) =
      some (s', true)) :
    reply.id ≠ parent ∧ s'.getEventById parent = some row ∧
      s'.threads = insertThreadMetadata s.threads params := by
  unfold ThreadStore.insertEventWithThreadMetadata at hstored
  split at hstored
  · cases hstored
  · split at hstored
    · cases hstored
    · cases hstored
    · next hnew =>
        cases hstored
        have hne : reply.id ≠ parent := by
          intro heq
          unfold ThreadStore.getEventById at hget
          rw [← heq, hnew] at hget
          cases hget
        refine ⟨hne, ?_, rfl⟩
        unfold ThreadStore.getEventById at hget ⊢
        rw [HMap.lookup_insert_ite, if_neg (Ne.symm hne)]
        exact hget

/-- A reader who may reply to the parent is answered with this place, whatever
row the lookup takes. -/
theorem placedAt_reordered_iff {row : Db.EventRow} (hget : s.getEventById parent = some row) :
    (∀ t, Reordered s t → PlacedAt t parent channelId visible root depth) ↔
      targetReadableInChannel visible channelId row = true ∧
        ∀ t, Reordered s t → placeIn t row.event parent = (root, depth) := by
  have hsame : ∀ t, Reordered s t → t.getEventById parent = some row := by
    rintro t ⟨hevents, -⟩
    unfold ThreadStore.getEventById at hget ⊢
    rw [hevents]
    exact hget
  have hiff : ∀ t, Reordered s t → (PlacedAt t parent channelId visible root depth ↔
      targetReadableInChannel visible channelId row = true ∧
        placeIn t row.event parent = (root, depth)) := by
    intro t ht
    constructor
    · rintro ⟨found, hfound, hread, hplace⟩
      rw [hsame t ht] at hfound
      cases hfound
      exact ⟨hread, hplace⟩
    · rintro ⟨hread, hplace⟩
      exact ⟨row, hsame t ht, hread, hplace⟩
  constructor
  · intro h
    exact ⟨((hiff s ⟨rfl, .refl _⟩).1 (h s ⟨rfl, .refl _⟩)).1,
      fun t ht => ((hiff t ht).1 (h t ht)).2⟩
  · rintro ⟨hread, hplace⟩ t ht
    exact (hiff t ht).2 ⟨hread, hplace t ht⟩

/-- Once a reply is stored, a second one with its markers gets the same place
and the relay computes that place before and after, exactly when both readers
may reply and the parent's place is fixed. -/
theorem second_reply_same_place_iff {first second : Event} {params : ThreadMetadataParams}
    {rootHex parentHex : String} {visible₂ visible₃ : Event → Bool} {now₂ now₃ : Int}
    {row : Db.EventRow}
    (hmarkers : (parseThreadMarkers first.tags).resolve = some (rootHex, parentHex))
    (hsecond : (parseThreadMarkers second.tags).resolve = some (rootHex, parentHex))
    (hparent : Bytes32.ofHex parentHex = some parent)
    (hroot : Bytes32.ofHex rootHex = some root)
    (hget : s.getEventById parent = some row)
    (hok : resolveNip10ThreadMeta (readsOf s) first channelId visible now =
      .ok (some params))
    (hstored : s.insertEventWithThreadMetadata first (some channelId) (some params) =
      some (s', true)) :
    ((∀ t, Reordered s' t →
        ClientAnswer t second channelId visible₂ now₂ root parent params.depth) ∧
      ∀ t, Reordered s t ∨ Reordered s' t →
        RelayAnswer t parentHex channelId visible₃ now₃ root params.depth) ↔
      targetReadableInChannel visible₂ channelId row = true ∧
        targetReadableInChannel visible₃ channelId row = true ∧
        PlaceFixed s first row.event parent now := by
  obtain ⟨parent', root', row', hparent', hroot', hget', hplace, hle, hid, htime, hpid, hptime,
    -⟩ := resolve_accepted hmarkers hok
  rw [hparent] at hparent'
  cases hparent'
  rw [hroot] at hroot'
  cases hroot'
  rw [hget] at hget'
  cases hget'
  obtain ⟨hne, hget₂, hthreads⟩ := stored_accepted hget hstored
  have hclient : (∀ t, Reordered s' t →
      ClientAnswer t second channelId visible₂ now₂ root parent params.depth) ↔
      targetReadableInChannel visible₂ channelId row = true ∧
        ∀ t, Reordered s' t → placeIn t row.event parent = (root, params.depth) := by
    rw [← placedAt_reordered_iff hget₂]
    exact forall_congr' fun t => imp_congr_right fun _ =>
      clientAnswer_iff hsecond hroot hparent hle
  have hrelay : (∀ t, Reordered s t ∨ Reordered s' t →
      RelayAnswer t parentHex channelId visible₃ now₃ root params.depth) ↔
      targetReadableInChannel visible₃ channelId row = true ∧
        (∀ t, Reordered s t → placeIn t row.event parent = (root, params.depth)) ∧
        ∀ t, Reordered s' t → placeIn t row.event parent = (root, params.depth) := by
    have hboth := and_congr
      (@placedAt_reordered_iff s parent root channelId visible₃ params.depth row hget)
      (@placedAt_reordered_iff s' parent root channelId visible₃ params.depth row hget₂)
    rw [and_and_and_comm, and_self] at hboth
    rw [← hboth]
    constructor
    · intro h
      exact ⟨fun t ht => (relayAnswer_iff hparent hle).1 (h t (.inl ht)),
        fun t ht => (relayAnswer_iff hparent hle).1 (h t (.inr ht))⟩
    · rintro ⟨hbefore, hafter⟩ t (ht | ht)
      · exact (relayAnswer_iff hparent hle).2 (hbefore t ht)
      · exact (relayAnswer_iff hparent hle).2 (hafter t ht)
  -- Without a row after the insert there was none before, and then the first
  -- reply's own place came from the tags.
  have hbefore : (∀ t, Reordered s t → placeIn t row.event parent = (root, params.depth)) ↔
      PlacesAre s.threads parent (root, params.depth) :=
    placeIn_reordered_iff.trans (and_iff_left fun _ => hplace)
  have hrows := @placesAre_insertThreadMetadata s.threads parent (root, params.depth) params
    _ hpid hptime (hid ▸ hne)
  have hafter : (∀ t, Reordered s' t → placeIn t row.event parent = (root, params.depth)) ↔
      PlacesAre s'.threads parent (root, params.depth) := by
    refine placeIn_reordered_iff.trans (and_iff_left fun hnone => ?_)
    have hno := no_row_before_insert hpid hptime (hid ▸ hne) (hthreads ▸ hnone)
    have hderived := hplace
    unfold placeIn at hderived ⊢
    rw [getThreadMetadataByEvent_of_no_row hno] at hderived
    rw [getThreadMetadataByEvent_of_no_row hnone]
    exact hderived
  rw [hclient, hrelay, hbefore, hafter, placeFixed_iff hplace, hthreads, hrows, hid, htime]
  constructor
  · rintro ⟨⟨hread₂, -⟩, hread₃, -, hfixed⟩
    exact ⟨hread₂, hread₃, hfixed⟩
  · rintro ⟨hread₂, hread₃, hfixed⟩
    exact ⟨⟨hread₂, hfixed⟩, hread₃, hfixed.1, hfixed⟩

/-- One stored message, which has no row in the thread table. -/
def unindexed (parent : Event) : ThreadStore :=
  ⟨(∅ : HMap EventId Db.EventRow).insert parent.id
    { event := parent, channelId := some (.ofByte 7) }, []⟩

/-- The parameters of a first reply to an unindexed message. -/
def unindexedReply (reply parent : EventId) (created parentCreated : Int) (root : EventId)
    (depth : Nat) : ThreadMetadataParams where
  eventId := reply
  eventCreatedAt := created
  channelId := .ofByte 7
  parentEventId := some parent
  parentEventCreatedAt := some parentCreated
  rootEventId := some root
  rootEventCreatedAt := some parentCreated
  depth := depth
  broadcast := false

/-- The store once the reply is in. -/
def afterReply (s : ThreadStore) (reply : Event) (params : ThreadMetadataParams) :
    ThreadStore :=
  ((s.insertEventWithThreadMetadata reply (some (.ofByte 7)) (some params)).map (·.1)).getD s

/-- Two replies to a message that starts its thread. -/
theorem second_reply_same_place_topLevel :
    let s := unindexed (sampleMessage 1 100 [])
    let params := unindexedReply (.ofByte 2) (.ofByte 1) 200 100 (.ofByte 1) 1
    let s' := afterReply s (sampleReply 2 200 1 1) params
    resolveNip10ThreadMeta (readsOf s) (sampleReply 2 200 1 1) (.ofByte 7)
        (fun _ => true) 0 = .ok (some params) ∧
      (∀ t, Reordered s' t → ClientAnswer t (sampleReply 3 300 1 1) (.ofByte 7)
        (fun _ => true) 0 (.ofByte 1) (.ofByte 1) 1) ∧
      ∀ t, Reordered s t ∨ Reordered s' t →
        RelayAnswer t (Bytes32.ofByte 1).toHex (.ofByte 7) (fun _ => true) 0 (.ofByte 1) 1 := by
  intro s params s'
  have hok : resolveNip10ThreadMeta (readsOf s) (sampleReply 2 200 1 1) (.ofByte 7)
      (fun _ => true) 0 = .ok (some params) := by decide +kernel
  have hiff := @second_reply_same_place_iff s s' (.ofByte 1) (.ofByte 1) (.ofByte 7)
    (fun _ => true) 0 (sampleReply 2 200 1 1) (sampleReply 3 300 1 1) params
    (Bytes32.ofByte 1).toHex (Bytes32.ofByte 1).toHex (fun _ => true) (fun _ => true) 0 0
    { event := sampleMessage 1 100 [], channelId := some (.ofByte 7) }
    (by decide +kernel) (by decide +kernel) (by decide +kernel) (by decide +kernel) rfl hok rfl
  refine ⟨hok, hiff.2 ⟨by decide +kernel, by decide +kernel, ?_⟩⟩
  exact ⟨fun _ h => (by cases h), fun _ _ => ⟨fun _ h => (by cases h),
    fun _ => by decide +kernel⟩⟩

/-- A reply whose own message is nested but has no row: the first reply to it
is filed under root 1 at depth 2, the next one is refused, and the relay's goes
under the parent. -/
theorem second_reply_refused_nested :
    let s := unindexed (sampleReply 2 200 1 1)
    let first := sampleReply 3 300 1 2
    let params := unindexedReply (.ofByte 3) (.ofByte 2) 300 200 (.ofByte 1) 2
    let s' := afterReply s first params
    resolveNip10ThreadMeta (readsOf s) first (.ofByte 7) (fun _ => true) 0 =
        .ok (some params) ∧
      (s.insertEventWithThreadMetadata first (some (.ofByte 7)) (some params)).map (·.2) =
        some true ∧
      resolveNip10ThreadMeta (readsOf s') (sampleReply 4 400 1 2) (.ofByte 7)
        (fun _ => true) 0 = .error "root tag does not match thread ancestry" ∧
      (resolveRelayReplyThreadMeta (readsOf s) (Bytes32.ofByte 2).toHex (.ofByte 7)
        (fun _ => true) 0).toOption.map (fun a => (a.rootEventId, a.depth)) =
          some (.ofByte 1, 2) ∧
      (resolveRelayReplyThreadMeta (readsOf s') (Bytes32.ofByte 2).toHex (.ofByte 7)
        (fun _ => true) 0).toOption.map (fun a => (a.rootEventId, a.depth)) =
          some (.ofByte 2, 1) := by
  decide +kernel

end Replies

end Buzz.Relay
