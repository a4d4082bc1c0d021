import Buzz.Proofs.ThreadForest

/-!
# Threads along a run

A resolution reads the parent's event, the parent's row and the root's event
before its insert, each from a store of its own. The parent and its place in
the thread never change once stored, so the first two reads agree with the
store the insert runs on as soon as both see the parent. The root's read is
the weak one: it does not find a soft-deleted root, and the reply then names
the parent's time for it. A stub under that time is a second row for the
root, which no later update tells apart from the first.
-/

namespace Buzz.Relay

open Buzz.Core Buzz.Db Buzz.Lib ThreadStore

namespace ThreadRun

variable {s : ThreadRun} {i : Nat}

/-- Every store of the run is a forest, and each extends those before it. -/
structure Sound (s : ThreadRun) : Prop where
  forest : ∀ t ∈ s.history, Forest t
  ordered : s.history.Pairwise Extends

theorem sound_init : Sound {} where
  forest t ht := by
    have : t = {} := by simpa [history] using ht
    rw [this]
    exact forest_empty
  ordered := List.pairwise_singleton _ _

theorem store_mem_history : s.store ∈ s.history := by
  simp [history]

theorem readAt_mem (i : Nat) : s.readAt i ∈ s.history := by
  unfold readAt
  cases h : s.history[i]? with
  | none => exact store_mem_history
  | some t => exact List.mem_of_getElem? h

theorem readAt_of_lt (h : i < s.history.length) :
    s.readAt i = s.history[i] := by
  unfold readAt
  rw [List.getElem?_eq_getElem h]
  rfl

theorem readAt_of_ge (h : s.past.length ≤ i) : s.readAt i = s.store := by
  unfold readAt history
  by_cases heq : i = s.past.length
  · subst heq
    simp
  · rw [List.getElem?_eq_none (by simp; omega)]
    rfl

theorem Sound.readAt_le (h : Sound s) {j : Nat} (hij : i ≤ j) :
    Extends (s.readAt i) (s.readAt j) := by
  have hlen : s.history.length = s.past.length + 1 := by simp [history]
  by_cases hi : s.past.length ≤ i
  · rw [readAt_of_ge hi, readAt_of_ge (Nat.le_trans hi hij)]
    exact Extends.refl _
  · by_cases heq : i = j
    · subst heq
      exact Extends.refl _
    · by_cases hj : j < s.history.length
      · rw [readAt_of_lt (by omega), readAt_of_lt hj]
        exact List.pairwise_iff_getElem.1 h.ordered i j (by omega) hj (by omega)
      · rw [readAt_of_lt (by omega), readAt_of_ge (by omega),
          ← readAt_of_ge (Nat.le_refl s.past.length), readAt_of_lt (by omega)]
        exact List.pairwise_iff_getElem.1 h.ordered i s.past.length (by omega) (by omega)
          (by omega)

theorem Sound.readAt_store (h : Sound s) (i : Nat) : Extends (s.readAt i) s.store := by
  have := h.readAt_le (Nat.le_max_left i s.past.length)
  rwa [readAt_of_ge (Nat.le_max_right i s.past.length)] at this

theorem Sound.commit (h : Sound s) {t : ThreadStore} (hf : Forest t)
    (he : Extends s.store t) : Sound (s.commit t) where
  forest u hu := by
    rcases List.mem_append.1 hu with hu | hu
    · exact h.forest u hu
    · rw [List.mem_singleton.1 hu]; exact hf
  ordered := by
    show (s.history ++ [t]).Pairwise Extends
    refine List.pairwise_append.2 ⟨h.ordered, List.pairwise_singleton _ _, ?_⟩
    intro u hu v hv
    rw [List.mem_singleton.1 hv]
    obtain ⟨i, hi, rfl⟩ := List.mem_iff_getElem.1 hu
    rw [← readAt_of_lt hi]
    exact (h.readAt_store i).trans he

theorem Sound.now (h : Sound s) : Forest s.store := h.forest _ store_mem_history

/-! ## What a resolution learns -/

/-- The parent was stored when its row was read, and the root of its thread
is found by the read of its time, or has the parent's time anyway. -/
def ancestryKnown (s : ThreadRun) (times : ReadTimes) (parentId : EventId) : Bool :=
  ((s.readAt times.parentMeta).events.lookup parentId).isSome &&
  (((s.readAt times.parentMeta).getThreadMetadataByEvent parentId).bind
    (·.rootEventId)).all fun root =>
      ((s.readAt times.rootEvent).getEventById root).isSome ||
      (s.store.events.lookup root).map (·.event.createdAt) ==
        (s.store.events.lookup parentId).map (·.event.createdAt)

theorem fromTimestamp_of_timestamptz {secs : Int} (h : timestamptz secs = some secs) :
    fromTimestamp secs = some secs := by
  unfold timestamptz at h
  obtain ⟨h', -⟩ := Option.filter_eq_some_iff.1 h
  exact h'

/-- The time a read of a stored event gives. -/
theorem Sound.createdAt (h : Sound s) {id : EventId} {e : EventRow}
    (he : (s.readAt i).getEventById id = some e) (now : Int) :
    ∃ e', s.store.events.lookup id = some e' ∧ e'.event = e.event ∧
      (fromTimestamp (secsAsI64 e.event.createdAt)).getD now =
        secsAsI64 e'.event.createdAt := by
  obtain ⟨hl, -⟩ := Option.filter_eq_some_iff.1 he
  obtain ⟨e', he', hev, -⟩ := (h.readAt_store i).event id e hl
  refine ⟨e', he', hev, ?_⟩
  have ht := (h.forest _ (readAt_mem i)).time id e hl
  rw [fromTimestamp_of_timestamptz ht, hev]
  rfl

theorem Sound.findParent (h : Sound s) {times : ReadTimes} {parentId : EventId}
    {channelId : Uuid} {visible : Event → Bool} {now created : Int} {row : EventRow}
    (hf : Relay.findParent (times.reads s) parentId channelId visible now =
      .ok (row, created)) :
    ∃ ep, s.store.events.lookup parentId = some ep ∧ ep.event = row.event ∧
      created = secsAsI64 ep.event.createdAt := by
  unfold Relay.findParent at hf
  split at hf
  · cases hf
  · next row' hrow =>
      obtain ⟨hget, -⟩ := Option.filter_eq_some_iff.1 hrow
      obtain ⟨ep, hep, hev, ht⟩ := h.createdAt hget now
      cases hf
      exact ⟨ep, hep, hev, ht⟩

section Known

variable {times : ReadTimes} {parentId : EventId} {ep : EventRow}

theorem Sound.ancestry_of_row (h : Sound s) (hk : s.ancestryKnown times parentId = true)
    {r : ThreadRow}
    (hr : (s.readAt times.parentMeta).getThreadMetadataByEvent parentId = some r) :
    r.rootEventId.getD parentId = s.store.rootFor parentId ∧
      r.depth = depthIn s.store.threads parentId := by
  simp only [ancestryKnown, Bool.and_eq_true] at hk
  obtain ⟨e, he⟩ := Option.isSome_iff_exists.1 hk.1
  have hroot := (h.readAt_store times.parentMeta).rootIn parentId e he
  have hdepth := (h.readAt_store times.parentMeta).depthIn parentId e he
  have hr' : rowOf (s.readAt times.parentMeta).threads parentId = some r := hr
  constructor
  · unfold rootFor
    rw [hroot, rootIn, hr']
    rfl
  · rw [hdepth, depthIn, hr']
    rfl

theorem Sound.ancestry_of_none (h : Sound s)
    (hk : s.ancestryKnown times parentId = true)
    (hr : (s.readAt times.parentMeta).getThreadMetadataByEvent parentId = none)
    (hep : s.store.events.lookup parentId = some ep) :
    markedRoot ep.event parentId = parentId ∧ s.store.rootFor parentId = parentId ∧
      depthIn s.store.threads parentId = 0 := by
  simp only [ancestryKnown, Bool.and_eq_true] at hk
  obtain ⟨e, he⟩ := Option.isSome_iff_exists.1 hk.1
  have hr' : rowOf (s.readAt times.parentMeta).threads parentId = none := hr
  have hroot := (h.readAt_store times.parentMeta).rootIn parentId e he
  have hdepth := (h.readAt_store times.parentMeta).depthIn parentId e he
  obtain ⟨e', he', hev, -⟩ := (h.readAt_store times.parentMeta).event parentId e he
  rw [hep] at he'
  cases he'
  have hun := (h.forest _ (readAt_mem times.parentMeta)).unmarked parentId e he hr'
  refine ⟨?_, ?_, ?_⟩
  · unfold markedRoot
    rw [hev, hun]
    rfl
  · unfold rootFor
    rw [hroot, rootIn, hr']
    rfl
  · rw [hdepth, depthIn, hr']
    rfl

/-- The time named for a root that is not the parent is the root's. -/
theorem Sound.rootCreatedAt (h : Sound s)
    (hk : s.ancestryKnown times parentId = true)
    (hep : s.store.events.lookup parentId = some ep) {x : EventId}
    {ex : EventRow} (hx : rootIn s.store.threads parentId = some x)
    (hex : s.store.events.lookup x = some ex) :
    Relay.rootCreatedAt (times.reads s) x (secsAsI64 ep.event.createdAt) =
      secsAsI64 ex.event.createdAt := by
  simp only [ancestryKnown, Bool.and_eq_true] at hk
  obtain ⟨e, he⟩ := Option.isSome_iff_exists.1 hk.1
  have hroot := (h.readAt_store times.parentMeta).rootIn parentId e he
  have hx' : ((s.readAt times.parentMeta).getThreadMetadataByEvent parentId).bind
      (·.rootEventId) = some x := hroot.symm.trans hx
  have hfound := hk.2
  rw [hx', Option.all_some, Bool.or_eq_true, beq_iff_eq, hex, hep] at hfound
  unfold Relay.rootCreatedAt
  rw [show (times.reads s).rootEvent = s.readAt times.rootEvent from rfl]
  cases hget : (s.readAt times.rootEvent).getEventById x with
  | some row =>
      obtain ⟨e', he', -, ht⟩ := h.createdAt hget (secsAsI64 ep.event.createdAt)
      rw [hex] at he'
      cases he'
      exact ht
  | none =>
      rw [hget] at hfound
      have heq : ex.event.createdAt = ep.event.createdAt := by simpa using hfound
      rw [heq]

/-- A resolution from known ancestry agrees with the store. -/
theorem Sound.resolved (h : Sound s)
    (hk : s.ancestryKnown times parentId = true) {e : EventRow}
    (hep : s.store.events.lookup parentId = some ep)
    (hin : e.inReplyTo = some parentId) {a : ReplyAncestry}
    (hparent : a.parentEventId = parentId)
    (hpt : a.parentEventCreatedAt = secsAsI64 ep.event.createdAt)
    (hroot : a.rootEventId = s.store.rootFor parentId)
    (hrt : a.rootEventId ≠ parentId → a.rootEventCreatedAt =
      Relay.rootCreatedAt (times.reads s) a.rootEventId (secsAsI64 ep.event.createdAt))
    (hdepth : a.depth = depthIn s.store.threads parentId + 1)
    (hle : a.depth ≤ maxThreadDepth) (channelId : Uuid) (broadcast : Bool)
    (id : EventId) :
    Resolved s.store id e ep parentId
      (a.intoThreadMeta id (secsAsI64 e.event.createdAt) channelId broadcast) where
  stored := hep
  inReplyTo := hin
  eventId := rfl
  eventCreatedAt := rfl
  parentEventId := congrArg some hparent
  parentEventCreatedAt := congrArg some hpt
  rootEventId := congrArg some hroot
  rootEventCreatedAt x ex hx hex := by
    have hax : a.rootEventId = x := by rw [hroot, rootFor, hx]; rfl
    have hne : x ≠ parentId := by
      rintro rfl
      obtain ⟨r, hr, hp⟩ := h.now.root _ _ hx
      rw [rootIn, hr, Option.bind_some, (h.now.top _ r hr hp).1] at hx
      cases hx
    refine congrArg some ?_
    rw [hrt (hax ▸ hne), hax]
    exact h.rootCreatedAt hk hep hx hex
  depth := hdepth
  depth_le := hle

end Known

/-! ## Accepted messages -/

theorem bind_eq_ok {α β : Type} {x : Except String α} {f : α → Except String β} {b : β}
    (h : (x >>= f) = .ok b) : ∃ a, x = .ok a ∧ f a = .ok b := by
  cases x with
  | error msg => cases h
  | ok a => exact ⟨a, rfl, h⟩

theorem decodeId_eq_ok {hex error : String} {id : EventId}
    (h : decodeId hex error = .ok id) : Bytes32.ofHex hex = some id := by
  unfold decodeId at h
  cases hd : Bytes32.ofHex hex with
  | none => rw [hd] at h; cases h
  | some d => rw [hd] at h; cases h; rfl

section Accepted

variable {times : ReadTimes} {parentId : EventId} {channelId : Uuid}
  {visible : Event → Bool} {now : Int} {ep : EventRow} {event : Event}
  {params : Option ThreadMetadataParams}

/-- The ancestry either path computes, for a parent whose place is known. -/
structure Placed (s : ThreadRun) (times : ReadTimes) (parentId : EventId)
    (parentCreated : Int) (a : EventId × Int × Nat) : Prop where
  root : a.1 = s.store.rootFor parentId
  rootTime : a.1 ≠ parentId →
    a.2.1 = Relay.rootCreatedAt (times.reads s) a.1 parentCreated
  depth : a.2.2 = depthIn s.store.threads parentId + 1

theorem Sound.derived_placed (h : Sound s)
    (hk : s.ancestryKnown times parentId = true)
    (hep : s.store.events.lookup parentId = some ep)
    (hnone : (s.readAt times.parentMeta).getThreadMetadataByEvent parentId = none)
    (created : Int) :
    Placed s times parentId created
      (deriveAncestryFromParentTags (times.reads s) ep.event parentId created) := by
  obtain ⟨hm, hr, hd⟩ := h.ancestry_of_none hk hnone hep
  have heq : deriveAncestryFromParentTags (times.reads s) ep.event parentId created =
      (parentId, created, 1) := by
    unfold deriveAncestryFromParentTags
    simp only [hm, if_true]
  rw [heq]
  exact ⟨hr.symm, fun hne => absurd rfl hne, by rw [hd]⟩

theorem Sound.client_placed (h : Sound s)
    (hk : s.ancestryKnown times parentId = true)
    (hep : s.store.events.lookup parentId = some ep) {created : Int}
    {clientRoot : EventId} {a : EventId × Int × Nat}
    (ha : clientAncestry (times.reads s) ep.event parentId created clientRoot = .ok a) :
    Placed s times parentId created a ∧ a.2.2 ≤ maxThreadDepth := by
  unfold clientAncestry at ha
  rw [show (times.reads s).parentMeta = s.readAt times.parentMeta from rfl] at ha
  cases hmeta : (s.readAt times.parentMeta).getThreadMetadataByEvent parentId with
  | some r =>
      obtain ⟨hr, hd⟩ := h.ancestry_of_row hk hmeta
      rw [hmeta] at ha
      dsimp only at ha
      split at ha
      · cases ha
      · split at ha
        · cases ha
        · cases ha
          refine ⟨⟨hr, fun _ => rfl, by rw [← hd]⟩, ?_⟩
          dsimp only
          omega
  | none =>
      rw [hmeta] at ha
      dsimp only at ha
      split at ha
      · cases ha
      · cases ha
        have hp := h.derived_placed hk hep hmeta created
        obtain ⟨-, -, hd⟩ := h.ancestry_of_none hk hmeta hep
        refine ⟨hp, ?_⟩
        rw [hp.depth, hd]
        decide

theorem Sound.relay_placed (h : Sound s)
    (hk : s.ancestryKnown times parentId = true)
    (hep : s.store.events.lookup parentId = some ep) (created : Int) :
    Placed s times parentId created
      (relayAncestry (times.reads s) ep.event parentId created) := by
  unfold relayAncestry
  rw [show (times.reads s).parentMeta = s.readAt times.parentMeta from rfl]
  cases hmeta : (s.readAt times.parentMeta).getThreadMetadataByEvent parentId with
  | some r =>
      obtain ⟨hr, hd⟩ := h.ancestry_of_row hk hmeta
      refine ⟨hr, fun hne => ?_, by rw [← hd]⟩
      exact if_neg hne
  | none => exact h.derived_placed hk hep hmeta created

/-- A client's reply that is accepted, with known ancestry. -/
theorem Sound.resolveNip10 (h : Sound s) {rootHex parentHex : String}
    (hm : (parseThreadMarkers event.tags).resolve = some (rootHex, parentHex))
    (hr : resolveNip10ThreadMeta (times.reads s) event channelId visible now = .ok params)
    (hk : ∀ p, Bytes32.ofHex parentHex = some p → s.ancestryKnown times p = true)
    (ht : fromTimestamp (secsAsI64 event.createdAt) = some (secsAsI64 event.createdAt)) :
    ∃ parentId ep ps, params = some ps ∧ ps.parentEventId = some parentId ∧
      Resolved s.store event.id
        { event, channelId := some channelId, inReplyTo := some parentId } ep parentId
        ps := by
  unfold resolveNip10ThreadMeta at hr
  rw [hm] at hr
  obtain ⟨parentId, hp, hr⟩ := bind_eq_ok hr
  obtain ⟨⟨row, created⟩, hf, hr⟩ := bind_eq_ok hr
  obtain ⟨clientRoot, -, hr⟩ := bind_eq_ok hr
  obtain ⟨⟨root, rootCreated, depth⟩, ha, hr⟩ := bind_eq_ok hr
  cases hr
  obtain ⟨ep, hep, hev, rfl⟩ := h.findParent hf
  have hk := hk parentId (decodeId_eq_ok hp)
  rw [← hev] at ha
  obtain ⟨hpl, hle⟩ := h.client_placed hk hep ha
  refine ⟨parentId, ep, _, rfl, rfl, ?_⟩
  rw [ht]
  exact h.resolved hk hep rfl rfl rfl hpl.root hpl.rootTime hpl.depth hle channelId _ event.id

theorem Sound.resolveRelay (h : Sound s) {parentHex : String} {a : ReplyAncestry}
    (hr : resolveRelayReplyThreadMeta (times.reads s) parentHex channelId visible now = .ok a)
    (hk : ∀ p, Bytes32.ofHex parentHex = some p → s.ancestryKnown times p = true)
    (event : Event) :
    ∃ ep, Resolved s.store event.id
      { event, channelId := some channelId, inReplyTo := some a.parentEventId } ep
      a.parentEventId
      (a.intoThreadMeta event.id (secsAsI64 event.createdAt) channelId false) := by
  unfold resolveRelayReplyThreadMeta at hr
  obtain ⟨parentId, hp, hr⟩ := bind_eq_ok hr
  obtain ⟨⟨row, created⟩, hf, hr⟩ := bind_eq_ok hr
  obtain ⟨ep, hep, hev, rfl⟩ := h.findParent hf
  have hk := hk parentId (decodeId_eq_ok hp)
  have hpl := h.relay_placed hk hep (secsAsI64 ep.event.createdAt)
  rw [hev] at hpl
  dsimp only at hr
  split at hr
  · cases hr
  · next hle =>
      cases hr
      refine ⟨ep, ?_⟩
      rw [← hev] at hpl hle ⊢
      exact h.resolved hk hep rfl rfl rfl hpl.root hpl.rootTime hpl.depth
        (Nat.le_of_not_lt hle) channelId false event.id

/-- What the insert of an accepted message gets: nothing to place, a
top-level place, or a place that agrees with the store. -/
inductive Accepts (s : ThreadRun) (event : Event) (channelId : Uuid) :
    Option ThreadMetadataParams → Prop
  | unthreaded (hm : (parseThreadMarkers event.tags).resolve = none) :
      Accepts s event channelId none
  | topLevel (now : Int) : Accepts s event channelId (some (topLevelParams event channelId now))
  | reply (parentId : EventId) (ep : EventRow) (params : ThreadMetadataParams)
      (hp : params.parentEventId = some parentId)
      (hres : Resolved s.store event.id
        { event, channelId := some channelId, inReplyTo := some parentId } ep parentId params) :
      Accepts s event channelId (some params)

/-- The ancestry of an accepted reply is known. -/
def steady (s : ThreadRun) (m : ThreadMove) : Bool :=
  (s.accepted m).isNone || match m with
    | .ingest event _ _ _ times =>
        ((parseThreadMarkers event.tags).resolve.bind (Bytes32.ofHex ·.2)).all
          (s.ancestryKnown times)
    | .relay _ replyTo _ _ _ times =>
        (replyTo.bind Bytes32.ofHex).all (s.ancestryKnown times)
    | .delete _ _ _ => true

theorem Sound.accepts (h : Sound s) {m : ThreadMove} (hst : s.steady m = true)
    (ha : s.accepted m = some (event, channelId, params))
    (ht : fromTimestamp (secsAsI64 event.createdAt) = some (secsAsI64 event.createdAt)) :
    Accepts s event channelId params := by
  unfold steady at hst
  rw [ha, Option.isNone_some, Bool.false_or] at hst
  cases m with
  | ingest event' channelId' visible now times =>
      simp only [accepted] at ha
      split at ha
      · split at ha
        · next params' hr =>
            cases ha
            cases hm : (parseThreadMarkers event.tags).resolve with
            | none =>
                have : params = none := by
                  unfold resolveNip10ThreadMeta at hr
                  rw [hm] at hr
                  cases hr
                  rfl
                rw [this]
                exact .unthreaded hm
            | some pair =>
                obtain ⟨rootHex, parentHex⟩ := pair
                obtain ⟨parentId, ep, ps, rfl, hp, hres⟩ := h.resolveNip10 hm hr
                  (fun p hp => by simpa [hm, hp] using hst) ht
                exact .reply parentId ep ps hp hres
        · cases ha
      · cases ha
  | relay sign replyTo channelId' visible now times =>
      cases replyTo with
      | none =>
          cases ha
          exact .topLevel now
      | some parentHex =>
          simp only [accepted] at ha
          split at ha
          · next a hr =>
              cases ha
              obtain ⟨ep, hres⟩ := h.resolveRelay hr
                (fun p hp => by simpa [hp] using hst) (sign (some a))
              rw [ht]
              exact .reply a.parentEventId ep _ rfl hres
          · cases ha
  | delete => cases ha

theorem insertThreadMetadata_top {rows : List ThreadRow}
    (h : rowOf rows event.id = none) (channelId : Uuid) (now : Int) :
    insertThreadMetadata rows (topLevelParams event channelId now) =
      rows ++ [{ toThreadMetadataParams := topLevelParams event channelId now }] := by
  unfold insertThreadMetadata
  rw [insertThreadRow_of_none { toThreadMetadataParams := topLevelParams event channelId now } h]
  rfl

theorem Sound.insert (h : Sound s) {store : ThreadStore} {inserted : Bool}
    (hacc : fromTimestamp (secsAsI64 event.createdAt) = some (secsAsI64 event.createdAt) →
      Accepts s event channelId params)
    (hins : s.store.insertEventWithThreadMetadata event (some channelId) params =
      some (store, inserted)) : Sound (s.commit store) := by
  unfold insertEventWithThreadMetadata at hins
  split at hins
  · cases hins
  · split at hins
    · cases hins
    · cases hins
      exact h.commit h.now (Extends.refl _)
    · next t hts hid =>
        cases hins
        have htime : timestamptz (secsAsI64 event.createdAt) =
            some (secsAsI64 event.createdAt) := by
          have hts' := hts
          unfold timestamptz fromTimestamp at hts'
          split at hts'
          · rw [hts]
            simp only [Option.filter_some] at hts'
            split at hts'
            · exact hts'.symm
            · cases hts'
          · cases hts'
        have hft := fromTimestamp_of_timestamptz htime
        cases hacc hft with
        | unthreaded hm =>
            refine h.commit (h.now.insert_top hid rfl rfl htime h.now.nodup (fun _ _ => rfl)
              (fun _ => hm) fun r hr => ?_) (extends_insert hid (fun _ _ _ => rfl)
              fun _ _ _ => rfl)
            exact absurd (hr.symm.trans (h.now.rowOf_none hid)) (by simp)
        | topLevel now =>
            have hrow := h.now.rowOf_none hid
            have hrows := insertThreadMetadata_top hrow channelId now
            have hown : ∀ k, rowOf (insertThreadMetadata s.store.threads
                (topLevelParams event channelId now)) k = if k = event.id then
                some { toThreadMetadataParams := topLevelParams event channelId now }
                else rowOf s.store.threads k := fun k => by
              rw [hrows]
              exact rowOf_own hrow
            have hrest : ∀ k e', s.store.events.lookup k = some e' → k ≠ event.id := by
              rintro k e' he' rfl
              rw [hid] at he'
              cases he'
            refine h.commit (h.now.insert_top hid rfl rfl htime ?_ (fun k hk => ?_)
              (fun hnone => ?_) fun r hr => ?_) (extends_insert hid (fun k e' he' => ?_)
              fun k e' he' => ?_)
            · have := nodup_insertThreadRow
                { toThreadMetadataParams := topLevelParams event channelId now } h.now.nodup
                fun r hr => absurd (hr.symm.trans hrow) (by simp)
              rw [insertThreadRow_of_none _ hrow] at this
              show ((insertThreadMetadata s.store.threads _).map _).Nodup
              rw [hrows]
              exact this
            · exact (hown k).trans (if_neg hk)
            · exact absurd (((hown event.id).trans (if_pos rfl)).symm.trans hnone) (by simp)
            · have heq := ((hown event.id).trans (if_pos rfl)).symm.trans hr
              cases heq
              simp only [topLevelParams, hft]
              rfl
            · show rootIn (insertThreadMetadata s.store.threads _) k = _
              unfold rootIn
              rw [hown, if_neg (hrest k e' he')]
            · show depthIn (insertThreadMetadata s.store.threads _) k = _
              unfold depthIn
              rw [hown, if_neg (hrest k e' he')]
        | reply parentId ep params hp hres =>
            refine h.commit ?_ ?_
            · show Forest ⟨_, insertThreadMetadata s.store.threads params⟩
              rw [Option.bind_some, hp]
              exact h.now.insert_reply hid hres rfl htime
            · show Extends s.store ⟨_, insertThreadMetadata s.store.threads params⟩
              rw [Option.bind_some, hp]
              exact h.now.extends_reply hid hres

end Accepted

theorem Sound.delete (h : Sound s) {id : EventId} {targetTime metaTime : Nat}
    (hfound : ((s.readAt targetTime).events.lookup id).isSome)
    (hle : targetTime ≤ metaTime) :
    let row := (s.readAt metaTime).getThreadMetadataByEvent id
    Sound (s.commit (s.store.softDeleteEventAndUpdateThread id
      (row.bind (·.parentEventId)) (row.bind (·.rootEventId)))) := by
  intro row
  obtain ⟨e₀, he₀⟩ := Option.isSome_iff_exists.1 hfound
  obtain ⟨e₁, he₁, -, -⟩ := (h.readAt_le hle).event id e₀ he₀
  obtain ⟨e, he, -, hin⟩ := (h.readAt_store metaTime).event id e₁ he₁
  have hparent : row.bind (·.parentEventId) = e.inReplyTo := by
    rw [hin]
    exact (h.forest _ (readAt_mem metaTime)).parent_eq he₁
  have hroot : row.bind (·.rootEventId) = rootIn s.store.threads id :=
    ((h.readAt_store metaTime).rootIn id e₁ he₁).symm
  rw [hparent, hroot, softDelete_eq he]
  split
  · exact h.commit h.now (Extends.refl _)
  · next hlive =>
      have hlive : e.deleted = false := by
        simpa using fun hd => hlive (.inr hd)
      exact h.commit (h.now.delete he hlive) (h.now.extends_delete he)

theorem Sound.step (h : Sound s) {m : ThreadMove} (hst : s.steady m = true) :
    Sound (s.step m) := by
  unfold ThreadRun.step
  split
  · split
    · next hc => exact h.delete hc.1 hc.2
    · exact h
  · split
    · exact h
    · next ha =>
        split
        · exact h
        · next hins => exact h.insert (fun ht => h.accepts hst ha ht) hins

/-- Every step of the run is steady. -/
def allSteady (s : ThreadRun) : List ThreadMove → Bool
  | [] => true
  | m :: moves => s.steady m && allSteady (s.step m) moves

theorem Sound.foldl (h : Sound s) (moves : List ThreadMove)
    (hst : s.allSteady moves = true) : Sound (moves.foldl ThreadRun.step s) := by
  induction moves generalizing s with
  | nil => exact h
  | cons m moves ih =>
      simp only [allSteady, Bool.and_eq_true] at hst
      exact ih (h.step hst.1) hst.2

/-- Along a run in which the ancestry of every accepted reply is known, the
thread table is a forest with exact counters. -/
theorem threads_exact (moves : List ThreadMove)
    (hst : allSteady {} moves = true) :
    let s := (run moves).store
    (s.threads.map (·.eventId)).Nodup ∧
    (∀ id e parent, s.events.lookup id = some e → e.inReplyTo = some parent →
      ∃ r rp, s.getThreadMetadataByEvent id = some r ∧
        s.getThreadMetadataByEvent parent = some rp ∧ r.parentEventId = some parent ∧
        r.rootEventId = some (rp.rootEventId.getD parent) ∧ r.depth = rp.depth + 1 ∧
        r.depth ≤ 100) ∧
    (∀ id e r, s.events.lookup id = some e → e.inReplyTo = none →
      s.getThreadMetadataByEvent id = some r →
      r.parentEventId = none ∧ r.rootEventId = none ∧ r.depth = 0) ∧
    (∀ id, (s.getThreadMetadataByEvent id).elim 0 (·.replyCount) = s.liveReplies id) ∧
    (∀ id, (s.getThreadMetadataByEvent id).elim 0 (·.descendantCount) =
      s.liveDescendants id) := by
  intro s
  have h : Forest s := (sound_init.foldl moves hst).now
  refine ⟨h.nodup, fun id e parent he hp => ?_, fun id e r he hp hr => ?_, h.replies,
    h.descendants⟩
  · obtain ⟨r, rp, hr, hrp, hroot, hdepth, hle⟩ := h.reply id e parent he hp
    refine ⟨r, rp, hr, hrp, ?_, hroot, hdepth, hle⟩
    have hpar := h.parent_eq he
    rw [hr, hp] at hpar
    exact hpar
  · have hpar := h.parent_eq he
    rw [show rowOf s.threads id = some r from hr, hp] at hpar
    exact ⟨hpar, h.top id r hr hpar⟩

/-- A message of the given id and time, with its markers. -/
def sampleMessage (id : UInt8) (createdAt : UInt64) (tags : List Tag) : Event :=
  ⟨.ofByte id, .ofByte 0, createdAt, 9, tags⟩

def sampleReply (id : UInt8) (createdAt : UInt64) (root parent : UInt8) : Event :=
  sampleMessage id createdAt
    [⟨"e", [(Bytes32.ofByte root).toHex, "", "root"]⟩,
      ⟨"e", [(Bytes32.ofByte parent).toHex, "", "reply"]⟩]

/-- Accept a message, with all its lookups at one time. -/
def sampleIngest (event : Event) (time : Nat) : ThreadMove :=
  .ingest event (.ofByte 7) (fun _ => true) 0 ⟨time, time, time⟩

/-- A root, a reply to it and a reply to the reply, which is then deleted. -/
def nestedThenDeleted : List ThreadMove :=
  [sampleIngest (sampleMessage 1 100 []) 0, sampleIngest (sampleReply 2 200 1 1) 1,
    sampleIngest (sampleReply 3 300 1 2) 2, .delete (.ofByte 3) 3 3]

theorem threads_exact_nestedThenDeleted :
    allSteady {} nestedThenDeleted = true ∧
      ((run nestedThenDeleted).store.threads.map (·.eventId)).Nodup := by
  have hst : allSteady {} nestedThenDeleted = true := by decide +kernel
  exact ⟨hst, (threads_exact nestedThenDeleted hst).1⟩

/-- The root is deleted before the nested reply arrives. -/
def nestedAfterRootDeleted : List ThreadMove :=
  [sampleIngest (sampleMessage 1 100 []) 0, sampleIngest (sampleReply 2 200 1 1) 1,
    .delete (.ofByte 1) 2 2, sampleIngest (sampleReply 3 300 1 2) 3]

/-- The root now has two rows, which count two and one descendants. -/
theorem nestedAfterRootDeleted_two_rows :
    ((run nestedAfterRootDeleted).store.threads.filter
      (·.eventId = .ofByte 1)).map (fun r => (r.eventCreatedAt, r.descendantCount)) =
      [(100, 2), (200, 1)] ∧
    ¬((run nestedAfterRootDeleted).store.threads.map (·.eventId)).Nodup := by
  decide +kernel

end ThreadRun

end Buzz.Relay
