import Buzz.Proofs.ThreadRows
import Buzz.Relay.ThreadMeta

/-!
# Threads as a forest

`Forest` says what the tables hold when the counters are right: one row an
id, each reply under its parent and root, each counter the number of live
events it counts. The insert of a reply keeps it when the times it names for
its parent and root are theirs; the soft delete keeps it when the parent and
root it is given are those of the deleted event.

Reads run before the transaction and may see an older store. What they rely
on is that a stored event's place in its thread never changes, which is
`Extends`.
-/

namespace Buzz.Db

open Buzz.Core Buzz.Lib

namespace ThreadStore

variable {s t : ThreadStore} {id : EventId}

/-- The live replies to an event. -/
def liveReplies (s : ThreadStore) (id : EventId) : Nat :=
  HMap.sum s.events fun _ e => if e.deleted = false ∧ e.inReplyTo = some id then 1 else 0

def rootIn (rows : List ThreadRow) (id : EventId) : Option EventId :=
  (rowOf rows id).bind (·.rootEventId)

/-- The live events of the thread an event is the root of. -/
def liveDescendants (s : ThreadStore) (id : EventId) : Nat :=
  HMap.sum s.events fun k e =>
    if e.deleted = false ∧ rootIn s.threads k = some id then 1 else 0

/-- The depth of an event; a message without a row is top-level. -/
def depthIn (rows : List ThreadRow) (id : EventId) : Nat := (rowOf rows id).elim 0 (·.depth)

structure Forest (s : ThreadStore) : Prop where
  nodup : (s.threads.map (·.eventId)).Nodup
  /-- A row belongs to a stored event, under the event's own time. -/
  placed : ∀ id r, rowOf s.threads id = some r → ∃ e, s.events.lookup id = some e ∧
    r.eventCreatedAt = secsAsI64 e.event.createdAt ∧ r.parentEventId = e.inReplyTo
  /-- A reply has a row, one level below its parent. -/
  reply : ∀ id e p, s.events.lookup id = some e → e.inReplyTo = some p →
    ∃ r rp, rowOf s.threads id = some r ∧ rowOf s.threads p = some rp ∧
      r.rootEventId = some (rp.rootEventId.getD p) ∧ r.depth = rp.depth + 1 ∧
      r.depth ≤ Relay.maxThreadDepth
  top : ∀ id r, rowOf s.threads id = some r → r.parentEventId = none →
    r.rootEventId = none ∧ r.depth = 0
  /-- A root is a top-level event with a row. -/
  root : ∀ id x, rootIn s.threads id = some x →
    ∃ r, rowOf s.threads x = some r ∧ r.parentEventId = none
  unmarked : ∀ id e, s.events.lookup id = some e → rowOf s.threads id = none →
    (parseThreadMarkers e.event.tags).resolve = none
  time : ∀ id e, s.events.lookup id = some e →
    timestamptz (secsAsI64 e.event.createdAt) = some (secsAsI64 e.event.createdAt)
  replies : ∀ id, (rowOf s.threads id).elim 0 (·.replyCount) = s.liveReplies id
  descendants : ∀ id, (rowOf s.threads id).elim 0 (·.descendantCount) =
    s.liveDescendants id

theorem forest_empty : Forest {} where
  nodup := List.nodup_nil
  placed _ _ h := nomatch h
  reply _ _ _ h := nomatch h
  top _ _ h := nomatch h
  root _ _ h := nomatch h
  unmarked _ _ h := nomatch h
  time _ _ h := nomatch h
  replies _ := rfl
  descendants _ := rfl

/-- A stored event stays, in its place. -/
structure Extends (s t : ThreadStore) : Prop where
  event : ∀ id e, s.events.lookup id = some e →
    ∃ e', t.events.lookup id = some e' ∧ e'.event = e.event ∧ e'.inReplyTo = e.inReplyTo
  rootIn : ∀ id e, s.events.lookup id = some e →
    ThreadStore.rootIn t.threads id = ThreadStore.rootIn s.threads id
  depthIn : ∀ id e, s.events.lookup id = some e →
    ThreadStore.depthIn t.threads id = ThreadStore.depthIn s.threads id

theorem Extends.refl (s : ThreadStore) : Extends s s :=
  ⟨fun _ e h => ⟨e, h, rfl, rfl⟩, fun _ _ _ => rfl, fun _ _ _ => rfl⟩

theorem Extends.trans {u : ThreadStore} (h₁ : Extends s t) (h₂ : Extends t u) :
    Extends s u where
  event id e he := by
    obtain ⟨e₁, h, hev, hp⟩ := h₁.event id e he
    obtain ⟨e₂, h, hev', hp'⟩ := h₂.event id e₁ h
    exact ⟨e₂, h, hev'.trans hev, hp'.trans hp⟩
  rootIn id e he := by
    obtain ⟨e₁, h, -, -⟩ := h₁.event id e he
    exact (h₂.rootIn id e₁ h).trans (h₁.rootIn id e he)
  depthIn id e he := by
    obtain ⟨e₁, h, -, -⟩ := h₁.event id e he
    exact (h₂.depthIn id e₁ h).trans (h₁.depthIn id e he)

namespace Forest

variable (h : Forest s)
include h

theorem rowOf_none (hid : s.events.lookup id = none) : rowOf s.threads id = none := by
  cases hr : rowOf s.threads id with
  | none => rfl
  | some r =>
      obtain ⟨e, he, -⟩ := h.placed id r hr
      rw [hid] at he
      cases he

/-- A stored event's row names the parent it was accepted with. -/
theorem parent_eq {e : EventRow} (he : s.events.lookup id = some e) :
    (rowOf s.threads id).bind (·.parentEventId) = e.inReplyTo := by
  cases hr : rowOf s.threads id with
  | none =>
      cases hp : e.inReplyTo with
      | none => rfl
      | some p =>
          obtain ⟨r, -, hrow, -⟩ := h.reply id e p he hp
          rw [hr] at hrow
          cases hrow
  | some r =>
      obtain ⟨e', he', -, hp⟩ := h.placed id r hr
      rw [he] at he'
      cases he'
      exact hp

theorem rootIn_of_top {e : EventRow} (he : s.events.lookup id = some e)
    (hp : e.inReplyTo = none) : rootIn s.threads id = none ∧ depthIn s.threads id = 0 := by
  have hpar := h.parent_eq he
  unfold rootIn depthIn
  cases hr : rowOf s.threads id with
  | none => exact ⟨rfl, rfl⟩
  | some r =>
      rw [hr, hp] at hpar
      exact h.top id r hr hpar

/-- An event nobody stored has no replies and no thread. -/
theorem live_zero (hid : s.events.lookup id = none) :
    s.liveReplies id = 0 ∧ s.liveDescendants id = 0 := by
  have hrow := h.rowOf_none hid
  have hr := h.replies id
  have hd := h.descendants id
  rw [hrow] at hr hd
  exact ⟨hr.symm, hd.symm⟩

end Forest

/-! ## Inserting -/

variable {e : EventRow} {rows : List ThreadRow}

theorem liveReplies_insert (hid : s.events.lookup id = none) (hlive : e.deleted = false)
    (k : EventId) :
    liveReplies ⟨s.events.insert id e, rows⟩ k =
      s.liveReplies k + if e.inReplyTo = some k then 1 else 0 := by
  unfold liveReplies
  rw [HMap.sum_insert_of_none hid]
  simp only [hlive, true_and]

theorem liveDescendants_insert (hid : s.events.lookup id = none)
    (hlive : e.deleted = false)
    (hroot : ∀ k e', s.events.lookup k = some e' → rootIn rows k = rootIn s.threads k)
    (k : EventId) :
    liveDescendants ⟨s.events.insert id e, rows⟩ k =
      s.liveDescendants k + if rootIn rows id = some k then 1 else 0 := by
  unfold liveDescendants
  rw [HMap.sum_insert_of_none hid]
  simp only [hlive, true_and]
  congr 1
  refine HMap.sum_congr fun k' e' he' => ?_
  rw [hroot k' e' he']

/-- Storing a message keeps every stored event in its place, when the rows
do. -/
theorem extends_insert (hid : s.events.lookup id = none)
    (hroot : ∀ k e', s.events.lookup k = some e' → rootIn rows k = rootIn s.threads k)
    (hdepth : ∀ k e', s.events.lookup k = some e' → depthIn rows k = depthIn s.threads k) :
    Extends s ⟨s.events.insert id e, rows⟩ where
  event k e' he' := by
    refine ⟨e', ?_, rfl, rfl⟩
    have hk : k ≠ id := fun heq => by
      rw [heq, hid] at he'
      cases he'
    rw [HMap.lookup_insert_ite, if_neg hk]
    exact he'
  rootIn := hroot
  depthIn := hdepth

theorem ne_of_lookup {k : EventId} {e' : EventRow}
    (hid : s.events.lookup id = none) (he' : s.events.lookup k = some e') :
    k ≠ id := by
  rintro rfl
  rw [hid] at he'
  cases he'

theorem Forest.time_insert (h : Forest s)
    (htime : timestamptz (secsAsI64 e.event.createdAt) =
      some (secsAsI64 e.event.createdAt))
    (k : EventId) (e' : EventRow) (he' : (s.events.insert id e).lookup k = some e') :
    timestamptz (secsAsI64 e'.event.createdAt) =
      some (secsAsI64 e'.event.createdAt) := by
  rcases HMap.lookup_insert_cases he' with ⟨rfl, rfl⟩ | ⟨-, he'⟩
  · exact htime
  · exact h.time k e' he'

/-! ## Rows that keep their places -/

/-- Two rows at one place of a thread: only their counts can differ. -/
structure SamePlace (r r' : ThreadRow) : Prop where
  parentEventId : r'.parentEventId = r.parentEventId
  rootEventId : r'.rootEventId = r.rootEventId
  depth : r'.depth = r.depth

/-- Every row of `old` is in `new`, at its place. -/
def KeepsPlaces (old new : List ThreadRow) : Prop :=
  ∀ k r, rowOf old k = some r → ∃ r', rowOf new k = some r' ∧ SamePlace r r'

theorem Forest.reply_of_keeps (h : Forest s) (hrows : KeepsPlaces s.threads rows)
    {k p : EventId} {e' : EventRow} (he' : s.events.lookup k = some e')
    (hp : e'.inReplyTo = some p) :
    ∃ r rp, rowOf rows k = some r ∧ rowOf rows p = some rp ∧
      r.rootEventId = some (rp.rootEventId.getD p) ∧ r.depth = rp.depth + 1 ∧
      r.depth ≤ Relay.maxThreadDepth := by
  obtain ⟨r, rp, hr, hrp, hroot, hdepth, hle⟩ := h.reply k e' p he' hp
  obtain ⟨r', hr', hplace⟩ := hrows k r hr
  obtain ⟨rp', hrp', hplace'⟩ := hrows p rp hrp
  refine ⟨r', rp', hr', hrp', ?_, ?_, ?_⟩
  · rw [hplace.rootEventId, hplace'.rootEventId]
    exact hroot
  · rw [hplace.depth, hplace'.depth]
    exact hdepth
  · rw [hplace.depth]
    exact hle

theorem Forest.root_of_keeps (h : Forest s) (hrows : KeepsPlaces s.threads rows)
    {k x : EventId} (hx : rootIn s.threads k = some x) :
    ∃ r, rowOf rows x = some r ∧ r.parentEventId = none := by
  obtain ⟨r, hr, hp⟩ := h.root k x hx
  obtain ⟨r', hr', hplace⟩ := hrows x r hr
  exact ⟨r', hr', hplace.parentEventId.trans hp⟩

/-! ## A top-level message -/

section Top

variable (h : Forest s) (hid : s.events.lookup id = none) (htop : e.inReplyTo = none)
  (hrest : ∀ k, k ≠ id → rowOf rows k = rowOf s.threads k)
  (hsome : ∀ r, rowOf rows id = some r →
    r = { stubRow (secsAsI64 e.event.createdAt) id r.channelId with
      broadcast := r.broadcast })

include h hid hrest in
theorem Forest.keepsPlaces_top : KeepsPlaces s.threads rows := by
  intro k r hr
  obtain ⟨e', he', -⟩ := h.placed k r hr
  exact ⟨r, (hrest k (ne_of_lookup hid he')).trans hr, rfl, rfl, rfl⟩

include hsome in
/-- The row of the message, if it has one, stands for itself alone. -/
theorem own_row {r : ThreadRow} (hr : rowOf rows id = some r) :
    r.eventCreatedAt = secsAsI64 e.event.createdAt ∧ r.parentEventId = none ∧
      r.rootEventId = none ∧ r.depth = 0 ∧ r.replyCount = 0 ∧
      r.descendantCount = 0 := by
  rw [hsome r hr]
  exact ⟨rfl, rfl, rfl, rfl, rfl, rfl⟩

include hsome in
theorem rootIn_top : rootIn rows id = none := by
  unfold rootIn
  cases hr : rowOf rows id with
  | none => rfl
  | some r => exact (own_row hsome hr).2.2.1

include h htop hrest hsome in
theorem Forest.placed_top (k : EventId) (r : ThreadRow) (hr : rowOf rows k = some r) :
    ∃ e', (s.events.insert id e).lookup k = some e' ∧
      r.eventCreatedAt = secsAsI64 e'.event.createdAt ∧
      r.parentEventId = e'.inReplyTo := by
  by_cases hk : k = id
  · subst hk
    obtain ⟨ht, hp, -⟩ := own_row hsome hr
    refine ⟨e, ?_, ht, hp.trans htop.symm⟩
    rw [HMap.lookup_insert_ite, if_pos rfl]
  · obtain ⟨e', he', h'⟩ := h.placed k r (hrest k hk ▸ hr)
    refine ⟨e', ?_, h'⟩
    rw [HMap.lookup_insert_ite, if_neg hk]
    exact he'

/-- Storing a top-level message, with a row of its own or without. -/
theorem Forest.insert_top (h : Forest s) (hid : s.events.lookup id = none)
    (hlive : e.deleted = false) (htop : e.inReplyTo = none)
    (htime : timestamptz (secsAsI64 e.event.createdAt) =
      some (secsAsI64 e.event.createdAt))
    (hnd : (rows.map (·.eventId)).Nodup)
    (hrest : ∀ k, k ≠ id → rowOf rows k = rowOf s.threads k)
    (hnone : rowOf rows id = none → (parseThreadMarkers e.event.tags).resolve = none)
    (hsome : ∀ r, rowOf rows id = some r →
      r = { stubRow (secsAsI64 e.event.createdAt) id r.channelId with
        broadcast := r.broadcast }) :
    Forest ⟨s.events.insert id e, rows⟩ where
  nodup := hnd
  placed := h.placed_top htop hrest hsome
  reply k e' p he' hp := by
    rcases HMap.lookup_insert_cases he' with ⟨rfl, rfl⟩ | ⟨-, he'⟩
    · rw [htop] at hp
      cases hp
    · exact h.reply_of_keeps (h.keepsPlaces_top hid hrest) he' hp
  top k r hr hp := by
    by_cases hk : k = id
    · subst hk
      exact ⟨(own_row hsome hr).2.2.1, (own_row hsome hr).2.2.2.1⟩
    · exact h.top k r (hrest k hk ▸ hr) hp
  root k x hx := by
    by_cases hk : k = id
    · subst hk
      rw [rootIn_top hsome] at hx
      cases hx
    · unfold rootIn at hx
      rw [hrest k hk] at hx
      exact h.root_of_keeps (h.keepsPlaces_top hid hrest) hx
  unmarked k e' he' hr := by
    rcases HMap.lookup_insert_cases he' with ⟨rfl, rfl⟩ | ⟨hk, he'⟩
    · exact hnone hr
    · exact h.unmarked k e' he' (hrest k hk ▸ hr)
  time := h.time_insert htime
  replies k := by
    rw [liveReplies_insert hid hlive, htop]
    by_cases hk : k = id
    · subst hk
      rw [(h.live_zero hid).1]
      cases hr : rowOf rows k with
      | none => rfl
      | some r => exact (own_row hsome hr).2.2.2.2.1
    · rw [show rowOf rows k = _ from hrest k hk, h.replies k]
      simp
  descendants k := by
    have hroot : ∀ k e', s.events.lookup k = some e' →
        rootIn rows k = rootIn s.threads k := by
      intro k e' he'
      unfold rootIn
      rw [hrest k (ne_of_lookup hid he')]
    rw [liveDescendants_insert hid hlive hroot, rootIn_top hsome]
    by_cases hk : k = id
    · subst hk
      rw [(h.live_zero hid).2]
      cases hr : rowOf rows k with
      | none => rfl
      | some r => exact (own_row hsome hr).2.2.2.2.2
    · rw [show rowOf rows k = _ from hrest k hk, h.descendants k]
      simp

end Top

/-! ## A reply -/

/-- The root of a reply to `parent`. -/
def rootFor (s : ThreadStore) (parent : EventId) : EventId :=
  (rootIn s.threads parent).getD parent

/-- The parameters of a reply agree with the store it is inserted into. -/
structure Resolved (s : ThreadStore) (id : EventId) (e ep : EventRow) (parent : EventId)
    (params : ThreadMetadataParams) : Prop where
  stored : s.events.lookup parent = some ep
  inReplyTo : e.inReplyTo = some parent
  eventId : params.eventId = id
  eventCreatedAt : params.eventCreatedAt = secsAsI64 e.event.createdAt
  parentEventId : params.parentEventId = some parent
  parentEventCreatedAt : params.parentEventCreatedAt = some (secsAsI64 ep.event.createdAt)
  rootEventId : params.rootEventId = some (s.rootFor parent)
  rootEventCreatedAt : ∀ x ex, rootIn s.threads parent = some x →
    s.events.lookup x = some ex →
    params.rootEventCreatedAt = some (secsAsI64 ex.event.createdAt)
  depth : params.depth = depthIn s.threads parent + 1
  depth_le : params.depth ≤ Relay.maxThreadDepth

section Reply

variable {ep : EventRow} {parent : EventId} {params : ThreadMetadataParams}

/-- The row a reply's parent has from now on. -/
def parentRow (s : ThreadStore) (params : ThreadMetadataParams) (parent : EventId) :
    ThreadRow :=
  (rowOf s.threads parent).getD (stubRow
    (params.parentEventCreatedAt.getD params.eventCreatedAt) parent params.channelId)

theorem parentRow_rootEventId :
    (s.parentRow params parent).rootEventId = rootIn s.threads parent := by
  unfold parentRow rootIn
  cases rowOf s.threads parent <;> rfl

theorem parentRow_depth : (s.parentRow params parent).depth = depthIn s.threads parent := by
  unfold parentRow depthIn
  cases rowOf s.threads parent <;> rfl

variable (h : Forest s) (hid : s.events.lookup id = none)
  (hres : Resolved s id e ep parent params)
include h hid hres

theorem Forest.placeable : Placeable s.threads params parent (s.rootFor parent) := by
  have hne : ∀ {k e'}, s.events.lookup k = some e' → id ≠ k := fun he' =>
    (ne_of_lookup hid he').symm
  have hrootrow : ∀ x, rootIn s.threads parent = some x →
      ∃ r ex, rowOf s.threads x = some r ∧ s.events.lookup x = some ex ∧
        r.eventCreatedAt = secsAsI64 ex.event.createdAt := by
    intro x hx
    obtain ⟨r, hr, -⟩ := h.root parent x hx
    obtain ⟨ex, hex, ht, -⟩ := h.placed x r hr
    exact ⟨r, ex, hr, hex, ht⟩
  refine ⟨hres.parentEventId, hres.rootEventId, ?_, ?_, ?_, ?_, ?_⟩
  · rw [hres.eventId]; exact h.rowOf_none hid
  · rw [hres.eventId]; exact hne hres.stored
  · rw [hres.eventId]
    unfold rootFor
    cases hx : rootIn s.threads parent with
    | none => exact hne hres.stored
    | some x =>
        obtain ⟨r, ex, -, hex, -⟩ := hrootrow x hx
        exact hne hex
  · intro r hr
    obtain ⟨e', he', ht, -⟩ := h.placed parent r hr
    rw [hres.stored] at he'
    cases he'
    rw [ht, hres.parentEventCreatedAt]
    rfl
  · unfold rootFor
    cases hx : rootIn s.threads parent with
    | none => intro hne'; exact absurd rfl hne'
    | some x =>
        intro _
        obtain ⟨r, ex, hr, hex, ht⟩ := hrootrow x hx
        refine ⟨r, hr, ?_⟩
        rw [ht, hres.rootEventCreatedAt x ex hx hex]
        rfl

/-- The rows after a reply: its own, and its parent's and everyone else's
with the new counts. -/
theorem Forest.rowOf_reply (k : EventId) :
    rowOf (insertThreadMetadata s.threads params) k =
      if k = id then some { toThreadMetadataParams := params }
      else (if k = parent then some (s.parentRow params parent)
        else rowOf s.threads k).map (bumped parent (s.rootFor parent) k) := by
  rw [(h.placeable hid hres).rowOf_insert, hres.eventId]
  rfl

theorem Forest.rootIn_reply (k : EventId) :
    rootIn (insertThreadMetadata s.threads params) k =
      if k = id then some (s.rootFor parent) else rootIn s.threads k := by
  unfold rootIn
  rw [h.rowOf_reply hid hres]
  split
  · exact hres.rootEventId
  · split
    · next hk =>
        subst hk
        rw [Option.map_some, Option.bind_some, bumped_rootEventId, parentRow_rootEventId]
        rfl
    · cases rowOf s.threads k <;> simp

theorem Forest.depthIn_reply {k : EventId} (hk : k ≠ id) :
    depthIn (insertThreadMetadata s.threads params) k = depthIn s.threads k := by
  unfold depthIn
  rw [h.rowOf_reply hid hres, if_neg hk]
  split
  · next hk =>
      subst hk
      rw [Option.map_some, Option.elim_some, bumped_depth, parentRow_depth]
      rfl
  · cases rowOf s.threads k <;> simp

/-- A reply adds one to its parent's replies and to its root's
descendants. -/
theorem Forest.counts_reply {k : EventId} (hk : k ≠ id) :
    (rowOf (insertThreadMetadata s.threads params) k).elim 0 (·.replyCount) =
      (rowOf s.threads k).elim 0 (·.replyCount) + (if some parent = some k then 1 else 0) ∧
    (rowOf (insertThreadMetadata s.threads params) k).elim 0 (·.descendantCount) =
      (rowOf s.threads k).elim 0 (·.descendantCount) +
        (if some (s.rootFor parent) = some k then 1 else 0) := by
  rw [h.rowOf_reply hid hres, if_neg hk]
  by_cases hkp : k = parent
  · subst hkp
    rw [if_pos rfl, Option.map_some]
    simp only [Option.elim_some, bumped_replyCount, bumped_descendantCount,
      Option.some.injEq, eq_comm (a := k)]
    unfold parentRow
    cases rowOf s.threads k <;> exact ⟨rfl, rfl⟩
  · rw [if_neg hkp]
    cases hr : rowOf s.threads k with
    | none =>
        have hkr : s.rootFor parent ≠ k := by
          rintro rfl
          obtain ⟨r, hr', -⟩ := (h.placeable hid hres).rootRow hkp
          rw [hr] at hr'
          cases hr'
        simp [Ne.symm hkp, hkr]
    | some r => simp [hkp, Ne.symm hkp, eq_comm (a := k)]

/-- A row of the old store, with its counts brought up to date. -/
theorem Forest.rowOf_reply_old {k : EventId} {r : ThreadRow}
    (hr : rowOf s.threads k = some r) :
    rowOf (insertThreadMetadata s.threads params) k =
      some (bumped parent (s.rootFor parent) k r) := by
  obtain ⟨e', he', -⟩ := h.placed k r hr
  rw [h.rowOf_reply hid hres, if_neg (ne_of_lookup hid he')]
  split
  · next hk =>
      subst hk
      simp [parentRow, hr]
  · rw [hr]
    rfl

theorem Forest.keepsPlaces_reply :
    KeepsPlaces s.threads (insertThreadMetadata s.threads params) := by
  intro k r hr
  refine ⟨_, h.rowOf_reply_old hid hres hr, ?_, ?_, ?_⟩ <;> simp

theorem Forest.rowOf_reply_parent :
    rowOf (insertThreadMetadata s.threads params) parent =
      some (bumped parent (s.rootFor parent) parent (s.parentRow params parent)) := by
  rw [h.rowOf_reply hid hres, if_neg (ne_of_lookup hid hres.stored), if_pos rfl]
  rfl

omit hid in
theorem Forest.parentRow_place :
    (s.parentRow params parent).eventCreatedAt = secsAsI64 ep.event.createdAt ∧
      (s.parentRow params parent).parentEventId = ep.inReplyTo := by
  unfold parentRow
  cases hr : rowOf s.threads parent with
  | none =>
      have hp := h.parent_eq hres.stored
      rw [hr] at hp
      rw [hres.parentEventCreatedAt]
      exact ⟨rfl, hp⟩
  | some r =>
      obtain ⟨e', he', ht, hp⟩ := h.placed parent r hr
      rw [hres.stored] at he'
      cases he'
      exact ⟨ht, hp⟩

omit hid in
theorem Forest.parent_top (hx : rootIn s.threads parent = none) :
    ep.inReplyTo = none := by
  cases hp : ep.inReplyTo with
  | none => rfl
  | some q =>
      obtain ⟨r, rp, hr, -, hr', -⟩ := h.reply parent ep q hres.stored hp
      rw [rootIn, hr, Option.bind_some, hr'] at hx
      cases hx

theorem Forest.placed_reply (k : EventId) (r : ThreadRow)
    (hr : rowOf (insertThreadMetadata s.threads params) k = some r) :
    ∃ e', (s.events.insert id e).lookup k = some e' ∧
      r.eventCreatedAt = secsAsI64 e'.event.createdAt ∧
      r.parentEventId = e'.inReplyTo := by
  rw [h.rowOf_reply hid hres] at hr
  split at hr
  · next hk =>
      subst hk
      cases hr
      refine ⟨e, ?_, hres.eventCreatedAt,
        hres.parentEventId.trans hres.inReplyTo.symm⟩
      rw [HMap.lookup_insert_ite, if_pos rfl]
  · next hk =>
      have hlook : ∀ {e'}, s.events.lookup k = some e' →
          (s.events.insert id e).lookup k = some e' := by
        intro e' he'
        rw [HMap.lookup_insert_ite, if_neg hk]
        exact he'
      split at hr
      · next hkp =>
          subst hkp
          cases hr
          have hplace := h.parentRow_place hres
          exact ⟨ep, hlook hres.stored, by simpa using hplace.1,
            by simpa using hplace.2⟩
      · obtain ⟨r₀, hr₀, rfl⟩ := Option.map_eq_some_iff.1 hr
        obtain ⟨e', he', ht, hp⟩ := h.placed k r₀ hr₀
        exact ⟨e', hlook he', by simpa using ht, by simpa using hp⟩

/-- The reply itself is one level below its parent. -/
theorem Forest.reply_reply :
    ∃ r rp, rowOf (insertThreadMetadata s.threads params) id = some r ∧
      rowOf (insertThreadMetadata s.threads params) parent = some rp ∧
      r.rootEventId = some (rp.rootEventId.getD parent) ∧ r.depth = rp.depth + 1 ∧
      r.depth ≤ Relay.maxThreadDepth := by
  refine ⟨_, _, by rw [h.rowOf_reply hid hres, if_pos rfl],
    h.rowOf_reply_parent hid hres, ?_, ?_, hres.depth_le⟩
  · rw [bumped_rootEventId, parentRow_rootEventId]
    exact hres.rootEventId
  · rw [bumped_depth, parentRow_depth]
    exact hres.depth

theorem Forest.top_reply (k : EventId) (r : ThreadRow)
    (hr : rowOf (insertThreadMetadata s.threads params) k = some r)
    (hp : r.parentEventId = none) : r.rootEventId = none ∧ r.depth = 0 := by
  rw [h.rowOf_reply hid hres] at hr
  split at hr
  · cases hr
    exact absurd (hres.parentEventId.symm.trans hp) (by simp)
  · split at hr
    · next hkp =>
        subst hkp
        cases hr
        rw [bumped_parentEventId, (h.parentRow_place hres).2] at hp
        rw [bumped_rootEventId, bumped_depth, parentRow_rootEventId, parentRow_depth]
        exact h.rootIn_of_top hres.stored hp
    · obtain ⟨r₀, hr₀, rfl⟩ := Option.map_eq_some_iff.1 hr
      simpa using h.top k r₀ hr₀ (by simpa using hp)

theorem Forest.root_reply (k x : EventId)
    (hx : rootIn (insertThreadMetadata s.threads params) k = some x) :
    ∃ r, rowOf (insertThreadMetadata s.threads params) x = some r ∧
      r.parentEventId = none := by
  have hkeeps := h.keepsPlaces_reply hid hres
  rw [h.rootIn_reply hid hres] at hx
  split at hx
  · cases hx
    unfold rootFor
    cases hx : rootIn s.threads parent with
    | none =>
        rw [Option.getD_none]
        refine ⟨_, h.rowOf_reply_parent hid hres, ?_⟩
        rw [bumped_parentEventId, (h.parentRow_place hres).2]
        exact h.parent_top hres hx
    | some x => exact h.root_of_keeps hkeeps hx
  · exact h.root_of_keeps hkeeps hx

theorem Forest.unmarked_reply (k : EventId) (e' : EventRow)
    (he' : (s.events.insert id e).lookup k = some e')
    (hr : rowOf (insertThreadMetadata s.threads params) k = none) :
    (parseThreadMarkers e'.event.tags).resolve = none := by
  rw [h.rowOf_reply hid hres] at hr
  rcases HMap.lookup_insert_cases he' with ⟨rfl, -⟩ | ⟨hk, he'⟩
  · rw [if_pos rfl] at hr
    cases hr
  · rw [if_neg hk] at hr
    split at hr
    · cases hr
    · exact h.unmarked k e' he' (Option.map_eq_none_iff.1 hr)

/-- Storing a reply whose parameters agree with the store. -/
theorem Forest.insert_reply (hlive : e.deleted = false)
    (htime : timestamptz (secsAsI64 e.event.createdAt) =
      some (secsAsI64 e.event.createdAt)) :
    Forest ⟨s.events.insert id e, insertThreadMetadata s.threads params⟩ where
  nodup := (h.placeable hid hres).nodup h.nodup
  placed := h.placed_reply hid hres
  reply k e' q he' hq := by
    rcases HMap.lookup_insert_cases he' with ⟨rfl, rfl⟩ | ⟨-, he'⟩
    · rw [hres.inReplyTo] at hq
      cases hq
      exact h.reply_reply hid hres
    · exact h.reply_of_keeps (h.keepsPlaces_reply hid hres) he' hq
  top := h.top_reply hid hres
  root := h.root_reply hid hres
  unmarked := h.unmarked_reply hid hres
  time := h.time_insert htime
  replies k := by
    rw [liveReplies_insert hid hlive, hres.inReplyTo]
    by_cases hk : k = id
    · subst hk
      dsimp only
      rw [h.rowOf_reply hid hres, if_pos rfl, (h.live_zero hid).1]
      simp [ne_of_lookup hid hres.stored]
    · rw [← h.replies k]
      exact (h.counts_reply hid hres hk).1
  descendants k := by
    have hroot := h.rootIn_reply hid hres
    have hsame : ∀ k e', s.events.lookup k = some e' →
        rootIn (insertThreadMetadata s.threads params) k = rootIn s.threads k := by
      intro k e' he'
      rw [hroot, if_neg (ne_of_lookup hid he')]
    rw [liveDescendants_insert hid hlive hsame, hroot, if_pos rfl]
    by_cases hk : k = id
    · subst hk
      dsimp only
      rw [h.rowOf_reply hid hres, if_pos rfl, (h.live_zero hid).2]
      have hrid : s.rootFor parent ≠ k := fun heq =>
        (h.placeable hid hres).neRoot (hres.eventId.trans heq.symm)
      simp [hrid]
    · rw [← h.descendants k]
      exact (h.counts_reply hid hres hk).2

theorem Forest.extends_reply :
    Extends s ⟨s.events.insert id e, insertThreadMetadata s.threads params⟩ := by
  refine extends_insert hid (fun k e' he' => ?_) fun k e' he' => ?_
  · rw [h.rootIn_reply hid hres, if_neg (ne_of_lookup hid he')]
  · exact h.depthIn_reply hid hres (ne_of_lookup hid he')

end Reply

/-! ## Deleting -/

/-- The counters a deleted reply takes from the row of `k`. -/
def dropped (parent root : Option EventId) (k : EventId) (r : ThreadRow) : ThreadRow :=
  { r with
    replyCount := r.replyCount - if parent = some k then 1 else 0
    descendantCount := r.descendantCount - if root = some k then 1 else 0 }

/-- The update half of the soft delete. -/
def dropRows (rows : List ThreadRow) (parent root : Option EventId) : List ThreadRow :=
  match parent with
  | some parentId =>
      let rows := updateThreadRows rows parentId dropReply
      match root with
      | some rootId => updateThreadRows rows rootId dropDescendant
      | none => rows
  | none => rows

theorem softDelete_eq (he : s.events.lookup id = some e) (parent root : Option EventId) :
    s.softDeleteEventAndUpdateThread id parent root =
      if e.event.kind.toNat = kindArtifactRemoval ∨ e.deleted then s
      else ⟨s.events.insert id { e with deleted := true }, dropRows s.threads parent root⟩ := by
  unfold softDeleteEventAndUpdateThread
  rw [he]
  rfl

theorem rowOf_dropRows {parent root : Option EventId} (hpr : parent = none → root = none)
    (k : EventId) :
    rowOf (dropRows rows parent root) k = (rowOf rows k).map (dropped parent root k) := by
  unfold dropRows
  cases parent with
  | none =>
      rw [hpr rfl]
      cases rowOf rows k <;> rfl
  | some p =>
      cases root with
      | none =>
          rw [rowOf_update dropReply fun _ => rfl]
          cases rowOf rows k with
          | none => rfl
          | some r =>
              simp only [Option.map_some, dropped, eq_comm (a := k)]
              split <;> simp_all [dropReply]
      | some x =>
          rw [rowOf_update dropDescendant fun _ => rfl, rowOf_update dropReply fun _ => rfl]
          cases rowOf rows k with
          | none => rfl
          | some r =>
              simp only [Option.map_some, dropped, eq_comm (a := k)]
              split <;> split <;> simp_all [dropReply, dropDescendant]

theorem map_eventId_dropRows (parent root : Option EventId) :
    (dropRows rows parent root).map (·.eventId) = rows.map (·.eventId) := by
  unfold dropRows
  split
  · split
    · rw [map_eventId_update dropDescendant fun _ => rfl,
        map_eventId_update dropReply fun _ => rfl]
    · exact map_eventId_update dropReply fun _ => rfl
  · rfl

theorem rootIn_dropRows {parent root : Option EventId} (hpr : parent = none → root = none)
    (k : EventId) : rootIn (dropRows rows parent root) k = rootIn rows k := by
  unfold rootIn
  rw [rowOf_dropRows hpr]
  cases rowOf rows k <;> rfl

/-- A counter that loses what the sum it counts loses. -/
theorem elim_map_sub {o : Option ThreadRow} {g : ThreadRow → ThreadRow}
    {f : ThreadRow → Nat} {d n m : Nat} (hg : ∀ r, f (g r) = f r - d)
    (hold : o.elim 0 f = n) (hsum : m + d = n) : (o.map g).elim 0 f = m := by
  cases o with
  | none =>
      simp only [Option.elim_none, Option.map_none] at hold ⊢
      omega
  | some r =>
      simp only [Option.elim_some, Option.map_some, hg] at hold ⊢
      omega

section Delete

variable (h : Forest s) (he : s.events.lookup id = some e)
include h he

theorem Forest.rowOf_delete (k : EventId) :
    rowOf (dropRows s.threads e.inReplyTo (rootIn s.threads id)) k =
      (rowOf s.threads k).map (dropped e.inReplyTo (rootIn s.threads id) k) :=
  rowOf_dropRows (fun hp => (h.rootIn_of_top he hp).1) k

theorem Forest.rootIn_delete (k : EventId) :
    rootIn (dropRows s.threads e.inReplyTo (rootIn s.threads id)) k =
      rootIn s.threads k :=
  rootIn_dropRows (fun hp => (h.rootIn_of_top he hp).1) k

theorem Forest.keepsPlaces_delete :
    KeepsPlaces s.threads (dropRows s.threads e.inReplyTo (rootIn s.threads id)) := by
  intro k r hr
  refine ⟨dropped e.inReplyTo (rootIn s.threads id) k r, ?_, rfl, rfl, rfl⟩
  rw [h.rowOf_delete he, hr, Option.map_some]

omit h in
/-- A stored event is stored after the delete, with the same text and parent. -/
theorem lookup_delete {k : EventId} {e' : EventRow}
    (he' : s.events.lookup k = some e') :
    ∃ e'', (s.events.insert id { e with deleted := true }).lookup k = some e'' ∧
      e''.event = e'.event ∧ e''.inReplyTo = e'.inReplyTo := by
  rw [HMap.lookup_insert_ite]
  split
  · next hk =>
      subst hk
      rw [he] at he'
      cases he'
      exact ⟨_, rfl, rfl, rfl⟩
  · exact ⟨e', he', rfl, rfl⟩

omit h in
theorem lookup_of_delete {k : EventId} {e'' : EventRow}
    (he'' : (s.events.insert id { e with deleted := true }).lookup k = some e'') :
    ∃ e', s.events.lookup k = some e' ∧ e''.event = e'.event ∧
      e''.inReplyTo = e'.inReplyTo := by
  rcases HMap.lookup_insert_cases he'' with ⟨rfl, rfl⟩ | ⟨-, he''⟩
  · exact ⟨e, he, rfl, rfl⟩
  · exact ⟨e'', he'', rfl, rfl⟩

omit h in
theorem liveReplies_delete (hlive : e.deleted = false) (rows : List ThreadRow)
    (k : EventId) :
    liveReplies ⟨s.events.insert id { e with deleted := true }, rows⟩ k +
      (if e.inReplyTo = some k then 1 else 0) = s.liveReplies k := by
  unfold liveReplies
  have := HMap.sum_insert_of_some he { e with deleted := true }
    fun _ e => if e.deleted = false ∧ e.inReplyTo = some k then 1 else 0
  simpa [hlive] using this

theorem Forest.liveDescendants_delete (hlive : e.deleted = false) (k : EventId) :
    liveDescendants ⟨s.events.insert id { e with deleted := true },
        dropRows s.threads e.inReplyTo (rootIn s.threads id)⟩ k +
      (if rootIn s.threads id = some k then 1 else 0) = s.liveDescendants k := by
  unfold liveDescendants
  simp only [h.rootIn_delete he]
  have := HMap.sum_insert_of_some he { e with deleted := true }
    fun k' e => if e.deleted = false ∧ rootIn s.threads k' = some k then 1 else 0
  simpa [hlive] using this

/-- Deleting a live event, given the parent and root its row names. -/
theorem Forest.delete (hlive : e.deleted = false) :
    Forest ⟨s.events.insert id { e with deleted := true },
      dropRows s.threads e.inReplyTo (rootIn s.threads id)⟩ where
  nodup := by
    dsimp only
    rw [map_eventId_dropRows]
    exact h.nodup
  placed k r hr := by
    dsimp only at hr
    rw [h.rowOf_delete he] at hr
    obtain ⟨r₀, hr₀, rfl⟩ := Option.map_eq_some_iff.1 hr
    obtain ⟨e', he', ht, hp⟩ := h.placed k r₀ hr₀
    obtain ⟨e'', he'', hev, hp'⟩ := lookup_delete he he'
    exact ⟨e'', he'', by rw [hev]; exact ht, by rw [hp']; exact hp⟩
  reply k e'' p he'' hp := by
    obtain ⟨e', he', -, hp'⟩ := lookup_of_delete he he''
    exact h.reply_of_keeps (h.keepsPlaces_delete he) he' (hp'.symm.trans hp)
  top k r hr hp := by
    dsimp only at hr
    rw [h.rowOf_delete he] at hr
    obtain ⟨r₀, hr₀, rfl⟩ := Option.map_eq_some_iff.1 hr
    exact h.top k r₀ hr₀ hp
  root k x hx := by
    dsimp only at hx
    rw [h.rootIn_delete he] at hx
    exact h.root_of_keeps (h.keepsPlaces_delete he) hx
  unmarked k e'' he'' hr := by
    obtain ⟨e', he', hev, -⟩ := lookup_of_delete he he''
    dsimp only at hr
    rw [h.rowOf_delete he] at hr
    rw [hev]
    exact h.unmarked k e' he' (Option.map_eq_none_iff.1 hr)
  time k e'' he'' := by
    obtain ⟨e', he', hev, -⟩ := lookup_of_delete he he''
    rw [hev]
    exact h.time k e' he'
  replies k := by
    dsimp only
    rw [h.rowOf_delete he]
    exact elim_map_sub (fun _ => rfl) (h.replies k) (liveReplies_delete he hlive _ k)
  descendants k := by
    dsimp only
    rw [h.rowOf_delete he]
    exact elim_map_sub (fun _ => rfl) (h.descendants k)
      (h.liveDescendants_delete he hlive k)

theorem Forest.extends_delete :
    Extends s ⟨s.events.insert id { e with deleted := true },
      dropRows s.threads e.inReplyTo (rootIn s.threads id)⟩ where
  event k e' he' := lookup_delete he he'
  rootIn k e' he' := h.rootIn_delete he k
  depthIn k e' he' := by
    unfold ThreadStore.depthIn
    dsimp only
    rw [h.rowOf_delete he]
    cases rowOf s.threads k <;> rfl

end Delete

end ThreadStore

end Buzz.Db
