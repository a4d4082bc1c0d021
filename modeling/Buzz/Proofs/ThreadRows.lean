import Buzz.Db.Thread
import Mathlib.Data.List.Nodup

/-!
# Rows of the thread table

What the inserts and updates of `thread_metadata` do to the row found for an
id, while ids do not repeat. A stub changes nothing when its id has a row
under the same time; that the time is the same is what the callers owe.
-/

namespace Buzz.Db

open Buzz.Lib

variable {rows : List ThreadRow} {id k : EventId}

/-- The row found for an id. -/
def rowOf (rows : List ThreadRow) (id : EventId) : Option ThreadRow :=
  rows.find? (·.eventId = id)

theorem eventId_of_rowOf {r : ThreadRow} (h : rowOf rows id = some r) : r.eventId = id := by
  simpa using List.find?_some h

theorem rowOf_append (r : ThreadRow) :
    rowOf (rows ++ [r]) k = (rowOf rows k).or (if r.eventId = k then some r else none) := by
  unfold rowOf
  rw [List.find?_append]
  congr 1
  by_cases h : r.eventId = k
  · simp [h]
  · simp [h]

theorem rowOf_update (set : ThreadRow → ThreadRow) (hset : ∀ r, (set r).eventId = r.eventId) :
    rowOf (updateThreadRows rows id set) k =
      (rowOf rows k).map fun r => if k = id then set r else r := by
  unfold rowOf updateThreadRows
  induction rows with
  | nil => rfl
  | cons r rows ih =>
      rw [List.map_cons, List.find?_cons, List.find?_cons]
      have heq : (if r.eventId = id then set r else r).eventId = r.eventId := by
        split
        · exact hset r
        · rfl
      rw [heq]
      by_cases hk : r.eventId = k
      · simp [hk]
      · simpa [hk] using ih

theorem rowOf_eq_none (h : rowOf rows id = none) : id ∉ rows.map (·.eventId) := by
  intro hmem
  obtain ⟨r, hr, heq⟩ := List.mem_map.1 hmem
  have := List.find?_eq_none.1 h r hr
  exact this (by simpa using heq)

/-- An id without a row gets the inserted one. -/
theorem insertThreadRow_of_none (row : ThreadRow) (h : rowOf rows row.eventId = none) :
    insertThreadRow rows row = (rows ++ [row], true) := by
  unfold insertThreadRow
  rw [if_neg]
  intro hany
  obtain ⟨r, hr, heq⟩ := List.any_eq_true.1 hany
  simp only [Bool.and_eq_true, beq_iff_eq] at heq
  exact rowOf_eq_none h (List.mem_map.2 ⟨r, hr, heq.2⟩)

/-- An insert under the time of the id's row conflicts. -/
theorem insertThreadRow_of_some (row : ThreadRow) {r : ThreadRow}
    (h : rowOf rows row.eventId = some r)
    (ht : r.eventCreatedAt = row.eventCreatedAt) :
    insertThreadRow rows row = (rows, false) := by
  unfold insertThreadRow
  rw [if_pos]
  refine List.any_eq_true.2 ⟨r, List.mem_of_find?_eq_some h, ?_⟩
  simp [ht, eventId_of_rowOf h]

theorem rowOf_stub {ts : Int} (ch : Uuid)
    (hts : ∀ r, rowOf rows id = some r → r.eventCreatedAt = ts) :
    rowOf (insertThreadRow rows (stubRow ts id ch)).1 k =
      if k = id then some ((rowOf rows id).getD (stubRow ts id ch)) else rowOf rows k := by
  cases h : rowOf rows id with
  | none =>
      rw [insertThreadRow_of_none (stubRow ts id ch) h]
      dsimp only
      rw [rowOf_append]
      by_cases hk : k = id
      · subst hk
        simp [h, stubRow]
      · have : ¬ (stubRow ts id ch).eventId = k := fun he => hk he.symm
        simp [hk, this]
  | some r =>
      rw [insertThreadRow_of_some (stubRow ts id ch) h (hts r h)]
      by_cases hk : k = id
      · subst hk
        simp [h]
      · simp [hk]

theorem nodup_insertThreadRow (row : ThreadRow) (hnd : (rows.map (·.eventId)).Nodup)
    (hts : ∀ r, rowOf rows row.eventId = some r → r.eventCreatedAt = row.eventCreatedAt) :
    ((insertThreadRow rows row).1.map (·.eventId)).Nodup := by
  cases h : rowOf rows row.eventId with
  | none =>
      rw [insertThreadRow_of_none row h, List.map_append, List.map_singleton]
      exact List.Nodup.append hnd (List.nodup_singleton _)
        (List.disjoint_singleton.2 (rowOf_eq_none h))
  | some r =>
      rw [insertThreadRow_of_some row h (hts r h)]
      exact hnd

theorem map_eventId_update (set : ThreadRow → ThreadRow)
    (hset : ∀ r, (set r).eventId = r.eventId) :
    (updateThreadRows rows id set).map (·.eventId) = rows.map (·.eventId) := by
  unfold updateThreadRows
  rw [List.map_map]
  refine List.map_congr_left fun r _ => ?_
  show (if r.eventId = id then set r else r).eventId = r.eventId
  split
  · exact hset r
  · rfl

/-! ## A reply's rows -/

/-- The counters a reply to `parent` under `root` adds to the row of `k`. -/
def bumped (parent root k : EventId) (r : ThreadRow) : ThreadRow :=
  let r := if k = parent then bumpReplies r else r
  if k = root then bumpDescendants r else r

@[simp] theorem bumped_eventCreatedAt (parent root k : EventId) (r : ThreadRow) :
    (bumped parent root k r).eventCreatedAt = r.eventCreatedAt := by
  unfold bumped; dsimp only; split <;> split <;> rfl

@[simp] theorem bumped_parentEventId (parent root k : EventId) (r : ThreadRow) :
    (bumped parent root k r).parentEventId = r.parentEventId := by
  unfold bumped; dsimp only; split <;> split <;> rfl

@[simp] theorem bumped_rootEventId (parent root k : EventId) (r : ThreadRow) :
    (bumped parent root k r).rootEventId = r.rootEventId := by
  unfold bumped; dsimp only; split <;> split <;> rfl

@[simp] theorem bumped_depth (parent root k : EventId) (r : ThreadRow) :
    (bumped parent root k r).depth = r.depth := by
  unfold bumped; dsimp only; split <;> split <;> rfl

@[simp] theorem bumped_replyCount (parent root k : EventId) (r : ThreadRow) :
    (bumped parent root k r).replyCount = r.replyCount + if k = parent then 1 else 0 := by
  unfold bumped; dsimp only; split <;> split <;> rfl

@[simp] theorem bumped_descendantCount (parent root k : EventId) (r : ThreadRow) :
    (bumped parent root k r).descendantCount =
      r.descendantCount + if k = root then 1 else 0 := by
  unfold bumped; dsimp only; split <;> split <;> rfl

/-- What the insert of a reply owes the table: its id is new, and the times
it names for its parent and root are those of the rows they have. -/
structure Placeable (rows : List ThreadRow) (params : ThreadMetadataParams)
    (parent root : EventId) : Prop where
  parentId : params.parentEventId = some parent
  rootId : params.rootEventId = some root
  fresh : rowOf rows params.eventId = none
  neParent : params.eventId ≠ parent
  neRoot : params.eventId ≠ root
  parentTime : ∀ r, rowOf rows parent = some r →
    r.eventCreatedAt = params.parentEventCreatedAt.getD params.eventCreatedAt
  rootRow : root ≠ parent → ∃ r, rowOf rows root = some r ∧
    r.eventCreatedAt = params.rootEventCreatedAt.getD params.eventCreatedAt

variable {params : ThreadMetadataParams} {parent root : EventId}

theorem rowOf_own (h : rowOf rows params.eventId = none) :
    rowOf (rows ++ [{ toThreadMetadataParams := params }]) k =
      if k = params.eventId then some { toThreadMetadataParams := params }
      else rowOf rows k := by
  rw [rowOf_append]
  by_cases hk : k = params.eventId
  · subst hk
    simp [h]
  · have hk' : ¬ params.eventId = k := fun he => hk he.symm
    simp [hk, hk']

section

variable (h : Placeable rows params parent root)
include h

theorem Placeable.parentTime_own (r : ThreadRow)
    (hr : rowOf (rows ++ [{ toThreadMetadataParams := params }]) parent = some r) :
    r.eventCreatedAt = params.parentEventCreatedAt.getD params.eventCreatedAt := by
  rw [rowOf_own h.fresh, if_neg (Ne.symm h.neParent)] at hr
  exact h.parentTime r hr

/-- The rows after a reply's own row and its parent's stub. The root already
has its row, so its stub conflicts. -/
theorem Placeable.stubs :
    insertThreadMetadata rows params =
      updateThreadRows (updateThreadRows
        (insertThreadRow (rows ++ [{ toThreadMetadataParams := params }])
          (stubRow (params.parentEventCreatedAt.getD params.eventCreatedAt) parent
            params.channelId)).1 parent bumpReplies) root bumpDescendants := by
  have hroot : ∀ rows', (∀ k, k ≠ parent → k ≠ params.eventId →
      rowOf rows' k = rowOf rows k) → insertRootStub rows' params parent = rows' := by
    intro rows' hrows
    unfold insertRootStub
    rw [h.rootId]
    dsimp only
    split
    · rfl
    · next hne =>
        obtain ⟨r, hr, ht⟩ := h.rootRow hne
        rw [← hrows root hne (Ne.symm h.neRoot)] at hr
        exact congrArg Prod.fst (insertThreadRow_of_some (stubRow _ root _) hr ht)
  unfold insertThreadMetadata
  rw [insertThreadRow_of_none { toThreadMetadataParams := params } h.fresh]
  dsimp only
  rw [h.parentId, h.rootId]
  dsimp only
  rw [hroot]
  intro k hk hk'
  rw [rowOf_stub _ h.parentTime_own, if_neg hk, rowOf_own h.fresh, if_neg hk']

theorem Placeable.rowOf_insert :
    rowOf (insertThreadMetadata rows params) k =
      if k = params.eventId then some { toThreadMetadataParams := params }
      else (if k = parent then
          some ((rowOf rows parent).getD (stubRow
            (params.parentEventCreatedAt.getD params.eventCreatedAt) parent
            params.channelId))
        else rowOf rows k).map (bumped parent root k) := by
  rw [h.stubs, rowOf_update bumpDescendants fun _ => rfl,
    rowOf_update bumpReplies fun _ => rfl, rowOf_stub _ h.parentTime_own, rowOf_own h.fresh,
    rowOf_own h.fresh, if_neg (Ne.symm h.neParent), Option.map_map]
  by_cases hk : k = params.eventId
  · subst hk
    simp [h.neParent, h.neRoot]
  · rw [if_neg hk, if_neg hk]
    rfl

theorem Placeable.nodup (hnd : (rows.map (·.eventId)).Nodup) :
    ((insertThreadMetadata rows params).map (·.eventId)).Nodup := by
  have hown := nodup_insertThreadRow { toThreadMetadataParams := params } hnd fun r hr => by
    rw [show rowOf rows params.eventId = none from h.fresh] at hr
    cases hr
  rw [insertThreadRow_of_none _ h.fresh] at hown
  rw [h.stubs, map_eventId_update bumpDescendants fun _ => rfl,
    map_eventId_update bumpReplies fun _ => rfl]
  exact nodup_insertThreadRow _ hown h.parentTime_own

end

end Buzz.Db
