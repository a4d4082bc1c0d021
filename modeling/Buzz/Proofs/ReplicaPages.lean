import Buzz.Db.ReplicaPages
import Buzz.Lib.Page
import Buzz.Proofs.StoredRows
import Mathlib.Data.List.Induction

/-!
# Pages of an older snapshot

What later commits do to a row is `Ages`. A row that a statement selects later
it selected before, unless it waited for its mentions; a row it selected before
it selects later, unless the row is gone. So a page of an older snapshot differs
from the writer's in the rows inserted since, which coverage excludes, and in
the rows gone since.
-/

namespace Buzz.Db

open Buzz.Core Buzz.Lib Statement

/-! ## Rows as they age -/

structure Ages (old new : TableRow) : Prop where
  event : new.stored.event = old.stored.event
  columns : new.stored.columns = old.stored.columns
  channel : new.stored.channelId = old.stored.channelId
  deleted : old.stored.deleted → new.stored.deleted
  head : new.stored.isHead → old.stored.isHead
  mentions : old.mentionsIndexed → new.mentionsIndexed
  place : new.place = old.place ∨
    (old.place = none ∧ new.place = some { rootEventId := none, depth := 0, broadcast := false })

namespace Ages

theorem refl (row : TableRow) : Ages row row :=
  ⟨rfl, rfl, rfl, id, id, id, .inl rfl⟩

theorem trans {a b c : TableRow} (hab : Ages a b) (hbc : Ages b c) : Ages a c where
  event := hbc.event.trans hab.event
  columns := hbc.columns.trans hab.columns
  channel := hbc.channel.trans hab.channel
  deleted h := hbc.deleted (hab.deleted h)
  head h := hab.head (hbc.head h)
  mentions h := hbc.mentions (hab.mentions h)
  place := by
    rcases hbc.place with hc | ⟨hb, hc⟩
    · rw [hc]
      exact hab.place
    · rcases hab.place with hb' | ⟨-, hb'⟩
      · exact .inr ⟨hb' ▸ hb, hc⟩
      · rw [hb] at hb'
        cases hb'

theorem key {old new : TableRow} (h : Ages old new) : new.key = old.key := by
  unfold TableRow.key TableRow.createdAt TableRow.id
  rw [h.columns, h.event]

end Ages

namespace TableRow

theorem softDelete_ages (row : TableRow) : Ages row row.softDelete :=
  ⟨rfl, rfl, rfl, fun _ => rfl, fun h => h, fun h => h, .inl rfl⟩

theorem supersede_ages (row : TableRow) : Ages row row.supersede :=
  ⟨rfl, rfl, rfl, fun h => h, fun h => (by cases h), fun h => h, .inl rfl⟩

theorem indexMentions_ages (row : TableRow) : Ages row row.indexMentions :=
  ⟨rfl, rfl, rfl, fun h => h, fun h => h, fun _ => rfl, .inl rfl⟩

theorem stub_ages (row : TableRow) : Ages row row.stub := by
  unfold stub
  split
  · exact .refl row
  · next hplace =>
      exact ⟨rfl, rfl, rfl, fun h => h, fun h => h, fun h => h, .inr ⟨hplace, rfl⟩⟩

end TableRow

variable {new : TableRow}

/-- The rows after a write: old ones, aged, or the one it inserted. -/
theorem Tables.apply_cases {t : Tables} {w : Write} (h : new ∈ t.apply w) :
    (∃ old ∈ t, Ages old new) ∨ w = .insert new := by
  have honRow : ∀ (id : EventId) (f : TableRow → TableRow), (∀ row, Ages row (f row)) →
      new ∈ t.onRow id f → ∃ old ∈ t, Ages old new := by
    intro id f hf hnew
    obtain ⟨old, hold, rfl⟩ := List.mem_map.1 hnew
    refine ⟨old, hold, ?_⟩
    split
    · exact hf old
    · exact .refl old
  cases w with
  | insert row =>
      simp only [Tables.apply] at h
      split at h
      · exact .inl ⟨new, h, .refl new⟩
      · rcases List.mem_append.1 h with h | h
        · exact .inl ⟨new, h, .refl new⟩
        · exact .inr (by rw [List.mem_singleton.1 h])
  | softDelete id => exact .inl (honRow id _ TableRow.softDelete_ages h)
  | purge id => exact .inl ⟨new, List.mem_of_mem_filter h, .refl new⟩
  | supersede id => exact .inl (honRow id _ TableRow.supersede_ages h)
  | indexMentions id => exact .inl (honRow id _ TableRow.indexMentions_ages h)
  | stub id => exact .inl (honRow id _ TableRow.stub_ages h)

theorem Tables.foldl_apply_cases {ws : List Write} {t : Tables}
    (h : new ∈ ws.foldl Tables.apply t) :
    (∃ old ∈ t, Ages old new) ∨ ∃ row, .insert row ∈ ws ∧ Ages row new := by
  induction ws generalizing t with
  | nil => exact .inl ⟨new, h, .refl new⟩
  | cons w ws ih =>
      rcases ih h with ⟨mid, hmid, hages⟩ | ⟨row, hrow, hages⟩
      · rcases Tables.apply_cases hmid with ⟨old, hold, hages'⟩ | rfl
        · exact .inl ⟨old, hold, hages'.trans hages⟩
        · exact .inr ⟨mid, List.mem_cons_self .., hages⟩
      · exact .inr ⟨row, List.mem_cons_of_mem _ hrow, hages⟩

theorem tablesOf_append (cs cs' : List Commit) :
    tablesOf (cs ++ cs') = cs'.foldl Tables.applyCommit (tablesOf cs) :=
  List.foldl_append

/-- A row of the later tables is an older one, aged, or was inserted since. -/
theorem tablesOf_cases {cs cs' : List Commit} (h : new ∈ tablesOf (cs ++ cs')) :
    (∃ old ∈ tablesOf cs, Ages old new) ∨
      ∃ c ∈ cs', ∃ row, .insert row ∈ c.writes ∧ Ages row new := by
  rw [tablesOf_append] at h
  induction cs' using List.reverseRecOn generalizing new with
  | nil => exact .inl ⟨new, h, .refl new⟩
  | append_singleton cs' c ih =>
      rw [List.foldl_append] at h
      rcases Tables.foldl_apply_cases h with ⟨mid, hmid, hages⟩ | ⟨row, hrow, hages⟩
      · rcases ih hmid with ⟨old, hold, hages'⟩ | ⟨c', hc', row, hrow, hages'⟩
        · exact .inl ⟨old, hold, hages'.trans hages⟩
        · exact .inr ⟨c', List.mem_append_left _ hc', row, hrow, hages'.trans hages⟩
      · exact .inr ⟨c, List.mem_append_right _ (List.mem_singleton_self _), row, hrow, hages⟩

/-! ## One row a key -/

theorem Tables.apply_nodup {t : Tables} (h : (t.map (·.id)).Nodup) (w : Write) :
    ((t.apply w).map (·.id)).Nodup := by
  have honRow : ∀ (id : EventId) (f : TableRow → TableRow), (∀ row, Ages row (f row)) →
      ((t.onRow id f).map (·.id)).Nodup := by
    intro id f hf
    have hids : (t.onRow id f).map (·.id) = t.map (·.id) := by
      unfold Tables.onRow
      rw [List.map_map]
      refine List.map_congr_left fun row _ => ?_
      show TableRow.id (if row.id = id then f row else row) = row.id
      split
      · exact congrArg Event.id (hf row).event
      · rfl
    rw [hids]
    exact h
  cases w with
  | insert row =>
      simp only [Tables.apply]
      split
      · exact h
      · next hnew =>
          rw [List.map_append, List.nodup_append]
          refine ⟨h, List.nodup_singleton _, fun a ha b hb => ?_⟩
          rw [List.map_singleton, List.mem_singleton] at hb
          rintro rfl
          obtain ⟨old, hold, rfl⟩ := List.mem_map.1 ha
          exact hnew (List.any_eq_true.2 ⟨old, hold, by simpa using hb⟩)
  | softDelete id => exact honRow id _ TableRow.softDelete_ages
  | purge id => exact h.sublist ((List.filter_sublist).map _)
  | supersede id => exact honRow id _ TableRow.supersede_ages
  | indexMentions id => exact honRow id _ TableRow.indexMentions_ages
  | stub id => exact honRow id _ TableRow.stub_ages

theorem tablesOf_nodup (cs : List Commit) : ((tablesOf cs).map (·.id)).Nodup := by
  induction cs using List.reverseRecOn with
  | nil => exact .nil
  | append_singleton cs c ih =>
      rw [tablesOf_append]
      show ((c.writes.foldl Tables.apply (tablesOf cs)).map (·.id)).Nodup
      generalize tablesOf cs = t at ih
      induction c.writes generalizing t with
      | nil => exact ih
      | cons w ws ihw => exact ihw _ (Tables.apply_nodup ih w)

/-! ## What a statement selects -/

/-- The statement joins `event_mentions`. -/
def Statement.joinsMentions : Statement → Bool
  | .events q => q.pTagHex.isSome
  | _ => false

variable {q : EventQuery}

theorem currentRevision_mono {a b : StoredRow}
    (hcolumns : a.columns = b.columns) (hhead : a.isHead → b.isHead)
    (h : currentRevision q a) : currentRevision q b := by
  unfold currentRevision at h ⊢
  rw [hcolumns] at h
  cases hb : b.isHead with
  | true => simp
  | false =>
      cases ha : a.isHead with
      | true => rw [hhead ha] at hb; cases hb
      | false => rw [ha] at h; exact h

theorem pushEventFilters_mono {a b : StoredRow}
    (hcolumns : a.columns = b.columns) (hhead : a.isHead → b.isHead)
    (h : pushEventFilters q a) : pushEventFilters q b := by
  simp only [pushEventFilters, Bool.and_eq_true] at h ⊢
  obtain ⟨⟨⟨⟨⟨⟨⟨⟨hrev, h₁⟩, h₂⟩, h₃⟩, h₄⟩, h₅⟩, h₆⟩, h₇⟩, h₈⟩ := h
  rw [← hcolumns]
  exact ⟨⟨⟨⟨⟨⟨⟨⟨currentRevision_mono hcolumns hhead hrev, h₁⟩, h₂⟩, h₃⟩, h₄⟩, h₅⟩, h₆⟩, h₇⟩, h₈⟩

variable {st : Statement}

/-- What a statement selects it selects of every row that is at least as much
there. -/
theorem Statement.selects_mono {a b : TableRow}
    (hevent : a.stored.event = b.stored.event)
    (hcolumns : a.stored.columns = b.stored.columns)
    (hdeleted : b.stored.deleted → a.stored.deleted)
    (hhead : a.stored.isHead → b.stored.isHead)
    (htop : topLevel a.place → topLevel b.place)
    (hroot : ∀ p, a.place = some p → p.rootEventId.isSome → b.place = some p)
    (hmentions : st.joinsMentions → a.mentionsIndexed → b.mentionsIndexed)
    (h : st.selects a) : st.selects b := by
  have hlive : !a.stored.deleted → !b.stored.deleted := by
    intro ha
    cases hb : b.stored.deleted with
    | false => rfl
    | true => rw [hdeleted hb] at ha; exact ha
  have hcreated : a.createdAt = b.createdAt := congrArg Columns.createdAt hcolumns
  have hid : a.id = b.id := congrArg Event.id hevent
  -- A row in a thread stays where it is.
  have hplace : ∀ f : ThreadPlace → Bool, (∀ p, f p → p.rootEventId.isSome) →
      a.place.any f → b.place.any f := by
    intro f hf ha
    cases hp : a.place with
    | none => rw [hp] at ha; cases ha
    | some p =>
        rw [hp] at ha
        rw [hroot p hp (hf p ha)]
        exact ha
  cases st with
  | window channelId cursor kinds =>
      simp only [selects, Bool.and_eq_true] at h ⊢
      obtain ⟨⟨⟨⟨hch, hdel⟩, hplace'⟩, hcur⟩, hkinds⟩ := h
      refine ⟨⟨⟨⟨hcolumns ▸ hch, hlive hdel⟩, htop hplace'⟩, ?_⟩, hcolumns ▸ hkinds⟩
      unfold windowCursorClause at hcur ⊢
      rw [← hcreated, ← hid]
      exact hcur
  | events q =>
      simp only [selects, queryEventsSql, Bool.and_eq_true] at h ⊢
      obtain ⟨⟨⟨hdel, hjoin⟩, hpush⟩, hment⟩ := h
      refine ⟨⟨⟨hlive hdel, hcolumns ▸ hjoin⟩, pushEventFilters_mono hcolumns hhead hpush⟩, ?_⟩
      cases hp : q.pTagHex with
      | none => rfl
      | some key =>
          rw [hp] at hment
          exact hmentions (by simp [joinsMentions, hp]) hment
  | threadReply q root =>
      simp only [selects, Bool.and_eq_true] at h ⊢
      obtain ⟨⟨⟨⟨hany, hsince⟩, huntil⟩, hdel⟩, hpush⟩ := h
      rw [← hcreated]
      refine ⟨⟨⟨⟨hplace _ (fun p hp => ?_) hany, hsince⟩, huntil⟩, hlive hdel⟩,
        pushEventFilters_mono hcolumns hhead hpush⟩
      rw [beq_iff_eq] at hp
      rw [hp]
      rfl
  | thread root depthLimit cursor =>
      simp only [selects, Bool.and_eq_true] at h ⊢
      obtain ⟨⟨hany, hdel⟩, hcur⟩ := h
      refine ⟨⟨hplace _ (fun p hp => ?_) hany, hlive hdel⟩, ?_⟩
      · rw [Bool.and_eq_true, beq_iff_eq] at hp
        rw [hp.1]
        rfl
      · unfold threadCursorClause at hcur ⊢
        rw [← hcreated, ← hid]
        exact hcur

variable {old : TableRow}

/-- A row selected later was selected before, unless it waited for its
mentions. -/
theorem Statement.selects_before (h : Ages old new) (hnew : st.selects new) :
    st.selects old ∨ (st.joinsMentions ∧ old.mentionsIndexed = false) := by
  by_cases hment : st.joinsMentions → old.mentionsIndexed
  · refine .inl (st.selects_mono h.event h.columns h.deleted h.head (fun htop => ?_)
      (fun p hp hroot => ?_) (fun hjoins _ => hment hjoins) hnew)
    · rcases h.place with hsame | ⟨hnone, -⟩
      · exact hsame ▸ htop
      · rw [hnone]
        rfl
    · rcases h.place with hsame | ⟨-, hstub⟩
      · exact hsame ▸ hp
      · rw [hstub] at hp
        cases hp
        cases hroot
  · exact .inr (by simpa using hment)

/-- What takes a row off every page. -/
def Gone (t : Tables) (row : TableRow) : Prop :=
  ∀ new ∈ t, Ages row new → new.stored.deleted ∨ (row.stored.isHead ∧ new.stored.isHead = false)

/-- A row selected before is selected later while it is live. -/
theorem Statement.selects_after (h : Ages old new)
    (hlive : new.stored.deleted = false)
    (hhead : old.stored.isHead → new.stored.isHead) (hold : st.selects old) :
    st.selects new := by
  refine st.selects_mono h.event.symm h.columns.symm (fun hdel => ?_) hhead (fun htop => ?_)
    (fun p hp _ => ?_) (fun _ => h.mentions) hold
  · rw [hlive] at hdel
    cases hdel
  · rcases h.place with hsame | ⟨-, hstub⟩
    · exact hsame ▸ htop
    · rw [hstub]
      rfl
  · rcases h.place with hsame | ⟨hnone, -⟩
    · exact hsame ▸ hp
    · rw [hnone] at hp
      cases hp

/-! ## Pages -/

theorem bytesLe_iff {a b : List UInt8} : bytesLe a b ↔ a ≤ b := decide_eq_true_iff

theorem newestFirst_totalOrder : TotalOrder newestFirst where
  trans a b c hab hbc := by
    simp only [newestFirst, Bool.or_eq_true, Bool.and_eq_true, decide_eq_true_eq, beq_iff_eq,
      bytesLe_iff] at *
    rcases hab with hab | ⟨hab, hid⟩ <;> rcases hbc with hbc | ⟨hbc, hid'⟩
    · exact .inl (by omega)
    · exact .inl (by omega)
    · exact .inl (by omega)
    · exact .inr ⟨by omega, List.le_trans hid hid'⟩
  total a b := by
    simp only [newestFirst, Bool.or_eq_true, Bool.and_eq_true, decide_eq_true_eq, beq_iff_eq,
      bytesLe_iff]
    rcases Int.lt_trichotomy a.1 b.1 with hlt | heq | hgt
    · exact .inr (.inl hlt)
    · rcases List.le_total a.2 b.2 with hle | hle
      · exact .inl (.inr ⟨heq, hle⟩)
      · exact .inr (.inr ⟨heq.symm, hle⟩)
    · exact .inl (.inl hgt)
  antisymm a b hab hba := by
    simp only [newestFirst, Bool.or_eq_true, Bool.and_eq_true, decide_eq_true_eq, beq_iff_eq,
      bytesLe_iff] at *
    rcases hab with hab | ⟨hab, hid⟩ <;> rcases hba with hba | ⟨hba, hid'⟩
    · omega
    · omega
    · omega
    · exact Prod.ext hab (List.le_antisymm hid hid')

theorem oldestFirst_eq (a b : Int × List UInt8) :
    oldestFirst a b = newestFirst (-a.1, a.2) (-b.1, b.2) := by
  unfold oldestFirst newestFirst
  have hlt : (a.1 < b.1) ↔ (-b.1 < -a.1) := by omega
  have heq : (a.1 == b.1) = (-a.1 == -b.1) := by
    rw [Bool.eq_iff_iff, beq_iff_eq, beq_iff_eq]
    omega
  rw [heq, decide_eq_decide.2 hlt]

theorem oldestFirst_totalOrder : TotalOrder oldestFirst where
  trans a b c hab hbc := by
    rw [oldestFirst_eq] at *
    exact newestFirst_totalOrder.trans _ _ _ hab hbc
  total a b := by
    rw [oldestFirst_eq, oldestFirst_eq]
    exact newestFirst_totalOrder.total _ _
  antisymm a b hab hba := by
    rw [oldestFirst_eq] at hab hba
    have h := newestFirst_totalOrder.antisymm _ _ hab hba
    simp only [Prod.mk.injEq, Int.neg_inj] at h
    exact Prod.ext h.1 h.2

theorem Statement.order_totalOrder (st : Statement) : TotalOrder st.order := by
  cases st with
  | thread => exact oldestFirst_totalOrder
  | window | events | threadReply => exact newestFirst_totalOrder

/-- Thread pages fill up with rows that become answers; the other pages just
leave the rest out. -/
def Statement.wanted (st : Statement) (row : TableRow) : Bool :=
  st.selects row &&
    match st with
    | .thread .. => row.reconstructs
    | _ => true

/-- The rows behind a read's answer. -/
def Statement.answers (st : Statement) (n : Nat) (t : Tables) : List TableRow :=
  ((t.filter st.wanted).mergeSort fun a b => st.order a.key b.key).take n

theorem map_key_answers (st : Statement) (n : Nat) (t : Tables) :
    (st.answers n t).map (·.key) = pageOf st.order n ((t.filter st.wanted).map (·.key)) := by
  unfold answers pageOf
  rw [List.map_take]
  congr 1
  exact List.map_mergeSort (fun _ _ _ _ => rfl)

theorem nodup_keys {t : Tables} (h : (t.map (·.id)).Nodup) (f : TableRow → Bool) :
    ((t.filter f).map (·.key)).Nodup := by
  have hids : ((t.filter f).map (·.id)).Nodup := h.sublist ((List.filter_sublist).map _)
  refine List.Nodup.map_on (fun a ha b hb hkey => ?_) (List.Nodup.of_map _ hids)
  refine List.inj_on_of_nodup_map hids ha hb ?_
  exact Bytes32.ext (congrArg Prod.snd hkey)

theorem mem_of_mem_answers {n : Nat} {t : Tables} {row : TableRow}
    (h : row ∈ st.answers n t) : row ∈ t ∧ st.wanted row := by
  have hmem := List.mem_of_mem_take h
  rw [List.mem_mergeSort] at hmem
  exact List.mem_filter.1 hmem

theorem Statement.wanted_before (h : Ages old new) (hnew : st.wanted new) :
    st.wanted old ∨ (st.joinsMentions ∧ old.mentionsIndexed = false) := by
  simp only [wanted, Bool.and_eq_true] at hnew ⊢
  refine (st.selects_before h hnew.1).imp_left fun hold => ⟨hold, ?_⟩
  have hrest := hnew.2
  unfold TableRow.reconstructs at hrest ⊢
  rw [h.columns] at hrest
  exact hrest

theorem Statement.wanted_after (h : Ages old new)
    (hlive : new.stored.deleted = false)
    (hhead : old.stored.isHead → new.stored.isHead) (hold : st.wanted old) :
    st.wanted new := by
  simp only [wanted, Bool.and_eq_true] at hold ⊢
  refine ⟨st.selects_after h hlive hhead hold.1, ?_⟩
  have hrest := hold.2
  unfold TableRow.reconstructs at hrest ⊢
  rw [h.columns]
  exact hrest

/-- A row on the writer's page and not on the older one: it waited for its
mentions, or rows gone since pushed it past the limit. -/
theorem Statement.answers_pushed {n : Nat} {old new : Tables}
    (hold : (old.map (·.id)).Nodup) {x : TableRow} (hx : x ∈ st.answers n new)
    (hmissing : ∀ y ∈ st.answers n old, y.key ≠ x.key)
    (hcovered : (∃ row ∈ old, Ages row x) ∨ ((st.answers n old).length = n ∧
      ∀ y ∈ st.answers n old, st.order y.key x.key)) :
    (∃ row ∈ old, Ages row x ∧ st.joinsMentions ∧ row.mentionsIndexed = false) ∨
      ((st.answers n old).length = n ∧ (∀ y ∈ st.answers n old, st.order y.key x.key) ∧
        ∃ y ∈ st.answers n old, Gone new y) := by
  have hkeys := map_key_answers st n old
  have hlen : (st.answers n old).length = (pageOf st.order n _).length :=
    (List.length_map ..).symm.trans (congrArg List.length hkeys)
  -- Either way the page is full, and all of it comes before the row.
  have hbefore : (∃ row ∈ old, Ages row x ∧ st.joinsMentions ∧ row.mentionsIndexed = false) ∨
      ((st.answers n old).length = n ∧ ∀ y ∈ st.answers n old, st.order y.key x.key) := by
    rcases hcovered with ⟨row, hrow, hages⟩ | hfull
    · rcases st.wanted_before hages (mem_of_mem_answers hx).2 with hwanted | hment
      · have hmem : x.key ∈ (old.filter st.wanted).map (·.key) :=
          List.mem_map.2 ⟨row, List.mem_filter.2 ⟨hrow, hwanted⟩, hages.key.symm⟩
        have hnot : x.key ∉ pageOf st.order n ((old.filter st.wanted).map (·.key)) := by
          rw [← hkeys]
          intro hin
          obtain ⟨y, hy, heq⟩ := List.mem_map.1 hin
          exact hmissing y hy heq
        obtain ⟨hfull, hall⟩ := before_of_not_mem_pageOf st.order_totalOrder hmem hnot
        refine .inr ⟨hlen.trans hfull, fun y hy => ?_⟩
        exact (hall y.key (hkeys ▸ List.mem_map_of_mem hy)).1
      · exact .inl ⟨row, hrow, hages, hment⟩
    · exact .inr hfull
  refine hbefore.imp_right fun ⟨hfull, hall⟩ => ⟨hfull, hall, ?_⟩
  -- One of the `n` rows before it is not on the writer's page.
  have hxkey : x.key ∈ pageOf st.order n ((new.filter st.wanted).map (·.key)) :=
    map_key_answers st n new ▸ List.mem_map_of_mem hx
  have hmany : n ≤ ((st.answers n old).map (·.key)).length := by
    rw [List.length_map, hfull]
  obtain ⟨k, hk, hnot⟩ := exists_not_mem_of_before st.order_totalOrder
    (hkeys ▸ nodup_pageOf (nodup_keys hold _)) hmany hxkey
    (fun k hk => by
      obtain ⟨y, hy, rfl⟩ := List.mem_map.1 hk
      exact ⟨hall y hy, hmissing y hy⟩)
  obtain ⟨y, hy, rfl⟩ := List.mem_map.1 hk
  refine ⟨y, hy, fun z hz hages => ?_⟩
  by_contra hlive
  push Not at hlive
  refine hnot (List.mem_map.2 ⟨z, List.mem_filter.2 ⟨hz, ?_⟩, hages.key⟩)
  refine st.wanted_after hages (by simpa using hlive.1) (fun hhead => ?_)
    (mem_of_mem_answers hy).2
  simpa using hlive.2 hhead

/-! ## The reads -/

theorem answers_window (channelId : Uuid) (cursor : Option (Int × List UInt8))
    (kinds : Option (List Nat)) (n : Nat) (t : Tables) :
    (window channelId cursor kinds).answers n t =
      (window channelId cursor kinds).page n t := by
  have hwanted : (window channelId cursor kinds).wanted =
      (window channelId cursor kinds).selects := by
    funext row
    exact Bool.and_true _
  unfold answers page rows
  rw [hwanted]

theorem getChannelWindowOn_eq (t : Tables) (channelId : Uuid) (limit : Nat)
    (cursor : Option (Int × List UInt8)) (kinds : Option (List Nat)) :
    getChannelWindowOn t channelId limit cursor kinds =
      ((window channelId cursor kinds).answers limit t).filterMap
        fun row => rowToStoredEvent row.stored.columns := by
  unfold getChannelWindowOn page
  rw [List.take_take, Nat.min_eq_left (Nat.le_succ limit), answers_window]
  rfl

theorem answers_query (q : EventQuery) (t t' : Tables) (n : Nat) :
    (queryStatement q t).answers n t' = (queryStatement q t).page n t' := by
  have hwanted : (queryStatement q t).wanted = (queryStatement q t).selects := by
    funext row
    unfold queryStatement
    split
    · split <;> exact Bool.and_true _
    · exact Bool.and_true _
  unfold answers page rows
  rw [hwanted]

theorem queryEventsOn_eq {t : Tables} {events : List StoredEvent}
    (h : queryEventsOn q t = .ok events) :
    events = ((queryStatement q t).answers (pageLimit q).toNat t).filterMap
      fun row => rowToStoredEvent row.stored.columns := by
  unfold queryEventsOn at h
  split at h
  · cases h
  · split at h
    · cases h
    · rw [answers_query]
      exact (Except.ok.inj h).symm

section ThreadRounds

variable {t : Tables} {root : EventId} {depthLimit : Option Nat}
  {cursor : Option ThreadCursor}

/-- Sorting and filtering commute. -/
theorem mergeSort_filter {le : Int × List UInt8 → Int × List UInt8 → Bool}
    (hle : TotalOrder le) {rows : List TableRow} (hnodup : (rows.map (·.key)).Nodup)
    (f : TableRow → Bool) :
    (rows.filter f).mergeSort (fun a b => le a.key b.key) =
      (rows.mergeSort fun a b => le a.key b.key).filter f := by
  have hsorted : ∀ l : List TableRow,
      (l.mergeSort fun a b => le a.key b.key).Pairwise fun a b => le a.key b.key := by
    intro l
    exact List.pairwise_mergeSort (fun a b c => hle.trans a.key b.key c.key)
      (fun a b => hle.total a.key b.key) l
  refine List.Perm.eq_of_pairwise (fun a b ha hb hab hba => ?_) (hsorted _)
    ((hsorted rows).filter f) ?_
  · have hkey := hle.antisymm a.key b.key hab hba
    have ha : a ∈ rows := List.mem_of_mem_filter (List.mem_mergeSort.1 ha)
    have hb : b ∈ rows := List.mem_mergeSort.1 (List.mem_of_mem_filter hb)
    exact List.inj_on_of_nodup_map hnodup ha hb hkey
  · exact (List.mergeSort_perm _ _).trans ((List.mergeSort_perm rows _).symm.filter f)

/-- The rows of a thread after the cursor, in order. -/
theorem thread_rows_sorted (cursor : Option ThreadCursor) :
    ((thread root depthLimit cursor).rows t).Pairwise
      fun a b => oldestFirst a.key b.key :=
  List.pairwise_mergeSort (fun a b c => oldestFirst_totalOrder.trans a.key b.key c.key)
    (fun a b => oldestFirst_totalOrder.total a.key b.key) _

/-- A cursor at a row asks for what comes strictly after it. -/
theorem threadCursorClause_at (a b : TableRow) :
    threadCursorClause (some (a.createdAt, some a.id.bytes)) b ↔ ¬ oldestFirst b.key a.key := by
  unfold TableRow.key
  simp only [threadCursorClause, oldestFirst, bytesLe_iff, Bool.or_eq_true, Bool.and_eq_true,
    decide_eq_true_eq, beq_iff_eq, not_or, not_and, Int.not_lt, List.not_le]
  constructor
  · rintro (hlt | ⟨heq, hid⟩)
    · exact ⟨by omega, fun h => by omega⟩
    · exact ⟨by omega, fun _ => hid⟩
  · rintro ⟨hle, hid⟩
    rcases Int.lt_or_eq_of_le hle with hlt | heq
    · exact .inl hlt
    · exact .inr ⟨heq, hid heq.symm⟩

/-- What comes after a row that is itself after the cursor is after the cursor. -/
theorem threadCursorClause_trans {a b : TableRow}
    (ha : threadCursorClause cursor a)
    (hb : threadCursorClause (some (a.createdAt, some a.id.bytes)) b) :
    threadCursorClause cursor b := by
  rcases cursor with _ | ⟨ts, _ | id⟩
  · rfl
  · simp only [threadCursorClause, Bool.or_eq_true, Bool.and_eq_true, decide_eq_true_eq,
      beq_iff_eq] at ha hb ⊢
    rcases hb with hb | ⟨hb, -⟩ <;> omega
  · simp only [threadCursorClause, Bool.or_eq_true, Bool.and_eq_true, decide_eq_true_eq,
      beq_iff_eq] at ha hb ⊢
    rcases ha with ha | ⟨ha, hid⟩ <;> rcases hb with hb | ⟨hb, hid'⟩
    · exact .inl (by omega)
    · exact .inl (by omega)
    · exact .inl (by omega)
    · exact .inr ⟨by omega, List.lt_trans hid hid'⟩

theorem selects_thread {row : TableRow} :
    (thread root depthLimit cursor).selects row =
      ((thread root depthLimit none).selects row &&
        threadCursorClause cursor row) := by
  simp only [selects, threadCursorClause, Bool.and_true]

/-- The next raw page starts where this one ended. -/
theorem thread_rows_next (hnodup : (t.map (·.id)).Nodup) {m : Nat}
    {last : TableRow}
    (hlast : (((thread root depthLimit cursor).rows t).take m).getLast? = some last) :
    (thread root depthLimit (some (last.createdAt, some last.id.bytes))).rows t =
      ((thread root depthLimit cursor).rows t).drop m := by
  have hmem : last ∈ ((thread root depthLimit cursor).rows t).take m :=
    List.mem_of_getLast? hlast
  have hsel : ∀ row ∈ (thread root depthLimit cursor).rows t,
      (thread root depthLimit cursor).selects row := fun row hrow =>
    (List.mem_filter.1 (List.mem_mergeSort.1 hrow)).2
  -- Narrowing the cursor narrows the selection.
  have hfilter : t.filter (thread root depthLimit
      (some (last.createdAt, some last.id.bytes))).selects =
      (t.filter (thread root depthLimit cursor).selects).filter
        (threadCursorClause (some (last.createdAt, some last.id.bytes))) := by
    rw [List.filter_filter]
    refine List.filter_congr fun row _ => ?_
    have hwide := @selects_thread root depthLimit cursor row
    rw [hwide, selects_thread]
    cases hafter : threadCursorClause (some (last.createdAt, some last.id.bytes)) row with
    | false => simp
    | true =>
        have hcur : threadCursorClause cursor last := by
          have h := hsel last (List.mem_of_mem_take hmem)
          rw [selects_thread, Bool.and_eq_true] at h
          exact h.2
        rw [threadCursorClause_trans hcur hafter]
        simp
  have hrows : (t.filter (thread root depthLimit cursor).selects).mergeSort
      (fun a b => oldestFirst a.key b.key) =
        (thread root depthLimit cursor).rows t := rfl
  show (t.filter _).mergeSort (fun a b => oldestFirst a.key b.key) = _
  rw [hfilter, mergeSort_filter oldestFirst_totalOrder (nodup_keys hnodup _), hrows]
  -- The rows up to the last one are not after it, and the others are.
  have hsorted : ((thread root depthLimit cursor).rows t).Pairwise
      fun a b => oldestFirst a.key b.key := thread_rows_sorted cursor
  have hkeys : (((thread root depthLimit cursor).rows t).map (·.key)).Nodup := by
    rw [← hrows]
    exact ((List.mergeSort_perm _ _).map _).nodup_iff.2 (nodup_keys hnodup _)
  generalize (thread root depthLimit cursor).rows t = rows at hmem hsorted hkeys hlast ⊢
  have hbefore : ∀ row ∈ rows.take m, oldestFirst row.key last.key := by
    intro row hrow
    obtain ⟨init, hinit⟩ := List.getLast?_eq_some_iff.1 hlast
    have htake := hsorted.sublist (List.take_sublist m rows)
    rw [hinit] at htake hrow
    rcases List.mem_append.1 hrow with hrow | hrow
    · exact (List.pairwise_append.1 htake).2.2 row hrow last (List.mem_singleton_self _)
    · rw [List.mem_singleton.1 hrow]
      simpa using oldestFirst_totalOrder.total last.key last.key
  have hafter : ∀ row ∈ rows.drop m, ¬ oldestFirst row.key last.key := by
    intro row hrow hle
    rw [← List.take_append_drop m rows] at hsorted hkeys
    have hle' := (List.pairwise_append.1 hsorted).2.2 last hmem row hrow
    have heq := oldestFirst_totalOrder.antisymm _ _ hle hle'
    rw [List.map_append, List.nodup_append] at hkeys
    exact hkeys.2.2 last.key (List.mem_map_of_mem hmem) row.key (List.mem_map_of_mem hrow) heq.symm
  conv => lhs; rw [← List.take_append_drop m rows]
  rw [List.filter_append, List.filter_eq_nil_iff.2, List.nil_append, List.filter_eq_self.2]
  · intro row hrow
    exact (threadCursorClause_at last row).2 (hafter row hrow)
  · intro row hrow hclause
    exact (threadCursorClause_at last row).1 hclause (hbefore row hrow)

/-- The first `n` that pass, from the first `n` of all and the rest. -/
theorem take_filter (rows : List TableRow) (n : Nat) (f : TableRow → Bool) :
    (rows.filter f).take n = (rows.take n).filter f ++
      ((rows.drop n).filter f).take (n - ((rows.take n).filter f).length) := by
  have hkept : ((rows.take n).filter f).length ≤ n :=
    Nat.le_trans (List.length_filter_le f _) (List.length_take_le n rows)
  conv => lhs; rw [← List.take_append_drop n rows, List.filter_append]
  rw [List.take_append, List.take_of_length_le hkept]

/-- What the loop returns, from any of its rounds. -/
theorem threadRounds_eq (hnodup : (t.map (·.id)).Nodup) {limit rounds : Nat}
    {replies out : List TableRow} (hlen : replies.length ≤ limit)
    (h : threadRounds t root depthLimit limit rounds cursor replies = .ok out) :
    out = replies ++ (((thread root depthLimit cursor).rows t).filter
      (·.reconstructs)).take (limit - replies.length) := by
  induction rounds generalizing cursor replies with
  | zero => cases h
  | succ rounds ih =>
      unfold threadRounds page at h
      dsimp only at h
      generalize hremaining : limit - replies.length = remaining at h ⊢
      generalize hrows : (thread root depthLimit cursor).rows t = rows at h ⊢
      have hraw : (rows.take remaining).length ≤ remaining := List.length_take_le _ _
      have hkept : ((rows.take remaining).filter (·.reconstructs)).length ≤
          (rows.take remaining).length := List.length_filter_le _ _
      rw [take_filter]
      split at h
      · next hzero =>
          cases h
          subst hzero
          simp
      · split at h
        · cases h
        · split at h
          · next hends =>
              cases h
              rw [List.length_append] at hends
              -- Nothing is left behind a short page, and a full one needs nothing.
              rcases hends with hshort | hfull
              · rw [List.length_take] at hshort
                rw [List.drop_of_length_le (by omega), List.filter_nil, List.take_nil,
                  List.append_nil]
              · rw [show remaining - ((rows.take remaining).filter (·.reconstructs)).length = 0
                  by omega, List.take_zero, List.append_nil]
          · next hmore =>
              rw [List.length_append, not_or] at hmore
              have hnext := ih (by rw [List.length_append]; omega) h
              obtain ⟨last, hlast⟩ : ∃ last, (rows.take remaining).getLast? = some last := by
                cases hget : (rows.take remaining).getLast? with
                | some last => exact ⟨last, rfl⟩
                | none =>
                    rw [List.getLast?_eq_none_iff] at hget
                    rw [hget, List.length_nil] at hmore
                    omega
              rw [hlast, Option.elim_some, thread_rows_next hnodup (hrows ▸ hlast), hrows,
                List.length_append] at hnext
              rw [hnext, List.append_assoc,
                show limit - (replies.length + ((rows.take remaining).filter
                  (·.reconstructs)).length) = remaining -
                    ((rows.take remaining).filter (·.reconstructs)).length by omega]

/-- A thread page is the first `limit` rows after the cursor that become
answers. -/
theorem getThreadRepliesOn_eq (hnodup : (t.map (·.id)).Nodup) {limit : Nat}
    {cursor : Option (List UInt8)} {replies : List TableRow}
    (h : getThreadRepliesOn t root depthLimit limit cursor = .ok replies) :
    replies = (thread root depthLimit (cursor.bind decodeCursor)).answers limit t := by
  have hout := threadRounds_eq hnodup (Nat.zero_le _) h
  have hfilter : t.filter (thread root depthLimit (cursor.bind decodeCursor)).wanted =
      (t.filter (thread root depthLimit (cursor.bind decodeCursor)).selects).filter
        (·.reconstructs) := by
    rw [List.filter_filter]
    exact List.filter_congr fun row _ => Bool.and_comm _ _
  rw [hout, List.nil_append]
  unfold answers
  rw [hfilter, mergeSort_filter (order_totalOrder _) (nodup_keys hnodup _)]
  rfl

end ThreadRounds

end Buzz.Db
