import Buzz.Db.EventQuery

/-!
# Stored rows

What every stored row is, read off its insert, and the order of a page.
-/

namespace Buzz.Db

open Buzz.Core

/-- An accepted insert: the kind is storable, the time is a `timestamptz`, no
tag holds a NUL, and the columns are those of the event. -/
theorem insertEvent_eq_ok {event : Event} {channelId : Option Uuid} {columns : Columns}
    (h : insertEvent event channelId = .ok columns) :
    eventKind event ≠ kindAuth ∧ isEphemeral (eventKind event) = false ∧
    fromTimestamp (secsAsI64 event.createdAt) = some (secsAsI64 event.createdAt) ∧
    minTimestamptz ≤ secsAsI64 event.createdAt ∧
    (∀ t ∈ event.tags, ∀ s ∈ t.asSlice, hasNul s = false) ∧
    columns = {
      id := event.id
      pubkey := event.pubkey
      createdAt := secsAsI64 event.createdAt
      kind := eventKind event
      tags := event.tags
      channelId := channelId
      dTag := extractDTag event
      mentions := mentionKeys event } := by
  simp only [insertEvent] at h
  split at h
  · cases h
  next hauth =>
  split at h
  · cases h
  next heph =>
  split at h
  · cases h
  next secs htime =>
  have hsecs : secs = secsAsI64 event.createdAt := by
    simp only [fromTimestamp] at htime
    split at htime
    · exact (Option.some.inj htime).symm
    · cases htime
  subst hsecs
  split at h
  · cases h
  next hmin =>
  split at h
  · cases h
  next hnul =>
  refine ⟨hauth, by simpa using heph, htime, by omega, ?_, (Except.ok.inj h).symm⟩
  simpa using hnul

theorem columns_eq (row : StoredRow) : row.columns = {
    id := row.event.id
    pubkey := row.event.pubkey
    createdAt := secsAsI64 row.event.createdAt
    kind := eventKind row.event
    tags := row.event.tags
    channelId := row.channelId
    dTag := extractDTag row.event
    mentions := mentionKeys row.event } :=
  (insertEvent_eq_ok row.inserted).2.2.2.2.2

theorem columns_channelId (row : StoredRow) : row.columns.channelId = row.channelId := by
  rw [columns_eq]

theorem rows_nodup (db : EventStore) : db.rows.Nodup := List.Nodup.of_map _ db.nodup

/-- A stream message stored under `ch`. -/
def messageIn (ch : Uuid) : StoredRow where
  event := ⟨.ofByte 7, .ofByte 7, 0, 9, []⟩
  channelId := some ch
  columns := ⟨.ofByte 7, .ofByte 7, 0, 9, [], some ch, none, []⟩
  inserted := rfl

def oneMessage (ch : Uuid) : EventStore := ⟨[messageIn ch], by simp⟩

/-! ## The page order -/

theorem pageOrder_trans (a b c : StoredRow) (hab : pageOrder a b = true)
    (hbc : pageOrder b c = true) : pageOrder a c = true := by
  simp only [pageOrder, Bool.or_eq_true, Bool.and_eq_true, decide_eq_true_eq,
    beq_iff_eq] at *
  rcases hab with hab | ⟨hab, hid⟩ <;> rcases hbc with hbc | ⟨hbc, hid'⟩
  · exact .inl (by omega)
  · exact .inl (by omega)
  · exact .inl (by omega)
  · exact .inr ⟨by omega, List.le_trans hid hid'⟩

theorem pageOrder_total (a b : StoredRow) : (pageOrder a b || pageOrder b a) = true := by
  simp only [pageOrder, Bool.or_eq_true, Bool.and_eq_true, decide_eq_true_eq, beq_iff_eq]
  rcases Int.lt_trichotomy a.columns.createdAt b.columns.createdAt with hlt | heq | hgt
  · exact .inr (.inl hlt)
  · rcases List.le_total a.columns.id.bytes b.columns.id.bytes with hle | hle
    · exact .inl (.inr ⟨heq, hle⟩)
    · exact .inr (.inr ⟨heq.symm, hle⟩)
  · exact .inl (.inl hgt)

/-- The page order is strict on rows of one store: ids are unique. -/
theorem pageOrder_antisymm {db : EventStore} {a b : StoredRow} (ha : a ∈ db.rows)
    (hb : b ∈ db.rows) (hab : pageOrder a b = true) (hba : pageOrder b a = true) :
    a = b := by
  simp only [pageOrder, Bool.or_eq_true, Bool.and_eq_true, decide_eq_true_eq,
    beq_iff_eq] at hab hba
  have hid : a.columns.id.bytes = b.columns.id.bytes := by
    rcases hab with hab | ⟨hab, hle⟩ <;> rcases hba with hba | ⟨hba, hle'⟩
    · omega
    · omega
    · omega
    · exact List.le_antisymm hle hle'
  rw [columns_eq a, columns_eq b] at hid
  exact List.inj_on_of_nodup_map db.nodup ha hb (Bytes32.ext hid)

end Buzz.Db
