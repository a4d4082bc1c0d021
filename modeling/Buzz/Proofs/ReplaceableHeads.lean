import Buzz.Db.Replaceable

/-!
# Replaceable heads converge

Both writers compare an incoming event with the live head by
`created_at DESC, id ASC`, which is a linear order on versions, so the head is
the greatest version put in order so far, whatever the order of the calls. The
lock keeps the comparison true until the write: the holder's event stays above
every live row, because only a deletion can move them meanwhile.

A deletion takes the head away and with it the comparison. For read state the
watermark stands in: it is never below an accepted read-state event, and a
call that writes one was compared with it too.
-/

namespace Buzz.Db

open Buzz.Core Buzz.Lib HeadRun

/-! ## The order of versions -/

theorem Version.key_injective : Function.Injective Version.key := by
  intro v w h
  have hpair := toLex_inj.1 h
  have hid := Shell.byteValues_injective (OrderDual.toDual_inj.1 (congrArg Prod.snd hpair))
  cases v
  cases w
  exact (Version.mk.injEq ..).mpr ⟨congrArg Prod.fst hpair, Bytes32.ext hid⟩

theorem Version.dominated_iff {incoming accepted : Version} :
    incoming.dominated accepted = true ↔ incoming.key ≤ accepted.key := by
  rw [Version.key, Version.key, Prod.Lex.toLex_le_toLex, OrderDual.toDual_le_toDual]
  simp [Version.dominated]

/-- What a writer makes of an event. -/
def headVersion (event : Event) : Version := ⟨secsAsI64 event.createdAt, event.id⟩

/-- The event replaces the other one: it is later, or of the same second with
the lower id. -/
def Beats (event other : Event) : Prop :=
  other.createdAt < event.createdAt ∨
    (event.createdAt = other.createdAt ∧
      Shell.byteValues event.id.bytes < Shell.byteValues other.id.bytes)

instance (event other : Event) : Decidable (Beats event other) :=
  inferInstanceAs (Decidable (_ ∨ _))

/-- Valid events that share a coordinate: the clock check of the ingest path
keeps `created_at` far inside the years chrono represents, and an id commits
to its event. -/
structure HeadPool (c : Coordinate) where
  events : List Event
  kind : ∀ e ∈ events, e.kind = c.kind
  pubkey : ∀ e ∈ events, e.pubkey = c.pubkey
  place : ∀ d, c.place = .dTag d → ∀ e ∈ events, extractDTag e = some d
  inRange : ∀ e ∈ events, e.createdAt.toNat ≤ 8210266876799
  ids : ∀ e ∈ events, ∀ e' ∈ events, e.id = e'.id → e = e'

namespace HeadPool

variable {c : Coordinate} (pool : HeadPool c)

/-- The move submits one of the events, under the coordinate's channel. -/
def draws : HeadMove → Prop
  | .read call _ => call.event ∈ pool.events ∧ ∀ id, c.place = .channel id → call.channelId = id
  | _ => True

variable {pool} {e e' : Event}

theorem secsAsI64_eq (he : e ∈ pool.events) :
    secsAsI64 e.createdAt = (e.createdAt.toNat : Int) := by
  have hrange := pool.inRange e he
  rw [secsAsI64, Int64.toInt, UInt64.toBitVec_toInt64, BitVec.toInt_eq_toNat_cond]
  have hbits : e.createdAt.toBitVec.toNat = e.createdAt.toNat := rfl
  rw [hbits, if_pos (by omega)]

theorem eq_of_version (he : e ∈ pool.events) (he' : e' ∈ pool.events)
    (h : (headVersion e).id = (headVersion e').id) : e = e' :=
  pool.ids e he e' he' h

theorem lt_iff_beats (he : e ∈ pool.events) (he' : e' ∈ pool.events) :
    (headVersion e').key < (headVersion e).key ↔ Beats e e' := by
  rw [Version.key, Version.key, Prod.Lex.toLex_lt_toLex, OrderDual.toDual_lt_toDual]
  show secsAsI64 e'.createdAt < secsAsI64 e.createdAt ∨
    secsAsI64 e'.createdAt = secsAsI64 e.createdAt ∧ _ ↔ _
  rw [secsAsI64_eq he, secsAsI64_eq he', Int.ofNat_lt, Int.ofNat_inj, ← UInt64.lt_iff_toNat_lt,
    UInt64.toNat_inj, Beats, eq_comm (a := e'.createdAt)]
  exact Iff.rfl

theorem eq_or_beats (he : e ∈ pool.events) (he' : e' ∈ pool.events)
    (h : (headVersion e').key ≤ (headVersion e).key) : e' = e ∨ Beats e e' := by
  rcases h.eq_or_lt with heq | hlt
  · exact .inl (eq_of_version he' he (congrArg Version.id (Version.key_injective heq)))
  · exact .inr ((lt_iff_beats he he').1 hlt)

end HeadPool

/-! ## One step -/

namespace HeadTables

variable {tables : HeadTables}

theorem mem_live {row : HeadRow} :
    row ∈ tables.live ↔ row ∈ tables.rows ∧ row.deleted = false := by
  simp [live]

theorem existing_of_live_nil (h : tables.live = []) : tables.existing = none := by
  simp [existing, h]

theorem existing_of_live_singleton {row : HeadRow} (h : tables.live = [row]) :
    tables.existing = some row.version := by
  simp [existing, h]

end HeadTables

/-- What a call is compared with: the live head, and the watermark if it is
read state. -/
def Coordinate.Compared (c : Coordinate) (tables : HeadTables) (event : Event) (v : Version) :
    Prop :=
  tables.existing = some v ∨ (c.readState event = true ∧ tables.watermark = some v)

/-- What the supersede leaves of the rows, the live ones no longer live. -/
structure Superseded (rows rest : List HeadRow) : Prop where
  deleted : ∀ row ∈ rest, row.deleted = true
  old : ∀ row ∈ rest, ∃ before ∈ rows, before.event = row.event ∧ before.version = row.version

/-- What a step can do to the coordinate. -/
inductive HeadStep (c : Coordinate) (s : HeadRun) : HeadMove → HeadRun → Prop
  | wait (m : HeadMove) : HeadStep c s m s
  | refused (call : ReplaceCall) (failed : Bool) (answer : ReplaceAnswer)
      (hnot : answer.inserted = false)
      (hplain : call.precondition = .unconditional → answer = .error ∨ answer.ordered = true)
      (hwhy : answer.ordered = true → ∃ v, c.Compared s.tables call.event v ∧
        (v.id = call.event.id ∨ (headVersion call.event).key ≤ v.key)) :
      HeadStep c s (.read call failed) (s.answer call answer)
  | locked (call : ReplaceCall) (failed : Bool) (hfree : s.holder = none)
      (habove : ∀ v, c.Compared s.tables call.event v → v.key < (headVersion call.event).key) :
      HeadStep c s (.read call failed)
        { s with holder := some ⟨call, secsAsI64 call.event.createdAt, s.tables.existing⟩ }
  | failed (r : Replacing) (hr : s.holder = some r) (failed : Bool) :
      HeadStep c s (.write failed) ({ s with holder := none }.answer r.call .error)
  | conflict (r : Replacing) (hr : s.holder = some r) (failed : Bool) (answer : ReplaceAnswer)
      (hnot : answer.inserted = false) (hordered : answer.ordered = true)
      (hrow : ∃ row ∈ s.tables.rows, row.version = r.incoming) :
      HeadStep c s (.write failed) ({ s with holder := none }.answer r.call answer)
  | replaced (r : Replacing) (hr : s.holder = some r) (failed : Bool) (answer : ReplaceAnswer)
      (hinserted : answer.inserted = true) (hordered : answer.ordered = true)
      (rest : List HeadRow) (row : HeadRow)
      (hrest : (r.existing = none → s.tables.live = []) → Superseded s.tables.rows rest)
      (hevent : row.event = r.call.event) (hcreated : row.createdAt = r.createdAt)
      (hlive : row.deleted = false) :
      HeadStep c s (.write failed) ({ s with
        tables := ⟨rest ++ [row],
          if c.readState r.call.event then some r.incoming else s.tables.watermark⟩
        holder := none }.answer r.call answer)
  | deleted (deletion : HeadDeletion) :
      HeadStep c s (.delete deletion) { s with tables := deleteHead s.tables deletion }

section Checks

variable {c : Coordinate} {tables : HeadTables} {call : ReplaceCall} {incoming : Version}
  {existing watermark : Option Version}

theorem revisionStatus_some {precondition : ParameterizedReplacePrecondition}
    {status : ParameterizedReplaceStatus}
    (h : revisionStatus precondition existing = some status) :
    precondition ≠ .unconditional ∧ (ReplaceAnswer.status status).inserted = false ∧
      (ReplaceAnswer.status status).ordered = false := by
  cases precondition with
  | unconditional => cases h
  | exactReplayOnly => cases h
  | expectedRevision expected =>
      refine ⟨by simp, ?_⟩
      cases existing with
      | none =>
          cases h
          exact ⟨rfl, rfl⟩
      | some head =>
          rw [revisionStatus] at h
          split at h
          · cases h
          · cases h
            exact ⟨rfl, rfl⟩

theorem checkParameterized_none
    (h : checkParameterized call incoming existing watermark = none) :
    ∀ v, existing = some v ∨ watermark = some v → v.key < incoming.key := by
  unfold checkParameterized at h
  split at h
  · cases h
  split at h
  · cases h
  split at h
  · cases h
  split at h
  · cases h
  next hnone =>
    intro v hv
    have hmem : v ∈ existing.toList ++ watermark.toList := by simpa using hv
    have hnot : ¬ incoming.dominated v = true := fun hdom =>
      hnone (List.any_eq_true.2 ⟨v, hmem, hdom⟩)
    rw [Version.dominated_iff] at hnot
    exact not_le.1 hnot

theorem checkParameterized_some {status : ParameterizedReplaceStatus}
    (h : checkParameterized call incoming existing watermark = some status) :
    (ReplaceAnswer.status status).inserted = false ∧
      (call.precondition = .unconditional → (ReplaceAnswer.status status).ordered = true) ∧
      ((ReplaceAnswer.status status).ordered = true →
        ∃ v, (existing = some v ∨ watermark = some v) ∧
          (v.id = incoming.id ∨ incoming.key ≤ v.key)) := by
  unfold checkParameterized at h
  split at h
  · next hdup =>
      cases h
      refine ⟨rfl, fun _ => rfl, fun _ => ?_⟩
      rw [Bool.or_eq_true] at hdup
      rcases hdup with hdup | hdup
      · obtain ⟨v, hv, hid⟩ := (Option.any_eq_true ..).1 hdup
        exact ⟨v, .inl hv, .inl (beq_iff_eq.1 hid)⟩
      · obtain ⟨v, hv, hid⟩ := (Option.any_eq_true ..).1 hdup
        exact ⟨v, .inr hv, .inl (beq_iff_eq.1 hid)⟩
  split at h
  · next hreplay =>
      cases h
      refine ⟨rfl, ?_, ?_⟩
      · intro hplain
        rw [hreplay] at hplain
        cases hplain
      · intro hordered
        cases hordered
  split at h
  · next refusal hrevision =>
      cases h
      obtain ⟨hpre, hnot, hordered⟩ := revisionStatus_some hrevision
      exact ⟨hnot, fun hplain => absurd hplain hpre, fun h => absurd h (by simp [hordered])⟩
  split at h
  · next hdom =>
      cases h
      refine ⟨rfl, fun _ => rfl, fun _ => ?_⟩
      obtain ⟨v, hv, hle⟩ := List.any_eq_true.1 hdom
      have hv : existing = some v ∨ watermark = some v := by simpa using hv
      exact ⟨v, hv, .inr (Version.dominated_iff.1 hle)⟩
  · cases h

/-- The checks before a write, for either writer. -/
theorem Coordinate.check_none (h : c.check tables call incoming = none) :
    ∀ v, c.Compared tables call.event v → v.key < incoming.key := by
  intro v hv
  unfold Coordinate.check at h
  unfold Coordinate.Compared Coordinate.readState at hv
  split at h
  · next dTag hplace =>
      rw [hplace] at hv
      refine checkParameterized_none (Option.map_eq_none_iff.1 h) v ?_
      rcases hv with hv | ⟨hshape, hv⟩
      · exact .inl hv
      · have hshape : isNipRs call.event dTag = true := hshape
        exact .inr (by rw [if_pos hshape]; exact hv)
  · next id hplace =>
      rw [hplace] at hv
      have hnone := Option.map_eq_none_iff.1 h
      unfold checkAddressable at hnone
      split at hnone
      · cases hnone
      next hnot =>
        rcases hv with hv | ⟨hshape, -⟩
        · rw [hv] at hnot
          have hnot : ¬ incoming.dominated v = true := hnot
          rw [Version.dominated_iff] at hnot
          exact not_le.1 hnot
        · cases hshape

theorem Coordinate.check_some {answer : ReplaceAnswer}
    (h : c.check tables call incoming = some answer) :
    answer.inserted = false ∧
      (call.precondition = .unconditional → answer.ordered = true) ∧
      (answer.ordered = true → ∃ v, c.Compared tables call.event v ∧
        (v.id = incoming.id ∨ incoming.key ≤ v.key)) := by
  unfold Coordinate.check at h
  unfold Coordinate.Compared Coordinate.readState
  split at h
  · next dTag hplace =>
      obtain ⟨status, hstatus, rfl⟩ := Option.map_eq_some_iff.1 h
      obtain ⟨hnot, hplain, hwhy⟩ := checkParameterized_some hstatus
      refine ⟨hnot, hplain, fun hordered => ?_⟩
      obtain ⟨v, hv, hle⟩ := hwhy hordered
      refine ⟨v, ?_, hle⟩
      rcases hv with hv | hv
      · exact .inl hv
      · split at hv
        · next hshape => exact .inr ⟨hshape, hv⟩
        · cases hv
  · next id hplace =>
      obtain ⟨was, hwas, rfl⟩ := Option.map_eq_some_iff.1 h
      unfold checkAddressable at hwas
      split at hwas
      · next hdom =>
          cases hwas
          refine ⟨rfl, fun _ => rfl, fun _ => ?_⟩
          obtain ⟨v, hv, hle⟩ := (Option.any_eq_true ..).1 hdom
          exact ⟨v, .inl hv, .inr (Version.dominated_iff.1 hle)⟩
      · cases hwas

end Checks

section Writes

variable {tables : HeadTables} {rows rest : List HeadRow} {row : HeadRow} {r : Replacing}

theorem superseded_softDeleteLive (rows : List HeadRow) :
    Superseded rows (softDeleteLive rows) := by
  constructor
  · intro row hrow
    obtain ⟨before, -, rfl⟩ := List.mem_map.1 hrow
    split
    · assumption
    · rfl
  · intro row hrow
    obtain ⟨before, hbefore, rfl⟩ := List.mem_map.1 hrow
    refine ⟨before, hbefore, ?_⟩
    split
    · exact ⟨rfl, rfl⟩
    · exact ⟨rfl, rfl⟩

theorem superseded_hardDeleteLive (rows : List HeadRow) :
    Superseded rows (hardDeleteLive rows) := by
  constructor
  · intro row hrow
    exact (List.mem_filter.1 hrow).2
  · intro row hrow
    exact ⟨row, (List.mem_filter.1 hrow).1, rfl, rfl⟩

/-- With no live row there is nothing to supersede. -/
theorem superseded_self (h : tables.live = []) : Superseded tables.rows tables.rows := by
  constructor
  · intro row hrow
    have hnot : row ∉ tables.live := by rw [h]; exact List.not_mem_nil
    rw [HeadTables.mem_live] at hnot
    simpa [hrow] using hnot
  · intro row hrow
    exact ⟨row, hrow, rfl, rfl⟩

theorem insertHead_some (h : insertHead rows row = some rest) : rest = rows ++ [row] := by
  unfold insertHead at h
  split at h
  · cases h
  · exact (Option.some.inj h).symm

theorem insertHead_none (h : insertHead rows row = none) :
    ∃ old ∈ rows, old.version = row.version := by
  unfold insertHead at h
  split at h
  · next hany =>
      obtain ⟨old, hold, hversion⟩ := List.any_eq_true.1 hany
      exact ⟨old, hold, beq_iff_eq.1 hversion⟩
  · cases h

/-- A write that conflicted: a row of this version was there. -/
theorem old_of_insertHead_none (hrest : Superseded rows rest) (h : insertHead rest row = none) :
    ∃ old ∈ rows, old.version = row.version := by
  obtain ⟨old, hold, hversion⟩ := insertHead_none h
  obtain ⟨before, hbefore, -, hsame⟩ := hrest.old old hold
  exact ⟨before, hbefore, hsame.trans hversion⟩

theorem supersede_of_isSome {dTag : String} (h : r.existing.isSome = true) :
    Superseded rows (supersede rows r dTag) := by
  unfold supersede
  rw [if_pos h]
  split
  · exact superseded_hardDeleteLive rows
  · exact superseded_softDeleteLive rows

theorem supersede_of_none {dTag : String} (h : r.existing = none) :
    supersede rows r dTag = rows := by
  simp [supersede, h]

end Writes

section Steps

variable {c : Coordinate} {s : HeadRun}

theorem Coordinate.read_spec (call : ReplaceCall) (failed : Bool) :
    HeadStep c s (.read call failed) (c.read s call failed) := by
  have herror : HeadStep c s (.read call failed) (s.answer call .error) :=
    .refused call failed .error rfl (fun _ => .inl rfl) fun h => nomatch h
  unfold Coordinate.read
  split
  · exact herror
  next createdAt hcreated =>
  have hcreated : createdAt = secsAsI64 call.event.createdAt := by
    unfold fromTimestamp at hcreated
    split at hcreated
    · exact (Option.some.inj hcreated).symm
    · cases hcreated
  subst hcreated
  split
  · exact herror
  split
  · exact .wait _
  next hfree =>
  split
  · next answer hanswer =>
      obtain ⟨hnot, hplain, hwhy⟩ := c.check_some hanswer
      exact .refused call failed answer hnot (fun h => .inr (hplain h)) hwhy
  · next hnone => exact .locked call failed hfree (c.check_none hnone)

theorem Coordinate.write_spec (failed : Bool) :
    HeadStep c s (.write failed) (c.write s failed) := by
  unfold Coordinate.write
  split
  · exact .wait _
  next r hr =>
  split
  · exact .failed r hr failed
  unfold Coordinate.writeHead
  split
  · next dTag hplace =>
      have hshape : c.readState r.call.event = isNipRs r.call.event dTag := by
        rw [Coordinate.readState, hplace]
      unfold writeParameterized
      dsimp only
      split
      · next hconflict =>
          have hrow : ∃ row ∈ s.tables.rows, row.version = r.incoming := by
            cases hexisting : r.existing with
            | none =>
                rw [supersede_of_none hexisting] at hconflict
                exact insertHead_none hconflict
            | some head =>
                have hrest : Superseded s.tables.rows (supersede s.tables.rows r dTag) :=
                  supersede_of_isSome (by rw [hexisting]; rfl)
                exact old_of_insertHead_none hrest hconflict
          exact .conflict r hr failed (.status .duplicate) rfl rfl hrow
      · next rows hrows =>
          cases insertHead_some hrows
          have hrest : (r.existing = none → s.tables.live = []) →
              Superseded s.tables.rows (supersede s.tables.rows r dTag) := by
            intro hempty
            cases hexisting : r.existing with
            | none =>
                rw [supersede_of_none hexisting]
                exact superseded_self (hempty hexisting)
            | some head => exact supersede_of_isSome (by rw [hexisting]; rfl)
          have hstep := HeadStep.replaced (c := c) r hr failed (.status .inserted) rfl rfl
            (supersede s.tables.rows r dTag)
            ⟨r.call.event, r.createdAt, r.call.channelId, some dTag, false⟩ hrest rfl rfl rfl
          rw [hshape] at hstep
          exact hstep
  · next id hplace =>
      have hshape : c.readState r.call.event = false := by
        rw [Coordinate.readState, hplace]
      unfold writeAddressable
      dsimp only
      split
      · next hconflict =>
          have hrow := old_of_insertHead_none (superseded_softDeleteLive _) hconflict
          exact .conflict r hr failed (.wasInserted false) rfl rfl hrow
      · next rows hrows =>
          cases insertHead_some hrows
          have hstep := HeadStep.replaced (c := c) r hr failed (.wasInserted true) rfl rfl
            (softDeleteLive s.tables.rows)
            ⟨r.call.event, r.createdAt, id, extractDTag r.call.event, false⟩
            (fun _ => superseded_softDeleteLive _) rfl rfl rfl
          rw [hshape] at hstep
          exact hstep

theorem Coordinate.step_spec (m : HeadMove) : HeadStep c s m (c.stepHead s m) := by
  cases m with
  | read call failed => exact c.read_spec call failed
  | write failed => exact c.write_spec failed
  | delete deletion => exact .deleted deletion

end Steps

/-! ## Whole runs -/

namespace HeadRun

/-- The events reported as inserted. -/
def accepted (s : HeadRun) : List Event :=
  (s.answers.filter fun told => told.2.inserted).map fun told => told.1.event

/-- The events of the calls that were put in order with the head. -/
def settled (s : HeadRun) : List Event :=
  (s.answers.filter fun told => told.2.ordered).map fun told => told.1.event

variable {s : HeadRun} {call : ReplaceCall} {answer : ReplaceAnswer} {e : Event}

theorem mem_accepted_answer :
    e ∈ (s.answer call answer).accepted ↔
      e ∈ s.accepted ∨ (answer.inserted = true ∧ e = call.event) := by
  cases h : answer.inserted <;> simp [accepted, HeadRun.answer, List.filter_append, h]

theorem mem_settled_answer :
    e ∈ (s.answer call answer).settled ↔
      e ∈ s.settled ∨ (answer.ordered = true ∧ e = call.event) := by
  cases h : answer.ordered <;> simp [settled, HeadRun.answer, List.filter_append, h]

@[simp] theorem answer_tables : (s.answer call answer).tables = s.tables := rfl

@[simp] theorem answer_holder : (s.answer call answer).holder = s.holder := rfl

end HeadRun

/-- The rows after a deletion: each was there, and is live only if it was. -/
theorem mem_deleteHead {tables : HeadTables} {deletion : HeadDeletion} {row : HeadRow}
    (h : row ∈ (deleteHead tables deletion).rows) :
    ∃ before ∈ tables.rows, before.event = row.event ∧ before.version = row.version ∧
      (row.deleted = false → row = before) := by
  obtain ⟨before, hbefore, rfl⟩ := List.mem_map.1 h
  refine ⟨before, List.mem_of_mem_filter hbefore, ?_⟩
  split
  · exact ⟨rfl, rfl, fun h => nomatch h⟩
  · exact ⟨rfl, rfl, fun _ => rfl⟩

/-- Rows dropped or marked leave the live ones a part of what they were. -/
theorem live_marked_sublist (rows : List HeadRow) (isKept isMarked : HeadRow → Bool) :
    (((rows.filter isKept).map fun row => if isMarked row then row.softDelete else row).filter
      fun row => !row.deleted).Sublist (rows.filter fun row => !row.deleted) := by
  induction rows with
  | nil => exact List.Sublist.refl _
  | cons row rows ih =>
      have hcons : (rows.filter fun row => !row.deleted).Sublist
          ((row :: rows).filter fun row => !row.deleted) :=
        (List.sublist_cons_self row rows).filter _
      cases hkept : isKept row with
      | false => simpa [List.filter_cons, hkept] using ih.trans hcons
      | true =>
          cases hmarked : isMarked row with
          | true =>
              rw [List.filter_cons_of_pos hkept, List.map_cons, if_pos hmarked,
                List.filter_cons_of_neg (by simp [HeadRow.softDelete])]
              exact ih.trans hcons
          | false =>
              rw [List.filter_cons_of_pos hkept, List.map_cons, if_neg (by simp [hmarked])]
              cases hdeleted : row.deleted with
              | true => simpa [List.filter_cons, hdeleted] using ih
              | false => simpa [List.filter_cons, hdeleted] using ih

theorem live_deleteHead_sublist (tables : HeadTables) (deletion : HeadDeletion) :
    (deleteHead tables deletion).live.Sublist tables.live :=
  live_marked_sublist tables.rows _ _

/-- After a replacement the new row is the live one. -/
theorem live_replaced {rows rest : List HeadRow} {row : HeadRow} {mark : Option Version}
    (hrest : Superseded rows rest) (hrow : row.deleted = false) :
    HeadTables.live ⟨rest ++ [row], mark⟩ = [row] := by
  have hnone : rest.filter (fun row => !row.deleted) = [] := by
    rw [List.filter_eq_nil_iff]
    intro old hold
    simp [hrest.deleted old hold]
  simp [HeadTables.live, List.filter_append, hnone, hrow]

/-- The holder of the lock, with the live rows it selected and its event above
everything it was compared with. -/
structure Holding (c : Coordinate) (pool : HeadPool c) (tables : HeadTables) (r : Replacing) :
    Prop where
  event : r.call.event ∈ pool.events
  createdAt : r.createdAt = secsAsI64 r.call.event.createdAt
  selected : ∀ row ∈ tables.live, r.existing = some row.version
  above : ∀ row ∈ tables.live, row.version.key < r.incoming.key
  aboveMark : c.readState r.call.event = true →
    ∀ mark, tables.watermark = some mark → mark.key < r.incoming.key

/-- What every run keeps, deletions or not. -/
structure HeadSound (c : Coordinate) (pool : HeadPool c) (s : HeadRun) : Prop where
  event : ∀ row ∈ s.tables.rows, row.event ∈ pool.events
  version : ∀ row ∈ s.tables.rows, row.version = headVersion row.event
  single : s.tables.live.length ≤ 1
  holding : ∀ r, s.holder = some r → Holding c pool s.tables r
  mark : ∀ mark, s.tables.watermark = some mark → ∃ e ∈ pool.events, mark = headVersion e
  acceptedPool : ∀ e ∈ s.accepted, e ∈ pool.events
  accepted : ∀ e ∈ s.accepted, c.readState e = true →
    ∃ mark, s.tables.watermark = some mark ∧ (headVersion e).key ≤ mark.key
  liveMark : ∀ row ∈ s.tables.live, c.readState row.event = true →
    s.tables.watermark = some row.version

namespace HeadSound

variable {c : Coordinate} {pool : HeadPool c} {s s' : HeadRun} {m : HeadMove}

theorem start : HeadSound c pool c.machine.init where
  event := by intro row h; cases h
  version := by intro row h; cases h
  single := Nat.zero_le _
  holding := by intro r h; cases h
  mark := by intro mark h; cases h
  acceptedPool := by intro e h; cases h
  accepted := by intro e h; cases h
  liveMark := by intro row h; cases h

section

variable (hs : HeadSound c pool s)
include hs

/-- An answer other than `inserted` changes nothing else. -/
theorem answer {call : ReplaceCall} {answer : ReplaceAnswer}
    (hnot : answer.inserted = false) :
    HeadSound c pool (s.answer call answer) := by
  have hsame : ∀ e, e ∈ (s.answer call answer).accepted → e ∈ s.accepted := by
    intro e he
    rw [mem_accepted_answer, hnot] at he
    simpa using he
  exact { hs with
    acceptedPool := fun e he => hs.acceptedPool e (hsame e he)
    accepted := fun e he => hs.accepted e (hsame e he) }

theorem release : HeadSound c pool { s with holder := none } :=
  { hs with holding := by intro r h; cases h }

theorem existing_of_mem_live {row : HeadRow} (hrow : row ∈ s.tables.live) :
    s.tables.existing = some row.version := by
  have hsingle : s.tables.live = [row] := by
    match hlive : s.tables.live, hs.single with
    | [], _ => rw [hlive] at hrow; cases hrow
    | [only], _ =>
        rw [hlive, List.mem_singleton] at hrow
        rw [hrow]
  exact HeadTables.existing_of_live_singleton hsingle

theorem locked {call : ReplaceCall} (hcall : call.event ∈ pool.events)
    (habove : ∀ v, c.Compared s.tables call.event v → v.key < (headVersion call.event).key) :
    HeadSound c pool
      { s with holder := some ⟨call, secsAsI64 call.event.createdAt, s.tables.existing⟩ } := by
  refine { hs with holding := ?_ }
  intro r hr
  cases hr
  exact {
    event := hcall
    createdAt := rfl
    selected := fun row hrow => hs.existing_of_mem_live hrow
    above := fun row hrow => habove _ (.inl (hs.existing_of_mem_live hrow))
    aboveMark := fun hshape mark hmark => habove mark (.inr ⟨hshape, hmark⟩) }

theorem replaced {r : Replacing} (hr : s.holder = some r)
    {answer : ReplaceAnswer} {rest : List HeadRow} {row : HeadRow}
    (hrest : Superseded s.tables.rows rest) (hevent : row.event = r.call.event)
    (hcreated : row.createdAt = r.createdAt) (hlive : row.deleted = false) :
    HeadSound c pool ({ s with
      tables := ⟨rest ++ [row],
        if c.readState r.call.event then some r.incoming else s.tables.watermark⟩
      holder := none }.answer r.call answer) := by
  have hheld := hs.holding r hr
  have hversion : row.version = headVersion row.event := by
    rw [HeadRow.version, headVersion, hcreated, hheld.createdAt, hevent]
  have hincoming : r.incoming = headVersion r.call.event := by
    rw [Replacing.incoming, headVersion, hheld.createdAt]
  refine ⟨?_, ?_, ?_, ?_, ?_, ?_, ?_, ?_⟩
  · intro old hold
    rcases List.mem_append.1 hold with hold | hold
    · obtain ⟨before, hbefore, hsame, -⟩ := hrest.old old hold
      rw [← hsame]
      exact hs.event before hbefore
    · rw [List.mem_singleton.1 hold, hevent]
      exact hheld.event
  · intro old hold
    rcases List.mem_append.1 hold with hold | hold
    · obtain ⟨before, hbefore, hsame, hsame'⟩ := hrest.old old hold
      rw [← hsame, ← hsame']
      exact hs.version before hbefore
    · rw [List.mem_singleton.1 hold]
      exact hversion
  · rw [answer_tables, live_replaced hrest hlive]
    exact Nat.le_refl 1
  · intro r' h
    cases h
  · intro mark hmark
    rw [answer_tables] at hmark
    split at hmark
    · cases hmark
      exact ⟨r.call.event, hheld.event, hincoming⟩
    · exact hs.mark mark hmark
  · intro e he
    rcases mem_accepted_answer.1 he with he | ⟨-, rfl⟩
    · exact hs.acceptedPool e he
    · exact hheld.event
  · intro e he hshape
    rw [answer_tables]
    rcases mem_accepted_answer.1 he with he | ⟨-, rfl⟩
    · obtain ⟨mark, hmark, hle⟩ := hs.accepted e he hshape
      split
      · next hshape' => exact ⟨r.incoming, rfl, hle.trans (hheld.aboveMark hshape' mark hmark).le⟩
      · exact ⟨mark, hmark, hle⟩
    · rw [if_pos hshape]
      exact ⟨r.incoming, rfl, by rw [hincoming]⟩
  · intro old hold hshape
    rw [answer_tables, live_replaced hrest hlive, List.mem_singleton] at hold
    rw [hold, hevent] at hshape
    rw [answer_tables, if_pos hshape, hold, hversion, hevent, hincoming]

theorem deleted (deletion : HeadDeletion) :
    HeadSound c pool { s with tables := deleteHead s.tables deletion } := by
  have hlive := live_deleteHead_sublist s.tables deletion
  refine { hs with event := ?_, version := ?_, single := ?_, holding := ?_, liveMark := ?_ }
  · intro row hrow
    obtain ⟨before, hbefore, hsame, -⟩ := mem_deleteHead hrow
    rw [← hsame]
    exact hs.event before hbefore
  · intro row hrow
    obtain ⟨before, hbefore, hsame, hsame', -⟩ := mem_deleteHead hrow
    rw [← hsame, ← hsame']
    exact hs.version before hbefore
  · exact hlive.length_le.trans hs.single
  · intro r hr
    have hheld := hs.holding r hr
    exact { hheld with
      selected := fun row hrow => hheld.selected row (hlive.subset hrow)
      above := fun row hrow => hheld.above row (hlive.subset hrow) }
  · intro row hrow
    exact hs.liveMark row (hlive.subset hrow)

/-- The holder superseded whatever was live. -/
theorem superseded {r : Replacing} (hr : s.holder = some r) :
    r.existing = none → s.tables.live = [] := by
  intro hnone
  refine List.eq_nil_iff_forall_not_mem.2 fun row hrow => ?_
  have hsome := (hs.holding r hr).selected row hrow
  rw [hnone] at hsome
  cases hsome

theorem step (hm : pool.draws m) (h : HeadStep c s m s') :
    HeadSound c pool s' := by
  cases h with
  | wait => exact hs
  | refused call failed answer hnot hplain hwhy => exact hs.answer hnot
  | locked call failed hfree habove => exact hs.locked hm.1 habove
  | failed r hr failed => exact hs.release.answer rfl
  | conflict r hr failed answer hnot hordered hrow => exact hs.release.answer hnot
  | replaced r hr failed answer hinserted hordered rest row hrest hevent hcreated hlive =>
      exact hs.replaced hr (hrest (hs.superseded hr)) hevent hcreated hlive
  | deleted deletion => exact hs.deleted deletion

end

end HeadSound

/-! ## Without deletions -/

/-- What stands at the coordinate when nothing was deleted: nothing at all, or
one head above everything that was put in order with it. -/
def HeadTables.Topped (tables : HeadTables) (settled : List Event) : Prop :=
  (tables = ⟨[], none⟩ ∧ settled = []) ∨
    ∃ head, tables.live = [head] ∧ head.event ∈ settled ∧
      (∀ row ∈ tables.rows, row.version.key ≤ head.version.key) ∧
      (∀ mark, tables.watermark = some mark → mark.key ≤ head.version.key) ∧
      ∀ e ∈ settled, (headVersion e).key ≤ head.version.key

/-- What a run without deletions keeps as well. -/
structure HeadConverged (c : Coordinate) (pool : HeadPool c) (s : HeadRun) : Prop where
  sound : HeadSound c pool s
  topped : s.tables.Topped s.settled
  settledPool : ∀ e ∈ s.settled, e ∈ pool.events

namespace HeadConverged

variable {c : Coordinate} {pool : HeadPool c} {s s' : HeadRun} {m : HeadMove}
  {answer : ReplaceAnswer}

theorem start : HeadConverged c pool c.machine.init where
  sound := .start
  topped := .inl ⟨rfl, rfl⟩
  settledPool := by intro e h; cases h

section

variable (hs : HeadConverged c pool s)
include hs

/-- An answer to an event that is not above the head. -/
theorem topped_answer {call : ReplaceCall}
    (hbelow : answer.ordered = true →
      ∃ head, s.tables.live = [head] ∧ (headVersion call.event).key ≤ head.version.key) :
    s.tables.Topped (s.answer call answer).settled := by
  rcases hs.topped with ⟨hempty, hnone⟩ | ⟨head, hlive, hmem, hrows, hmark, hall⟩
  · refine .inl ⟨hempty, List.eq_nil_iff_forall_not_mem.2 fun e he => ?_⟩
    rcases mem_settled_answer.1 he with he | ⟨hordered, -⟩
    · rw [hnone] at he
      cases he
    · obtain ⟨head, hlive, -⟩ := hbelow hordered
      rw [hempty] at hlive
      cases hlive
  · refine .inr ⟨head, hlive, mem_settled_answer.2 (.inl hmem), hrows, hmark, ?_⟩
    intro e he
    rcases mem_settled_answer.1 he with he | ⟨hordered, rfl⟩
    · exact hall e he
    · obtain ⟨head', hlive', hle⟩ := hbelow hordered
      rw [hlive] at hlive'
      cases hlive'
      exact hle

theorem settledPool_answer {call : ReplaceCall}
    (hcall : call.event ∈ pool.events) :
    ∀ e ∈ (s.answer call answer).settled, e ∈ pool.events := by
  intro e he
  rcases mem_settled_answer.1 he with he | ⟨-, rfl⟩
  · exact hs.settledPool e he
  · exact hcall

/-- What a call is compared with lies at or below the head, and a version of
the same id is the call's own. -/
theorem compared_le_head {e : Event} (he : e ∈ pool.events) {v : Version}
    (hv : c.Compared s.tables e v)
    (hle : v.id = e.id ∨ (headVersion e).key ≤ v.key) :
    ∃ head, s.tables.live = [head] ∧ (headVersion e).key ≤ head.version.key := by
  rcases hs.topped with ⟨hempty, -⟩ | ⟨head, hlive, hmem, hrows, hmark, -⟩
  · rcases hv with hv | ⟨-, hv⟩
    · rw [HeadTables.existing_of_live_nil (by rw [hempty]; rfl)] at hv
      cases hv
    · rw [hempty] at hv
      cases hv
  · refine ⟨head, hlive, ?_⟩
    have hhead : head ∈ s.tables.rows := (HeadTables.mem_live.1 (by rw [hlive]; simp)).1
    -- The version is one of an event of the pool, and at most the head's.
    have hknown : ∃ e' ∈ pool.events, v = headVersion e' ∧ v.key ≤ head.version.key := by
      rcases hv with hv | ⟨-, hv⟩
      · rw [HeadTables.existing_of_live_singleton hlive] at hv
        cases hv
        exact ⟨head.event, hs.sound.event head hhead, hs.sound.version head hhead, le_refl _⟩
      · obtain ⟨e', he', heq⟩ := hs.sound.mark v hv
        exact ⟨e', he', heq, hmark v hv⟩
    obtain ⟨e', he', rfl, hbelow⟩ := hknown
    rcases hle with hid | hle
    · rw [pool.ids e he e' he' hid.symm]
      exact hbelow
    · exact hle.trans hbelow

theorem replaced {r : Replacing} (hr : s.holder = some r)
    (hordered : answer.ordered = true) {rest : List HeadRow} {row : HeadRow}
    (hrest : Superseded s.tables.rows rest) (hevent : row.event = r.call.event)
    (hcreated : row.createdAt = r.createdAt) (hlive : row.deleted = false) :
    HeadConverged c pool ({ s with
      tables := ⟨rest ++ [row],
        if c.readState r.call.event then some r.incoming else s.tables.watermark⟩
      holder := none }.answer r.call answer) := by
  have hheld := hs.sound.holding r hr
  have hversion : row.version = r.incoming := by
    rw [HeadRow.version, Replacing.incoming, hcreated, hevent]
  have hincoming : r.incoming = headVersion r.call.event := by
    rw [Replacing.incoming, headVersion, hheld.createdAt]
  -- Whatever was at most the old head is below the new one.
  have habove : ∀ head, s.tables.live = [head] → head.version.key ≤ row.version.key := by
    intro head hhead
    rw [hversion]
    exact (hheld.above head (by rw [hhead]; simp)).le
  refine ⟨hs.sound.replaced hr hrest hevent hcreated hlive, .inr ⟨row, ?_, ?_, ?_, ?_, ?_⟩, ?_⟩
  · exact live_replaced hrest hlive
  · exact mem_settled_answer.2 (.inr ⟨hordered, hevent⟩)
  · intro old hold
    rcases List.mem_append.1 hold with hold | hold
    · obtain ⟨before, hbefore, -, hsame⟩ := hrest.old old hold
      rw [← hsame]
      rcases hs.topped with ⟨hempty, -⟩ | ⟨head, hhead, -, hrows, -, -⟩
      · rw [hempty] at hbefore
        cases hbefore
      · exact (hrows before hbefore).trans (habove head hhead)
    · rw [List.mem_singleton.1 hold]
  · intro mark hmark
    rw [answer_tables] at hmark
    split at hmark
    · cases hmark
      rw [hversion]
    · rcases hs.topped with ⟨hempty, -⟩ | ⟨head, hhead, -, -, hmarks, -⟩
      · rw [hempty] at hmark
        cases hmark
      · exact (hmarks mark hmark).trans (habove head hhead)
  · intro e he
    rcases mem_settled_answer.1 he with he | ⟨-, rfl⟩
    · rcases hs.topped with ⟨-, hnone⟩ | ⟨head, hhead, -, -, -, hall⟩
      · have he : e ∈ s.settled := he
        rw [hnone] at he
        cases he
      · exact (hall e he).trans (habove head hhead)
    · rw [hversion, hincoming]
  · exact hs.settledPool_answer hheld.event

theorem step (hm : pool.draws m) (hkeep : ∀ deletion, m ≠ .delete deletion)
    (h : HeadStep c s m s') :
    HeadConverged c pool s' := by
  have hsound := hs.sound.step hm h
  cases h with
  | wait => exact hs
  | refused call failed answer hnot hplain hwhy =>
      refine ⟨hsound, hs.topped_answer fun hordered => ?_, hs.settledPool_answer hm.1⟩
      obtain ⟨v, hv, hle⟩ := hwhy hordered
      exact hs.compared_le_head hm.1 hv hle
  | locked call failed hfree habove => exact ⟨hsound, hs.topped, hs.settledPool⟩
  | failed r hr failed =>
      refine ⟨hsound, hs.topped_answer ?_, ?_⟩
      · intro hordered
        cases hordered
      · exact hs.settledPool_answer (hs.sound.holding r hr).event
  | conflict r hr failed answer hnot hordered hrow =>
      have hheld := hs.sound.holding r hr
      refine ⟨hsound, hs.topped_answer fun _ => ?_, hs.settledPool_answer hheld.event⟩
      obtain ⟨row, hrow, hversion⟩ := hrow
      rcases hs.topped with ⟨hempty, -⟩ | ⟨head, hlive, -, hrows, -, -⟩
      · rw [hempty] at hrow
        cases hrow
      · refine ⟨head, hlive, ?_⟩
        have hincoming : headVersion r.call.event = row.version := by
          rw [hversion, Replacing.incoming, headVersion, hheld.createdAt]
        rw [hincoming]
        exact hrows row hrow
  | replaced r hr failed answer hinserted hordered rest row hrest hevent hcreated hlive =>
      exact hs.replaced hr hordered (hrest (hs.sound.superseded hr)) hevent hcreated hlive
  | deleted deletion => exact absurd rfl (hkeep deletion)

end

end HeadConverged

/-! ## What the calls are told -/

def HeadRun.liveEvents (s : HeadRun) : List Event := s.tables.live.map HeadRow.event

/-- The answer a step gives, and the live rows on both sides of it. -/
structure ToldTruly (s s' : HeadRun) : Prop where
  inserted : ∀ call answer, s'.answers = s.answers ++ [(call, answer)] →
    (answer.inserted = true ↔ call.event ∈ s'.liveEvents ∧ call.event ∉ s.liveEvents)
  head : ∀ call answer, s'.answers = s.answers ++ [(call, answer)] →
    answer.inserted = true → s'.liveEvents = [call.event]
  unchanged : ∀ call answer, s'.answers = s.answers ++ [(call, answer)] →
    answer.inserted = false → s'.tables.live = s.tables.live
  silent : s'.answers = s.answers → ∀ e ∈ s'.liveEvents, e ∈ s.liveEvents

section Told

variable {c : Coordinate} {pool : HeadPool c} {s s' : HeadRun} {m : HeadMove}

theorem toldTruly_of_answers_eq (hanswers : s'.answers = s.answers)
    (hlive : ∀ e ∈ s'.liveEvents, e ∈ s.liveEvents) : ToldTruly s s' := by
  have hnone : ∀ told : ReplaceCall × ReplaceAnswer, s'.answers ≠ s.answers ++ [told] := by
    intro told h
    have hlength := congrArg List.length h
    rw [hanswers, List.length_append, List.length_singleton] at hlength
    omega
  exact ⟨fun call answer h => absurd h (hnone _), fun call answer h => absurd h (hnone _),
    fun call answer h => absurd h (hnone _), fun _ => hlive⟩

theorem toldTruly_of_not_inserted {call : ReplaceCall} {answer : ReplaceAnswer}
    (hnot : answer.inserted = false) (htables : s'.tables = s.tables)
    (hanswers : s'.answers = s.answers ++ [(call, answer)]) : ToldTruly s s' := by
  have hlive : s'.liveEvents = s.liveEvents := by
    rw [liveEvents, liveEvents, htables]
  have htold : ∀ call' answer', s'.answers = s.answers ++ [(call', answer')] →
      answer'.inserted = false := by
    intro call' answer' h
    rw [hanswers] at h
    cases List.append_cancel_left h
    exact hnot
  refine ⟨?_, ?_, ?_, ?_⟩
  · intro call' answer' h
    rw [htold call' answer' h, hlive]
    simp
  · intro call' answer' h hinserted
    rw [htold call' answer' h] at hinserted
    cases hinserted
  · intro call' answer' h _
    rw [htables]
  · intro _ e he
    rw [← hlive]
    exact he

theorem toldTruly_of_inserted {call : ReplaceCall} {answer : ReplaceAnswer}
    (hinserted : answer.inserted = true) (hlive : s'.liveEvents = [call.event])
    (hbefore : call.event ∉ s.liveEvents)
    (hanswers : s'.answers = s.answers ++ [(call, answer)]) : ToldTruly s s' := by
  have htold : ∀ call' answer', s'.answers = s.answers ++ [(call', answer')] →
      call' = call ∧ answer' = answer := by
    intro call' answer' h
    rw [hanswers] at h
    cases List.append_cancel_left h
    exact ⟨rfl, rfl⟩
  refine ⟨?_, ?_, ?_, ?_⟩
  · intro call' answer' h
    obtain ⟨rfl, rfl⟩ := htold call' answer' h
    simp [hinserted, hlive, hbefore]
  · intro call' answer' h _
    obtain ⟨rfl, -⟩ := htold call' answer' h
    exact hlive
  · intro call' answer' h hnot
    obtain ⟨-, rfl⟩ := htold call' answer' h
    rw [hinserted] at hnot
    cases hnot
  · intro hsilent
    have hlength := congrArg List.length hsilent
    rw [hanswers, List.length_append, List.length_singleton] at hlength
    omega

/-- No live row is of the event its holder is about to insert. -/
theorem HeadSound.holder_not_live (hs : HeadSound c pool s) {r : Replacing}
    (hr : s.holder = some r) : r.call.event ∉ s.liveEvents := by
  intro hmem
  obtain ⟨row, hrow, hevent⟩ := List.mem_map.1 hmem
  have hheld := hs.holding r hr
  have hversion := hs.version row (HeadTables.mem_live.1 hrow).1
  have habove := hheld.above row hrow
  have hsame : row.version = r.incoming := by
    rw [hversion, hevent, Replacing.incoming, headVersion, hheld.createdAt]
  rw [hsame] at habove
  exact lt_irrefl _ habove

theorem HeadSound.toldTruly (hs : HeadSound c pool s) (h : HeadStep c s m s') :
    ToldTruly s s' := by
  cases h with
  | wait => exact toldTruly_of_answers_eq rfl fun e he => he
  | refused call failed answer hnot hplain hwhy => exact toldTruly_of_not_inserted hnot rfl rfl
  | locked call failed hfree habove => exact toldTruly_of_answers_eq rfl fun e he => he
  | failed r hr failed => exact @toldTruly_of_not_inserted _ _ r.call .error rfl rfl rfl
  | conflict r hr failed answer hnot hordered hrow =>
      exact toldTruly_of_not_inserted hnot rfl rfl
  | replaced r hr failed answer hinserted hordered rest row hrest hevent hcreated hlive =>
      refine toldTruly_of_inserted hinserted ?_ (hs.holder_not_live hr) rfl
      rw [liveEvents, answer_tables,
        live_replaced (hrest (hs.superseded hr)) hlive, List.map_singleton, hevent]
  | deleted deletion =>
      refine toldTruly_of_answers_eq rfl fun e he => ?_
      exact (List.Sublist.map _ (live_deleteHead_sublist s.tables deletion)).subset he

/-- A read-state event that becomes live beats every read-state event accepted
before. -/
theorem HeadSound.readState_beats (hs : HeadSound c pool s) (h : HeadStep c s m s') {e e' : Event}
    (he : e ∈ s'.liveEvents) (hshape : c.readState e = true) (hnew : e ∉ s.liveEvents)
    (he' : e' ∈ s.accepted) (hshape' : c.readState e' = true) : Beats e e' := by
  have hold : s'.tables.live = s.tables.live → False := by
    intro hsame
    rw [liveEvents, hsame] at he
    exact hnew he
  cases h with
  | wait => exact (hold rfl).elim
  | refused call failed answer hnot hplain hwhy => exact (hold rfl).elim
  | locked call failed hfree habove => exact (hold rfl).elim
  | failed r hr failed => exact (hold rfl).elim
  | conflict r hr failed answer hnot hordered hrow => exact (hold rfl).elim
  | replaced r hr failed answer hinserted hordered rest row hrest hevent hcreated hlive =>
      rw [liveEvents, answer_tables,
        live_replaced (hrest (hs.superseded hr)) hlive, List.map_singleton, hevent,
        List.mem_singleton] at he
      subst he
      have hheld := hs.holding r hr
      obtain ⟨mark, hmark, hle⟩ := hs.accepted e' he' hshape'
      have hlt := hle.trans_lt (hheld.aboveMark hshape mark hmark)
      rw [Replacing.incoming, hheld.createdAt] at hlt
      exact (HeadPool.lt_iff_beats hheld.event (hs.acceptedPool e' he')).1 hlt
  | deleted deletion =>
      have hsub := (List.Sublist.map HeadRow.event
        (live_deleteHead_sublist s.tables deletion)).subset he
      exact (hnew hsub).elim

/-- A live read-state event is not below an accepted one. -/
theorem HeadSound.readState_live (hs : HeadSound c pool s) {e e' : Event} (he : e ∈ s.liveEvents)
    (hshape : c.readState e = true) (he' : e' ∈ s.accepted) (hshape' : c.readState e' = true) :
    e' = e ∨ Beats e e' := by
  obtain ⟨row, hrow, rfl⟩ := List.mem_map.1 he
  have hmem := (HeadTables.mem_live.1 hrow).1
  obtain ⟨mark, hmark, hle⟩ := hs.accepted e' he' hshape'
  rw [hs.liveMark row hrow hshape] at hmark
  cases hmark
  rw [hs.version row hmem] at hle
  exact HeadPool.eq_or_beats (hs.event row hmem) (hs.acceptedPool e' he') hle

end Told

section Runs

variable {c : Coordinate} (pool : HeadPool c) {ms : List HeadMove}

theorem HeadSound.run (hms : ∀ m ∈ ms, pool.draws m) : HeadSound c pool (c.machine.run ms) := by
  induction ms using List.reverseRecOn with
  | nil => exact .start
  | append_singleton ms m ih =>
      rw [Machine.run_snoc]
      have hs := ih fun m' hm' => hms m' (List.mem_append_left _ hm')
      exact hs.step (hms m (by simp)) (c.step_spec m)

theorem HeadConverged.run (hms : ∀ m ∈ ms, pool.draws m)
    (hkeep : ∀ m ∈ ms, ∀ deletion, m ≠ .delete deletion) :
    HeadConverged c pool (c.machine.run ms) := by
  induction ms using List.reverseRecOn with
  | nil => exact .start
  | append_singleton ms m ih =>
      rw [Machine.run_snoc]
      have hs := ih (fun m' hm' => hms m' (List.mem_append_left _ hm'))
        fun m' hm' => hkeep m' (List.mem_append_left _ hm')
      exact hs.step (hms m (by simp)) (hkeep m (by simp)) (c.step_spec m)

/-- A call without a precondition fails or is put in order with the head. -/
theorem settled_of_unconditional (ms : List HeadMove) :
    ∀ told ∈ (c.machine.run ms).answers, told.1.precondition = .unconditional →
      told.2 = .error ∨ told.2.ordered = true := by
  induction ms using List.reverseRecOn with
  | nil => intro told h; cases h
  | append_singleton ms m ih =>
      rw [Machine.run_snoc]
      have hstep := c.step_spec (s := c.machine.run ms) m
      have hsnoc : ∀ call answer, (call.precondition = .unconditional →
          answer = ReplaceAnswer.error ∨ answer.ordered = true) →
          ∀ told ∈ (c.machine.run ms).answers ++ [(call, answer)],
            told.1.precondition = .unconditional → told.2 = .error ∨ told.2.ordered = true := by
        intro call answer hlast told htold
        rcases List.mem_append.1 htold with htold | htold
        · exact ih told htold
        · rw [List.mem_singleton.1 htold]
          exact hlast
      show ∀ told ∈ (c.stepHead (c.machine.run ms) m).answers, _
      generalize c.stepHead (c.machine.run ms) m = s' at hstep
      cases hstep with
      | wait => exact ih
      | refused call failed answer hnot hplain hwhy => exact hsnoc call answer hplain
      | locked call failed hfree habove => exact ih
      | failed r hr failed => exact hsnoc r.call .error fun _ => .inl rfl
      | conflict r hr failed answer hnot hordered hrow =>
          exact hsnoc r.call answer fun _ => .inr hordered
      | replaced r hr failed answer hinserted hordered rest row hrest hevent hcreated hlive =>
          exact hsnoc r.call answer fun _ => .inr hordered
      | deleted deletion => exact ih

end Runs

/-- What the coordinate promises of a run and of the step after it. -/
structure HeadsHold (c : Coordinate) (pool : HeadPool c) (ms : List HeadMove) : Prop where
  /-- Every answer says what happened to the live head. -/
  told : ∀ m, pool.draws m → ToldTruly (c.machine.run ms) (c.machine.run (ms ++ [m]))
  /-- A call without a precondition counts unless it failed. -/
  counted : ∀ told ∈ (c.machine.run ms).answers, told.1.precondition = .unconditional →
    told.2 = .error ∨ told.1.event ∈ (c.machine.run ms).settled
  /-- Without deletions the one live row is the greatest event that counts. -/
  converged : (∀ m ∈ ms, ∀ deletion, m ≠ .delete deletion) →
    (c.machine.run ms).settled ≠ [] →
    ∃ head, (c.machine.run ms).liveEvents = [head] ∧ head ∈ (c.machine.run ms).settled ∧
      ∀ e ∈ (c.machine.run ms).settled, e = head ∨ Beats head e
  /-- With deletions anywhere, a read-state event becomes live only above every
  read-state event accepted before. -/
  neverAgain : ∀ m, pool.draws m → ∀ e ∈ (c.machine.run (ms ++ [m])).liveEvents,
    c.readState e = true → e ∉ (c.machine.run ms).liveEvents →
    ∀ e' ∈ (c.machine.run ms).accepted, c.readState e' = true → Beats e e'
  /-- Nor does a live one lie below an accepted one. -/
  undominated : ∀ e ∈ (c.machine.run ms).liveEvents, c.readState e = true →
    ∀ e' ∈ (c.machine.run ms).accepted, c.readState e' = true → e' = e ∨ Beats e e'

theorem replaceable_heads_converge (c : Coordinate) (pool : HeadPool c) (ms : List HeadMove)
    (hms : ∀ m ∈ ms, pool.draws m) : HeadsHold c pool ms where
  told := by
    intro m hm
    rw [Machine.run_snoc]
    exact (HeadSound.run pool hms).toldTruly (c.step_spec m)
  counted := by
    intro told htold hplain
    rcases settled_of_unconditional ms told htold hplain with herror | hordered
    · exact .inl herror
    · exact .inr (List.mem_map.2 ⟨told, List.mem_filter.2 ⟨htold, hordered⟩, rfl⟩)
  converged := by
    intro hkeep hsome
    have hs := HeadConverged.run pool hms hkeep
    rcases hs.topped with ⟨-, hnone⟩ | ⟨head, hlive, hmem, -, -, hall⟩
    · exact absurd hnone hsome
    · have hrow : head ∈ (c.machine.run ms).tables.rows :=
        (HeadTables.mem_live.1 (by rw [hlive]; simp)).1
      refine ⟨head.event, by rw [liveEvents, hlive]; rfl, hmem, fun e he => ?_⟩
      have hle := hall e he
      rw [hs.sound.version head hrow] at hle
      exact HeadPool.eq_or_beats (hs.sound.event head hrow) (hs.settledPool e he) hle
  neverAgain := by
    intro m hm e he hshape hnew e' he' hshape'
    rw [Machine.run_snoc] at he
    exact (HeadSound.run pool hms).readState_beats (c.step_spec m) he hshape hnew he' hshape'
  undominated := by
    intro e he hshape e' he' hshape'
    exact (HeadSound.run pool hms).readState_live he hshape he' hshape'

/-! The watermark at work: a newer read state is accepted and its head deleted,
and the older one, refused before, is refused still. -/

def readStateSlot : String := "read-state:0123456789abcdef0123456789abcdef"

def readStateCoordinate : Coordinate := ⟨30078, .ofByte 1, .dTag readStateSlot⟩

def readStateEvent (id : UInt8) (createdAt : UInt64) : Event where
  id := .ofByte id
  pubkey := .ofByte 1
  createdAt := createdAt
  kind := 30078
  tags := [⟨"d", [readStateSlot]⟩, ⟨"t", ["read-state"]⟩]

def readStatePool : HeadPool readStateCoordinate where
  events := [readStateEvent 2 10, readStateEvent 3 20]
  kind := by decide
  pubkey := by decide
  place := by
    intro d hd
    cases hd
    decide
  inRange := by decide
  ids := by decide

def readStateMoves : List HeadMove :=
  [.read ⟨readStateEvent 3 20, none, .unconditional⟩ false, .write false,
    .read ⟨readStateEvent 2 10, none, .unconditional⟩ false,
    .delete (.coordinate readStateSlot 30),
    .read ⟨readStateEvent 2 10, none, .unconditional⟩ false]

theorem replaceable_heads_converge_deleted :
    ((readStateCoordinate.machine.run readStateMoves).answers.map Prod.snd =
      [.status .inserted, .status .superseded, .status .superseded] ∧
      (readStateCoordinate.machine.run readStateMoves).liveEvents = []) ∧
      HeadsHold readStateCoordinate readStatePool readStateMoves := by
  refine ⟨by decide +kernel, replaceable_heads_converge _ _ _ ?_⟩
  intro m hm
  simp only [readStateMoves, List.mem_cons, List.not_mem_nil, or_false] at hm
  have hplace : ∀ id, readStateCoordinate.place = .channel id → none = id := by
    intro id h
    cases h
  rcases hm with rfl | rfl | rfl | rfl | rfl
  · exact ⟨by decide, hplace⟩
  · exact trivial
  · exact ⟨by decide, hplace⟩
  · exact trivial
  · exact ⟨by decide, hplace⟩

end Buzz.Db
