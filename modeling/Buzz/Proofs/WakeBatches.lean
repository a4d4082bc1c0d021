import Buzz.Db.WakeBatch
import Mathlib.Algebra.Order.BigOperators.Group.List
import Mathlib.Algebra.Order.Group.Nat

/-!
# The batch is the calls in order

A call of the batch of one does at most one thing to the tables: it inserts the row of its
request, or finds it there. `call` says that directly, and the batch is shown to be
`call` on one request after the other. The leases do not move meanwhile, so that reading
them all first changes nothing; and of the requests with one key the first that finds
no row is the one whose row the insert keeps.

Two sequences of calls that draw other ids differ by a renaming of the new ones.
-/

namespace Buzz.Db.WakeBatch

open Buzz.Lib

variable {gen gen' : Nat → Nat} {now : Int} {t t' t₁ t₂ : Tables} {community : CommunityId}
  {r : WakeRequest} {requests : List WakeRequest} {key : JobKey}
  {c o : OutboxRow} {arrays inserted rows : List OutboxRow}
  {ids : HMap JobKey Nat}

/-! ## One call -/

/-- The lease of a request, whatever its generation. -/
def leaseFor (t : Tables) (now : Int) (community : CommunityId) (r : WakeRequest) :
    Option LeaseRow :=
  t.leases.find? fun l =>
    l.current now community && (l.author, l.installationId) = (r.author, r.installationId)

/-- The endpoint of a request; `some none` where its lease is not current. -/
def endpointFor (t : Tables) (now : Int) (community : CommunityId) (r : WakeRequest) :
    Option (Option (List UInt8)) :=
  match leaseFor t now community r with
  | none => some none
  | some l => l.endpointHash.map fun e => if l.generation = r.leaseGeneration then some e else none

/-- The job that has the key. -/
def jobId (t : Tables) (community : CommunityId) (key : JobKey) : Option Nat :=
  (t.outbox.find? fun o => o.conflictKey = (community, key)).map (·.id)

/-- The row of a request is inserted, or there. -/
def enqueueAt (gen : Nat → Nat) (t : Tables) (community : CommunityId) (r : WakeRequest)
    (endpointHash : List UInt8) : Option (Tables × Outcome) :=
  match t.insertRow gen (columns community r endpointHash) with
  | .error _ => none
  | .ok (t', some row) => some (t', .enqueued row.id)
  | .ok (t', none) => (jobId t community (endpointHash, r.eventId)).map (t', .duplicate ·)

def settle (gen : Nat → Nat) (t : Tables) (community : CommunityId) :
    WakeRequest × Option (List UInt8) → Option (Tables × Outcome)
  | (_, none) => some (t, .inactiveLease)
  | (r, some endpointHash) => enqueueAt gen t community r endpointHash

def settleAll (gen : Nat → Nat) (t : Tables) (community : CommunityId) :
    List (WakeRequest × Option (List UInt8)) → Option (Tables × List Outcome)
  | [] => some (t, [])
  | p :: rest =>
      (settle gen t community p).bind fun (t', outcome) =>
        (settleAll gen t' community rest).map fun (t'', outcomes) => (t'', outcome :: outcomes)

/-- One call; `none` is a failure. -/
def call (gen : Nat → Nat) (now : Int) (t : Tables) (community : CommunityId) (r : WakeRequest) :
    Option (Tables × Outcome) :=
  if t.refusing.contains community || r.installationId.toList.contains '\x00' then none
  else (endpointFor t now community r).bind fun endpointHash =>
    settle gen t community (r, endpointHash)

def callAll (gen : Nat → Nat) (now : Int) (t : Tables) (community : CommunityId) :
    List WakeRequest → Option (Tables × List Outcome)
  | [] => some (t, [])
  | r :: rest =>
      (call gen now t community r).bind fun (t', outcome) =>
        (callAll gen now t' community rest).map fun (t'', outcomes) => (t'', outcome :: outcomes)

/-! ## Inserting -/

/-- What one row of the insert can do. -/
theorem insertRow_cases {row : Option OutboxRow}
    (h : t.insertRow gen c = .ok (t', row)) :
    t'.leases = t.leases ∧ t'.refusing = t.refusing ∧ t'.drawn = t.drawn + 1 ∧
      ((c.conflictKey ∈ t.outbox.map OutboxRow.conflictKey ∧ t'.outbox = t.outbox ∧ row = none) ∨
        (c.conflictKey ∉ t.outbox.map OutboxRow.conflictKey ∧
          t'.outbox = t.outbox ++ [{ c with id := gen t.drawn }] ∧
          row = some { c with id := gen t.drawn })) := by
  unfold Tables.insertRow at h
  dsimp only at h
  split at h
  · cases h
  · split at h
    · next hconflict =>
        cases h
        exact ⟨rfl, rfl, rfl, .inl ⟨hconflict, rfl, rfl⟩⟩
    · next hconflict =>
        split at h
        · cases h
        · cases h
          exact ⟨rfl, rfl, rfl, .inr ⟨hconflict, rfl, rfl⟩⟩

/-- In rows with a key, the row with a key. -/
theorem find?_key_eq_some_iff {α κ : Type} [DecidableEq κ] {f : α → κ} {l : List α} {k : κ} {a : α}
    (h : (l.map f).Nodup) : l.find? (fun x => f x = k) = some a ↔ a ∈ l ∧ f a = k := by
  constructor
  · intro hfind
    have hkey := List.find?_some hfind
    rw [decide_eq_true_eq] at hkey
    exact ⟨List.mem_of_find?_eq_some hfind, hkey⟩
  · rintro ⟨ha, hkey⟩
    cases hfind : l.find? fun x => f x = k with
    | none => exact absurd (decide_eq_true hkey) (List.find?_eq_none.1 hfind a ha)
    | some b =>
        have hkey' := List.find?_some hfind
        rw [decide_eq_true_eq] at hkey'
        rw [List.inj_on_of_nodup_map h (List.mem_of_find?_eq_some hfind) ha
          (hkey'.trans hkey.symm)]

theorem jobId_eq_some_iff {id : Nat} : jobId t community key = some id ↔
    ∃ o ∈ t.outbox, o.conflictKey = (community, key) ∧ o.id = id := by
  unfold jobId
  rw [Option.map_eq_some_iff]
  constructor
  · rintro ⟨o, ho, hid⟩
    obtain ⟨hmem, hkey⟩ := (find?_key_eq_some_iff t.conflict_keys).1 ho
    exact ⟨o, hmem, hkey, hid⟩
  · rintro ⟨o, hmem, hkey, hid⟩
    exact ⟨o, (find?_key_eq_some_iff t.conflict_keys).2 ⟨hmem, hkey⟩, hid⟩

theorem jobId_eq_none_iff : jobId t community key = none ↔
    (community, key) ∉ t.outbox.map OutboxRow.conflictKey := by
  rw [Option.eq_none_iff_forall_ne_some]
  constructor
  · intro h hmem
    obtain ⟨o, ho, hkey⟩ := List.mem_map.1 hmem
    exact h o.id (jobId_eq_some_iff.2 ⟨o, ho, hkey, rfl⟩)
  · intro h id hid
    obtain ⟨o, ho, hkey, -⟩ := jobId_eq_some_iff.1 hid
    exact h (List.mem_map.2 ⟨o, ho, hkey⟩)

/-- A job stays where rows are only added. -/
theorem jobId_mono (h : t.outbox <+: t'.outbox) {id : Nat} (hid : jobId t community key = some id) :
    jobId t' community key = some id := by
  obtain ⟨o, ho, hkey, hoid⟩ := jobId_eq_some_iff.1 hid
  exact jobId_eq_some_iff.2 ⟨o, h.subset ho, hkey, hoid⟩

/-- What the whole insert does: the rows it returns are the rows it adds, among those
it was given, and every key it was given has a row afterwards. -/
theorem insertRows_spec (h : t.insertRows gen arrays = .ok (t', inserted)) :
    t'.outbox = t.outbox ++ inserted ∧
      (inserted.map OutboxRow.conflictKey).Sublist (arrays.map OutboxRow.conflictKey) ∧
      ∀ c ∈ arrays, c.conflictKey ∈ t'.outbox.map OutboxRow.conflictKey := by
  induction arrays generalizing t inserted with
  | nil =>
      cases h
      exact ⟨(List.append_nil _).symm, List.Sublist.refl _, nofun⟩
  | cons c arrays ih =>
      rw [Tables.insertRows] at h
      split at h
      · cases h
      · next t₁ row hrow =>
          split at h
          · cases h
          · next t₂ rows hrest =>
              cases h
              obtain ⟨houtbox, hsub, hkeys⟩ := ih hrest
              obtain ⟨-, -, -, ⟨hconflict, hsame, rfl⟩ | ⟨hconflict, hnew, rfl⟩⟩ :=
                insertRow_cases hrow
              · rw [hsame] at houtbox
                refine ⟨houtbox, hsub.cons _, List.forall_mem_cons.2 ⟨?_, hkeys⟩⟩
                rw [houtbox, List.map_append]
                exact List.mem_append_left _ hconflict
              · rw [hnew, List.append_assoc] at houtbox
                refine ⟨houtbox, hsub.cons_cons _, List.forall_mem_cons.2 ⟨?_, hkeys⟩⟩
                rw [houtbox, List.map_append]
                exact List.mem_append_right _ List.mem_cons_self

/-! ## The ids of the jobs -/

theorem lookup_insertIds_of_not_mem (h : key ∉ rows.map OutboxRow.jobKey) :
    (insertIds ids rows).lookup key = ids.lookup key := by
  induction rows generalizing ids with
  | nil => rfl
  | cons o rows ih =>
      rw [List.map_cons, List.mem_cons, not_or] at h
      rw [insertIds, ih h.2, AList.lookup_insert_ne h.1]

theorem lookup_insertIds (hkeys : (rows.map OutboxRow.jobKey).Nodup)
    (ho : o ∈ rows) :
    (insertIds ids rows).lookup o.jobKey = some o.id := by
  induction rows generalizing ids with
  | nil => cases ho
  | cons first rows ih =>
      rw [List.map_cons, List.nodup_cons] at hkeys
      rw [insertIds]
      rcases List.mem_cons.1 ho with rfl | ho
      · rw [lookup_insertIds_of_not_mem hkeys.1, AList.lookup_insert]
      · exact ih hkeys.2 ho

theorem lookup_orInsertIds_of_some {id : Nat} (h : ids.lookup key = some id) :
    (orInsertIds ids rows).lookup key = some id := by
  induction rows generalizing ids with
  | nil => exact h
  | cons o rows ih =>
      rw [orInsertIds]
      split
      · exact ih h
      · next hnew =>
          refine ih ?_
          rw [AList.lookup_insert_ne]
          · exact h
          · rintro rfl
            exact hnew (by rw [h]; rfl)

/-- A key that has no id yet takes the one its row has. -/
theorem lookup_orInsertIds (hkeys : (rows.map OutboxRow.jobKey).Nodup)
    (ho : o ∈ rows) (hnone : ids.lookup o.jobKey = none) :
    (orInsertIds ids rows).lookup o.jobKey = some o.id := by
  induction rows generalizing ids with
  | nil => cases ho
  | cons first rows ih =>
      rw [List.map_cons, List.nodup_cons] at hkeys
      rw [orInsertIds]
      rcases List.mem_cons.1 ho with rfl | ho
      · rw [hnone]
        exact lookup_orInsertIds_of_some (AList.lookup_insert _)
      · refine ih hkeys.2 ho ?_
        split
        · exact hnone
        · rw [AList.lookup_insert_ne, hnone]
          exact fun heq => hkeys.1 (heq ▸ List.mem_map_of_mem ho)

/-- The ids the batch reports from, for the rows `inserted` among the `outbox`. -/
def jobIds (t : Tables) (community : CommunityId) (arrays inserted : List OutboxRow) :
    HMap JobKey Nat :=
  if (inserted.map OutboxRow.jobKey).toFinset.card < arrays.length then
    orInsertIds (insertIds ∅ inserted)
      (duplicateRows t community (arrays.map OutboxRow.jobKey))
  else insertIds ∅ inserted

theorem conflictKey_eq_iff :
    o.conflictKey = (community, key) ↔ o.community = community ∧ o.jobKey = key :=
  Prod.ext_iff

/-- Within a community the key of a conflict is the key of the job. -/
theorem nodup_jobKey (h : (rows.map OutboxRow.conflictKey).Nodup)
    (hrows : ∀ o ∈ rows, o.community = community) :
    (rows.map OutboxRow.jobKey).Nodup := by
  rw [List.nodup_map_iff_inj_on (List.Nodup.of_map _ h)]
  intro o ho o' ho' heq
  refine List.inj_on_of_nodup_map h ho ho' ?_
  exact Prod.ext ((hrows o ho).trans (hrows o' ho').symm) heq

/-- For every key that was proposed, the id is the one in the table. -/
theorem lookup_jobIds (h : t.insertRows gen arrays = .ok (t', inserted))
    (harrays : ∀ c ∈ arrays, c.community = community) (hc : c ∈ arrays) :
    (jobIds t' community arrays inserted).lookup c.jobKey = jobId t' community c.jobKey := by
  obtain ⟨houtbox, hsub, hkeys⟩ := insertRows_spec h
  have hcommunity : ∀ o ∈ inserted, o.community = community := by
    intro o ho
    obtain ⟨c, hc, heq⟩ := List.mem_map.1 (hsub.subset (List.mem_map_of_mem ho))
    exact (congrArg Prod.fst heq).symm.trans (harrays c hc)
  have hinserted : (inserted.map OutboxRow.jobKey).Nodup := by
    have hall := t'.conflict_keys
    rw [houtbox, List.map_append] at hall
    exact nodup_jobKey (List.nodup_append.1 hall).2.1 hcommunity
  -- The row with the key, wherever it comes from.
  obtain ⟨o, ho, heq⟩ := List.mem_map.1 (hkeys c hc)
  have hkey : o.community = community ∧ o.jobKey = c.jobKey :=
    conflictKey_eq_iff.1 (heq.trans (Prod.ext (harrays c hc) rfl))
  have hid : jobId t' community c.jobKey = some o.id :=
    jobId_eq_some_iff.2 ⟨o, ho, conflictKey_eq_iff.2 hkey, rfl⟩
  rw [hid, ← hkey.2]
  unfold jobIds
  split
  · by_cases hmem : o ∈ inserted
    · exact lookup_orInsertIds_of_some (lookup_insertIds hinserted hmem)
    · have hnot : o.jobKey ∉ inserted.map OutboxRow.jobKey := by
        intro hkey'
        obtain ⟨o', ho', heq'⟩ := List.mem_map.1 hkey'
        have hsame : o'.conflictKey = o.conflictKey :=
          Prod.ext ((hcommunity o' ho').trans hkey.1.symm) heq'
        have ho'' : o' ∈ t'.outbox := houtbox ▸ List.mem_append_right _ ho'
        exact hmem (List.inj_on_of_nodup_map t'.conflict_keys ho'' ho hsame ▸ ho')
      refine lookup_orInsertIds ?_ ?_ ?_
      · have hrows : ∀ o ∈ duplicateRows t' community (arrays.map OutboxRow.jobKey),
            o.community = community := fun o ho =>
          of_decide_eq_true (Bool.and_eq_true_iff.1 (List.mem_filter.1 ho).2).1
        exact nodup_jobKey (t'.conflict_keys.sublist (List.filter_sublist.map _)) hrows
      · refine List.mem_filter.2 ⟨ho, Bool.and_eq_true_iff.2 ⟨decide_eq_true hkey.1, ?_⟩⟩
        rw [List.contains_iff_mem, hkey.2]
        exact List.mem_map_of_mem hc
      · rw [lookup_insertIds_of_not_mem hnot]
        rfl
  · next hcard =>
      -- Nothing was skipped.
      rw [List.toFinset_card_of_nodup hinserted, List.length_map, Nat.not_lt] at hcard
      have hsame := hsub.eq_of_length_le (by rwa [List.length_map, List.length_map])
      have hmem : c.conflictKey ∈ inserted.map OutboxRow.conflictKey :=
        hsame ▸ List.mem_map_of_mem hc
      obtain ⟨o', ho', heq'⟩ := List.mem_map.1 hmem
      have ho'' : o' ∈ t'.outbox := houtbox ▸ List.mem_append_right _ ho'
      rw [List.inj_on_of_nodup_map t'.conflict_keys ho'' ho (heq'.trans heq.symm)] at ho'
      exact lookup_insertIds hinserted ho'

/-! ## The outcomes -/

variable {resolved : List (WakeRequest × Option (List UInt8))} {e : WakeError}
  {leases : LeaseMap} {l : LeaseRow} {outcome : Outcome} {f : Nat → Nat}

/-- After one row of the insert its key has a job, and the other keys are as they were. -/
theorem jobId_insertRow (community : CommunityId) {row : OutboxRow}
    (h : t.insertRow gen c = .ok (t', some row)) (hc : c.community = community) :
    jobId t community c.jobKey = none ∧ jobId t' community c.jobKey = some row.id ∧
      ∀ k, k ≠ c.jobKey → jobId t' community k = jobId t community k := by
  obtain ⟨-, -, -, ⟨-, -, hrow⟩ | ⟨hconflict, houtbox, hrow⟩⟩ := insertRow_cases h
  · cases hrow
  · cases hrow
    have hkey : c.conflictKey = (community, c.jobKey) := conflictKey_eq_iff.2 ⟨hc, rfl⟩
    refine ⟨jobId_eq_none_iff.2 (hkey ▸ hconflict), ?_, fun k hk => ?_⟩
    · refine jobId_eq_some_iff.2 ⟨{ c with id := gen t.drawn }, ?_, hkey, rfl⟩
      rw [houtbox]
      exact List.mem_append_right _ List.mem_cons_self
    · ext id
      rw [jobId_eq_some_iff, jobId_eq_some_iff, houtbox]
      constructor
      · rintro ⟨o, ho, hokey, hid⟩
        rcases List.mem_append.1 ho with ho | ho
        · exact ⟨o, ho, hokey, hid⟩
        · rw [List.mem_singleton.1 ho] at hokey
          exact absurd (conflictKey_eq_iff.1 hokey).2.symm hk
      · rintro ⟨o, ho, hokey, hid⟩
        exact ⟨o, List.mem_append_left _ ho, hokey, hid⟩

theorem insertArrays_cons_none {rest : List (WakeRequest × Option (List UInt8))} :
    insertArrays community ((r, none) :: rest) = insertArrays community rest := rfl

theorem insertArrays_cons_some {rest : List (WakeRequest × Option (List UInt8))}
    {e : List UInt8} : insertArrays community ((r, some e) :: rest) =
      columns community r e :: insertArrays community rest := rfl

theorem settleAll_eq_none
    (h : t.insertRows gen (insertArrays community resolved) = .error e) :
    settleAll gen t community resolved = none := by
  induction resolved generalizing t with
  | nil => cases h
  | cons p resolved ih =>
      obtain ⟨r, endpoint⟩ := p
      cases endpoint with
      | none =>
          rw [insertArrays_cons_none] at h
          show (settleAll gen t community resolved).map _ = none
          rw [ih h]
          rfl
      | some e =>
          rw [insertArrays_cons_some, Tables.insertRows] at h
          rw [settleAll, settle, enqueueAt]
          split at h
          · next herror =>
              rw [herror]
              rfl
          · next t₁ row hrow =>
              split at h
              · next hrest =>
                  cases h
                  rw [hrow]
                  cases row with
                  | some row =>
                      show (settleAll gen t₁ community resolved).map _ = none
                      rw [ih hrest]
                      rfl
                  | none =>
                      cases jobId t community (e, r.eventId) with
                      | none => rfl
                      | some id =>
                          show (settleAll gen t₁ community resolved).map _ = none
                          rw [ih hrest]
                          rfl
              · cases h

/-- A key that is reported when its row is inserted is free for nobody after it. -/
theorem reported_insert {insertedKeys reported : Finset JobKey} {id : Nat}
    (hsome : jobId t' community key = some id)
    (hothers : ∀ k, k ≠ key → jobId t' community k = jobId t community k)
    (hfree : ∀ c ∈ arrays,
      (c.jobKey ∈ insertedKeys ∧ c.jobKey ∉ reported) ↔ jobId t community c.jobKey = none) :
    ∀ c ∈ arrays, (c.jobKey ∈ insertedKeys ∧ c.jobKey ∉ insert key reported) ↔
      jobId t' community c.jobKey = none := by
  intro c hc
  rw [Finset.mem_insert, not_or]
  by_cases hkey : c.jobKey = key
  · rw [hkey, hsome]
    exact ⟨fun h => absurd rfl h.2.1, nofun⟩
  · rw [hothers _ hkey, ← hfree c hc]
    exact ⟨fun h => ⟨h.1, h.2.2⟩, fun h => ⟨h.1, hkey, h.2⟩⟩

/-- The outcomes told apart afterwards are those of one request after the other. A key is
free, when its request comes, if its row was inserted and nobody reported it before. -/
theorem report_eq_settleAll (insertedKeys reported : Finset JobKey)
    (h : t.insertRows gen (insertArrays community resolved) = .ok (t', inserted))
    (hids : ∀ c ∈ insertArrays community resolved,
      ids.lookup c.jobKey = jobId t' community c.jobKey)
    (hfree : ∀ c ∈ insertArrays community resolved,
      (c.jobKey ∈ insertedKeys ∧ c.jobKey ∉ reported) ↔ jobId t community c.jobKey = none) :
    ∃ outcomes, report ids insertedKeys reported resolved = .ok outcomes ∧
      settleAll gen t community resolved = some (t', outcomes) := by
  induction resolved generalizing t reported inserted with
  | nil =>
      cases h
      exact ⟨[], rfl, rfl⟩
  | cons p resolved ih =>
      obtain ⟨r, endpoint⟩ := p
      cases endpoint with
      | none =>
          obtain ⟨outcomes, hreport, hsettle⟩ := ih _ h hids hfree
          refine ⟨.inactiveLease :: outcomes, ?_, ?_⟩
          · rw [report, hreport]
            rfl
          · show (settleAll gen t community resolved).map _ = _
            rw [hsettle]
            rfl
      | some e =>
          rw [insertArrays_cons_some] at h hids hfree
          rw [Tables.insertRows] at h
          split at h
          · cases h
          · next t₁ row hrow =>
              split at h
              · cases h
              · next t₂ rows hrest =>
                  cases h
                  have hid : ids.lookup (e, r.eventId) = jobId t' community (e, r.eventId) :=
                    hids _ List.mem_cons_self
                  have hnow : ((e, r.eventId) ∈ insertedKeys ∧ (e, r.eventId) ∉ reported) ↔
                      jobId t community (e, r.eventId) = none := hfree _ List.mem_cons_self
                  have hids' := fun c hc => hids c (List.mem_cons_of_mem _ hc)
                  have hfree' := fun c hc => hfree c (List.mem_cons_of_mem _ hc)
                  have hgrow : t₁.outbox <+: t'.outbox := by
                    rw [(insertRows_spec hrest).1]
                    exact List.prefix_append _ _
                  cases row with
                  | some row =>
                      obtain ⟨hnone, hsome, hothers⟩ :
                          jobId t community (e, r.eventId) = none ∧
                            jobId t₁ community (e, r.eventId) = some row.id ∧
                            ∀ k, k ≠ (e, r.eventId) →
                              jobId t₁ community k = jobId t community k :=
                        jobId_insertRow community hrow rfl
                      obtain ⟨outcomes, hreport, hsettle⟩ :=
                        ih _ hrest hids' (reported_insert hsome hothers hfree')
                      refine ⟨.enqueued row.id :: outcomes, ?_, ?_⟩
                      · rw [report, hid, jobId_mono hgrow hsome]
                        dsimp only
                        rw [if_pos (hnow.2 hnone), hreport]
                        rfl
                      · rw [settleAll, settle, enqueueAt, hrow]
                        show (settleAll gen t₁ community resolved).map _ = _
                        rw [hsettle]
                        rfl
                  | none =>
                      obtain ⟨-, -, -, ⟨hconflict, hsame, -⟩ | ⟨-, -, hrow'⟩⟩ :=
                        insertRow_cases hrow
                      · have hjob : ∀ k, jobId t₁ community k = jobId t community k := by
                          intro k
                          rw [jobId, jobId, hsame]
                        obtain ⟨id, hsome⟩ : ∃ id, jobId t community (e, r.eventId) = some id :=
                          Option.ne_none_iff_exists'.1 fun hnone =>
                            jobId_eq_none_iff.1 hnone hconflict
                        obtain ⟨outcomes, hreport, hsettle⟩ :=
                          ih _ hrest hids' fun c hc => by rw [hjob, hfree' c hc]
                        refine ⟨.duplicate id :: outcomes, ?_, ?_⟩
                        · rw [report, hid, jobId_mono hgrow ((hjob _).trans hsome)]
                          dsimp only
                          rw [if_neg (fun h => by rw [hnow, hsome] at h; cases h), hreport]
                          rfl
                        · rw [settleAll, settle, enqueueAt, hrow]
                          show ((jobId t community (e, r.eventId)).map _).bind _ = _
                          rw [hsome]
                          show (settleAll gen t₁ community resolved).map _ = _
                          rw [hsettle]
                          rfl
                      · cases hrow'

theorem community_of_mem_insertArrays (h : c ∈ insertArrays community resolved) :
    c.community = community := by
  obtain ⟨⟨r, endpoint⟩, -, hc⟩ := List.mem_filterMap.1 h
  obtain ⟨e, -, rfl⟩ := Option.map_eq_some_iff.1 hc
  rfl

/-- Of the keys of the arrays, the inserted ones are those that had no job. -/
theorem mem_inserted_iff (h : t.insertRows gen arrays = .ok (t', inserted))
    (harrays : ∀ c ∈ arrays, c.community = community) (hc : c ∈ arrays) :
    c.jobKey ∈ inserted.map OutboxRow.jobKey ↔ jobId t community c.jobKey = none := by
  obtain ⟨houtbox, hsub, hkeys⟩ := insertRows_spec h
  have hkey : c.conflictKey = (community, c.jobKey) := conflictKey_eq_iff.2 ⟨harrays c hc, rfl⟩
  have hall := t'.conflict_keys
  rw [houtbox, List.map_append] at hall
  rw [jobId_eq_none_iff, ← hkey]
  constructor
  · intro hmem hold
    obtain ⟨o, ho, heq⟩ := List.mem_map.1 hmem
    obtain ⟨c', hc', heq'⟩ := List.mem_map.1 (hsub.subset (List.mem_map_of_mem ho))
    have hsame : o.conflictKey = c.conflictKey :=
      Prod.ext ((congrArg Prod.fst heq').symm.trans
        ((harrays c' hc').trans (harrays c hc).symm)) heq
    exact (List.nodup_append.1 hall).2.2 _ hold _ (List.mem_map_of_mem ho) hsame.symm
  · intro hnew
    have hmem := hkeys c hc
    rw [houtbox, List.map_append] at hmem
    rcases List.mem_append.1 hmem with hold | hmem
    · exact absurd hold hnew
    · obtain ⟨o, ho, heq⟩ := List.mem_map.1 hmem
      exact List.mem_map.2 ⟨o, ho, congrArg Prod.snd heq⟩

theorem insertAndReport_eq :
    (insertAndReport gen t community resolved).toOption = settleAll gen t community resolved := by
  unfold insertAndReport
  dsimp only
  split
  · next herror => exact (settleAll_eq_none herror).symm
  · next t' inserted hinsert =>
      have hcommunity := fun c (hc : c ∈ insertArrays community resolved) =>
        community_of_mem_insertArrays hc
      obtain ⟨outcomes, hreport, hsettle⟩ := report_eq_settleAll
        (inserted.map OutboxRow.jobKey).toFinset ∅ hinsert
        (fun c hc => lookup_jobIds hinsert hcommunity hc) fun c hc => by
          rw [List.mem_toFinset, mem_inserted_iff hinsert hcommunity hc]
          exact ⟨fun h => h.1, fun h => ⟨h, Finset.notMem_empty _⟩⟩
      unfold jobIds at hreport
      rw [hreport, hsettle]
      rfl

/-! ## The leases of all requests -/

def LeaseRow.pair (l : LeaseRow) : List UInt8 × String := (l.author, l.installationId)
def requestPair (r : WakeRequest) : List UInt8 × String := (r.author, r.installationId)

theorem lookup_readLeases_of_not_mem {leases' : LeaseMap} {rows : List LeaseRow}
    {k : List UInt8 × String} (h : readLeases leases rows = .ok leases')
    (hk : k ∉ rows.map LeaseRow.pair) : leases'.lookup k = leases.lookup k := by
  induction rows generalizing leases with
  | nil =>
      cases h
      rfl
  | cons l rows ih =>
      rw [List.map_cons, List.mem_cons, not_or] at hk
      rw [readLeases] at h
      split at h
      · cases h
      · rw [ih h hk.2]
        exact AList.lookup_insert_ne hk.1

theorem lookup_readLeases {leases' : LeaseMap} {rows : List LeaseRow}
    (h : readLeases leases rows = .ok leases')
    (hkeys : (rows.map LeaseRow.pair).Nodup) (hl : l ∈ rows) :
    ∃ e, l.endpointHash = some e ∧ leases'.lookup l.pair = some (l.generation, e) := by
  induction rows generalizing leases with
  | nil => cases hl
  | cons first rows ih =>
      rw [List.map_cons, List.nodup_cons] at hkeys
      rw [readLeases] at h
      split at h
      · cases h
      · next e he =>
          rcases List.mem_cons.1 hl with rfl | hl
          · refine ⟨e, he, ?_⟩
            rw [lookup_readLeases_of_not_mem h hkeys.1]
            exact AList.lookup_insert _
          · exact ih h hkeys.2 hl

theorem exists_null_of_readLeases {rows : List LeaseRow}
    (h : readLeases leases rows = .error e) :
    ∃ l ∈ rows, l.endpointHash = none := by
  induction rows generalizing leases with
  | nil => cases h
  | cons first rows ih =>
      rw [readLeases] at h
      split at h
      · next hnull => exact ⟨first, List.mem_cons_self, hnull⟩
      · obtain ⟨l, hl, hnull⟩ := ih h
        exact ⟨l, List.mem_cons_of_mem _ hl, hnull⟩

theorem mem_lockLeases : l ∈ lockLeases t now community (lockPairs requests) ↔
    l ∈ t.leases ∧ l.current now community = true ∧ ∃ r ∈ requests, l.pair = requestPair r := by
  have hpairs : (lockPairs requests).contains (l.author, l.installationId) = true ↔
      ∃ r ∈ requests, l.pair = requestPair r := by
    rw [List.contains_iff_mem, lockPairs, List.mem_dedup, List.mem_insertionSort, List.mem_map]
    exact exists_congr fun r => and_congr_right fun _ => eq_comm
  rw [lockLeases, List.mem_filter, Bool.and_eq_true, hpairs]

theorem key_of_current (h : l.current now community = true) :
    l.key = (community, l.pair) := by
  unfold LeaseRow.current at h
  simp only [Bool.and_eq_true, decide_eq_true_eq] at h
  exact Prod.ext h.1.1.1 rfl

/-- An installation has one lease. -/
theorem eq_of_pair_eq {l' : LeaseRow} (hl : l ∈ t.leases) (hl' : l' ∈ t.leases)
    (hcurrent : l.current now community = true)
    (hcurrent' : l'.current now community = true) (h : l.pair = l'.pair) :
    l = l' :=
  List.inj_on_of_nodup_map t.lease_keys hl hl'
    (by rw [key_of_current hcurrent, key_of_current hcurrent', h])

theorem leaseFor_eq_some_iff : leaseFor t now community r = some l ↔
    l ∈ t.leases ∧ l.current now community = true ∧ l.pair = requestPair r := by
  unfold leaseFor
  constructor
  · intro h
    have hl := List.find?_some h
    rw [Bool.and_eq_true, decide_eq_true_eq] at hl
    exact ⟨List.mem_of_find?_eq_some h, hl⟩
  · rintro ⟨hmem, hcurrent, hpair⟩
    cases hfind : t.leases.find? fun l =>
        l.current now community && (l.author, l.installationId) = (r.author, r.installationId) with
    | none =>
        refine absurd ?_ (List.find?_eq_none.1 hfind l hmem)
        rw [Bool.and_eq_true, decide_eq_true_eq]
        exact ⟨hcurrent, hpair⟩
    | some l' =>
        have hl' := List.find?_some hfind
        rw [Bool.and_eq_true, decide_eq_true_eq] at hl'
        rw [eq_of_pair_eq (List.mem_of_find?_eq_some hfind) hmem hl'.1 hcurrent
          (Eq.trans hl'.2 hpair.symm)]

/-- Reading the leases of all requests gives each request its own. -/
theorem endpointFor_eq
    (h : readLeases ∅ (lockLeases t now community (lockPairs requests)) = .ok leases)
    (hr : r ∈ requests) :
    endpointFor t now community r = some (resolve leases r) := by
  have hkeys : ((lockLeases t now community (lockPairs requests)).map LeaseRow.pair).Nodup := by
    have hrows : (lockLeases t now community (lockPairs requests)).Nodup :=
      t.lease_keys.of_map.sublist List.filter_sublist
    rw [List.nodup_map_iff_inj_on hrows]
    intro l hl l' hl' heq
    obtain ⟨hmem, hcurrent, -⟩ := mem_lockLeases.1 hl
    obtain ⟨hmem', hcurrent', -⟩ := mem_lockLeases.1 hl'
    exact eq_of_pair_eq hmem hmem' hcurrent hcurrent' heq
  unfold endpointFor resolve
  cases hlease : leaseFor t now community r with
  | none =>
      have hnone : leases.lookup (requestPair r) = none := by
        rw [lookup_readLeases_of_not_mem h]
        · rfl
        · intro hmem
          obtain ⟨l, hl, hpair⟩ := List.mem_map.1 hmem
          obtain ⟨hmem, hcurrent, -⟩ := mem_lockLeases.1 hl
          rw [leaseFor_eq_some_iff.2 ⟨hmem, hcurrent, hpair⟩] at hlease
          cases hlease
      show some none = some (((leases.lookup (requestPair r)).filter _).map _)
      rw [hnone]
      rfl
  | some l =>
      obtain ⟨hmem, hcurrent, hpair⟩ := leaseFor_eq_some_iff.1 hlease
      obtain ⟨e, he, hlookup⟩ :=
        lookup_readLeases h hkeys (mem_lockLeases.2 ⟨hmem, hcurrent, r, hr, hpair⟩)
      show l.endpointHash.map _ = some (((leases.lookup (requestPair r)).filter _).map _)
      rw [he, ← hpair, hlookup, Option.filter_some]
      by_cases hgeneration : l.generation = r.leaseGeneration
      · rw [if_pos (decide_eq_true hgeneration)]
        exact congrArg some (if_pos hgeneration)
      · rw [if_neg (by rwa [decide_eq_true_eq])]
        exact congrArg some (if_neg hgeneration)

theorem endpointFor_eq_none
    (h : readLeases ∅ (lockLeases t now community (lockPairs requests)) = .error e) :
    ∃ r ∈ requests, endpointFor t now community r = none := by
  obtain ⟨l, hl, hnull⟩ := exists_null_of_readLeases h
  obtain ⟨hmem, hcurrent, r, hr, hpair⟩ := mem_lockLeases.1 hl
  refine ⟨r, hr, ?_⟩
  rw [endpointFor, leaseFor_eq_some_iff.2 ⟨hmem, hcurrent, hpair⟩]
  show l.endpointHash.map _ = none
  rw [hnull]
  rfl

/-! ## One after the other -/

/-- The tables that a call does not write. -/
def SameLeases (t t' : Tables) : Prop := t'.leases = t.leases ∧ t'.refusing = t.refusing

theorem SameLeases.trans {t'' : Tables} (h : SameLeases t t') (h' : SameLeases t' t'') :
    SameLeases t t'' := ⟨h'.1.trans h.1, h'.2.trans h.2⟩

theorem SameLeases.endpointFor (h : SameLeases t t') :
    endpointFor t' now community r = endpointFor t now community r := by
  unfold WakeBatch.endpointFor leaseFor
  rw [h.1]

theorem settle_sameLeases {p : WakeRequest × Option (List UInt8)}
    (h : settle gen t community p = some (t', outcome)) : SameLeases t t' := by
  obtain ⟨r, endpoint⟩ := p
  cases endpoint with
  | none =>
      cases h
      exact ⟨rfl, rfl⟩
  | some e =>
      rw [settle, enqueueAt] at h
      split at h
      · cases h
      · next hrow =>
          cases h
          exact ⟨(insertRow_cases hrow).1, (insertRow_cases hrow).2.1⟩
      · next hrow =>
          obtain ⟨id, -, heq⟩ := Option.map_eq_some_iff.1 h
          cases heq
          exact ⟨(insertRow_cases hrow).1, (insertRow_cases hrow).2.1⟩

theorem call_sameLeases (h : call gen now t community r = some (t', outcome)) :
    SameLeases t t' := by
  unfold call at h
  split at h
  · cases h
  · obtain ⟨endpoint, -, h⟩ := Option.bind_eq_some_iff.1 h
    exact settle_sameLeases h

theorem callAll_eq_settleAll {f : WakeRequest → Option (List UInt8)}
    (hadmits : t.refusing.contains community = false)
    (htext : ∀ r ∈ requests, r.installationId.toList.contains '\x00' = false)
    (h : ∀ r ∈ requests, endpointFor t now community r = some (f r)) :
    callAll gen now t community requests =
      settleAll gen t community (requests.zip (requests.map f)) := by
  induction requests generalizing t with
  | nil => rfl
  | cons r rest ih =>
      rw [List.forall_mem_cons] at htext h
      have hcall : call gen now t community r = settle gen t community (r, f r) := by
        unfold call
        rw [hadmits, htext.1, h.1]
        rfl
      rw [callAll, List.map_cons, List.zip_cons_cons, settleAll, hcall]
      cases hsettle : settle gen t community (r, f r) with
      | none => rfl
      | some result =>
          obtain ⟨t', outcome⟩ := result
          have hsame := settle_sameLeases hsettle
          show (callAll gen now t' community rest).map _ = (settleAll gen t' community _).map _
          rw [ih (hsame.2 ▸ hadmits) htext.2 fun r hr => by rw [hsame.endpointFor, h.2 r hr]]

/-- A request that fails whenever it comes fails the sequence. -/
theorem callAll_eq_none (hr : r ∈ requests)
    (h : ∀ t', SameLeases t t' → call gen now t' community r = none) :
    callAll gen now t community requests = none := by
  induction requests generalizing t with
  | nil => cases hr
  | cons first rest ih =>
      rw [callAll]
      rcases List.mem_cons.1 hr with rfl | hr
      · rw [h t ⟨rfl, rfl⟩]
        rfl
      · cases hcall : call gen now t community first with
        | none => rfl
        | some result =>
            obtain ⟨t', outcome⟩ := result
            have hsame := call_sameLeases hcall
            show (callAll gen now t' community rest).map _ = none
            rw [ih hr fun t'' h'' => h t'' (hsame.trans h'')]
            rfl

theorem enqueueWakes_eq (gen : Nat → Nat) (now : Int) (t : Tables) (community : CommunityId)
    (requests : List WakeRequest) : (enqueueWakes gen now t community requests).toOption =
      callAll gen now t community requests := by
  unfold enqueueWakes
  split
  · next hempty =>
      rw [List.isEmpty_iff.1 hempty]
      rfl
  · next hempty =>
      obtain ⟨first, rest, hrequests⟩ :=
        List.exists_cons_of_ne_nil fun hnil => hempty (List.isEmpty_iff.2 hnil)
      split
      · next hrefused =>
          refine (callAll_eq_none (hrequests ▸ List.mem_cons_self) fun t' hsame => ?_).symm
          rw [call, hsame.2, hrefused]
          rfl
      · next hadmits =>
          split
          · next htext =>
              obtain ⟨r, hr, hnul⟩ := List.any_eq_true.1 htext
              refine (callAll_eq_none hr fun t' _ => ?_).symm
              rw [call, hnul, Bool.or_true]
              rfl
          · next htext =>
              rw [List.any_eq_true] at htext
              split
              · next hnull =>
                  obtain ⟨r, hr, hendpoint⟩ := endpointFor_eq_none hnull
                  refine (callAll_eq_none hr fun t' hsame => ?_).symm
                  rw [call, hsame.endpointFor, hendpoint]
                  split <;> rfl
              · next leases hleases =>
                  rw [insertAndReport_eq]
                  refine (callAll_eq_settleAll (eq_false_of_ne_true hadmits)
                    (fun r hr => eq_false_of_ne_true fun hnul => htext ⟨r, hr, hnul⟩)
                    fun r hr => endpointFor_eq hleases hr).symm

theorem eq_ok_of_toOption {ε α : Type} {x : Except ε α} {a : α} (h : x.toOption = some a) :
    x = .ok a := by
  cases x with
  | error e => cases h
  | ok b => exact congrArg _ (Option.some.inj h)

theorem eq_error_of_toOption {ε α : Type} {x : Except ε α} (h : x.toOption = none) :
    ∃ e, x = .error e := by
  cases x with
  | error e => exact ⟨e, rfl⟩
  | ok b => cases h

theorem enqueueWake_eq (gen : Nat → Nat) (now : Int) (t : Tables) (community : CommunityId)
    (r : WakeRequest) :
    (enqueueWake gen now t community r).toOption = call gen now t community r := by
  have hbatch := enqueueWakes_eq gen now t community [r]
  unfold enqueueWake
  rw [callAll] at hbatch
  cases hcall : call gen now t community r with
  | none =>
      rw [hcall] at hbatch
      obtain ⟨e, he⟩ := eq_error_of_toOption hbatch
      rw [he]
      rfl
  | some result =>
      obtain ⟨t', outcome⟩ := result
      rw [hcall] at hbatch
      rw [eq_ok_of_toOption hbatch]
      rfl

theorem enqueueEach_eq (gen : Nat → Nat) (now : Int) (t : Tables) (community : CommunityId)
    (requests : List WakeRequest) : (enqueueEach gen now t community requests).toOption =
      callAll gen now t community requests := by
  induction requests generalizing t with
  | nil => rfl
  | cons r rest ih =>
      have hfirst := enqueueWake_eq gen now t community r
      rw [enqueueEach, callAll]
      cases hcall : call gen now t community r with
      | none =>
          rw [hcall] at hfirst
          obtain ⟨e, he⟩ := eq_error_of_toOption hfirst
          rw [he]
          rfl
      | some result =>
          obtain ⟨t', outcome⟩ := result
          rw [hcall] at hfirst
          rw [eq_ok_of_toOption hfirst]
          show _ = (callAll gen now t' community rest).map _
          rw [← ih]
          cases henqueue : enqueueEach gen now t' community rest with
          | error e =>
              dsimp only
              rw [henqueue]
              rfl
          | ok result =>
              dsimp only
              rw [henqueue]
              rfl

/-! ## Other ids -/

def OutboxRow.rename (f : Nat → Nat) (o : OutboxRow) : OutboxRow := { o with id := f o.id }

def Outcome.rename (f : Nat → Nat) : Outcome → Outcome
  | enqueued id => enqueued (f id)
  | duplicate id => duplicate (f id)
  | inactiveLease => inactiveLease

/-- The job of an outcome is in the table. -/
def Outcome.InTable (t : Tables) : Outcome → Prop
  | enqueued id => ∃ o ∈ t.outbox, o.id = id
  | duplicate id => ∃ o ∈ t.outbox, o.id = id
  | inactiveLease => True

/-- The ids that are still to be drawn are new and all different. -/
structure Fresh (gen : Nat → Nat) (t : Tables) : Prop where
  injective : Function.Injective gen
  new : ∀ n, t.drawn ≤ n → ∀ o ∈ t.outbox, o.id ≠ gen n

/-- Two tables that differ in the ids of their jobs. -/
structure Renamed (f : Nat → Nat) (t₂ t₁ : Tables) : Prop where
  outbox : t₁.outbox = t₂.outbox.map (OutboxRow.rename f)
  leases : t₁.leases = t₂.leases
  refusing : t₁.refusing = t₂.refusing
  injOn : Set.InjOn f {id | ∃ o ∈ t₂.outbox, o.id = id}

theorem Fresh.insertRow {row : Option OutboxRow} (h : Fresh gen t)
    (hrow : t.insertRow gen c = .ok (t', row)) : Fresh gen t' := by
  obtain ⟨-, -, hdrawn, ⟨-, houtbox, -⟩ | ⟨-, houtbox, -⟩⟩ := insertRow_cases hrow
  · refine ⟨h.injective, fun n hn o ho => ?_⟩
    rw [houtbox] at ho
    exact h.new n (by omega) o ho
  · refine ⟨h.injective, fun n hn o ho => ?_⟩
    rw [houtbox] at ho
    rcases List.mem_append.1 ho with ho | ho
    · exact h.new n (by omega) o ho
    · rw [List.mem_singleton.1 ho]
      intro heq
      have := h.injective heq
      omega

theorem passesChecks_id {id : Nat} :
    { c with id := id }.passesChecks = c.passesChecks := rfl

/-- With new ids the checks alone decide whether an insert goes through. -/
theorem Fresh.insertRow_ok (h : Fresh gen t) (hc : c.passesChecks = true) :
    ∃ t' row, t.insertRow gen c = .ok (t', row) := by
  unfold Tables.insertRow
  dsimp only
  split
  · next hchecks =>
      rw [passesChecks_id, hc] at hchecks
      cases hchecks
  · split
    · exact ⟨_, _, rfl⟩
    · split
      · next htaken =>
          obtain ⟨o, ho, heq⟩ := List.mem_map.1 htaken
          exact absurd (congrArg Prod.snd heq) (h.new t.drawn (Nat.le_refl _) o ho)
      · exact ⟨_, _, rfl⟩

theorem insertRow_error (gen : Nat → Nat) (t : Tables)
    (hc : c.passesChecks = false) :
    ∃ e, t.insertRow gen c = .error e := by
  refine ⟨.checkViolation, if_pos ?_⟩
  rw [passesChecks_id, hc]
  rfl

theorem jobId_renamed (h : Renamed f t₂ t₁) :
    jobId t₁ community key = (jobId t₂ community key).map f := by
  unfold jobId
  rw [h.outbox, List.find?_map, Option.map_map, Option.map_map]
  rfl

theorem conflictKeys_renamed (h : Renamed f t₂ t₁) :
    t₁.outbox.map OutboxRow.conflictKey = t₂.outbox.map OutboxRow.conflictKey := by
  rw [h.outbox, List.map_map]
  rfl

theorem rename_congr {f' : Nat → Nat} (h : ∀ o ∈ t.outbox, f' o.id = f o.id)
    (houtcome : outcome.InTable t) : outcome.rename f' = outcome.rename f := by
  cases outcome with
  | enqueued id =>
      obtain ⟨o, ho, rfl⟩ := houtcome
      exact congrArg _ (h o ho)
  | duplicate id =>
      obtain ⟨o, ho, rfl⟩ := houtcome
      exact congrArg _ (h o ho)
  | inactiveLease => rfl

/-- A new job on both sides is one more pair of ids. -/
theorem Renamed.concat {t₁' t₂' : Tables} {i j : Nat} (h : Renamed f t₂ t₁)
    (hi : ∀ o ∈ t₂.outbox, o.id ≠ i) (hj : ∀ o ∈ t₁.outbox, o.id ≠ j)
    (h₂ : t₂'.outbox = t₂.outbox ++ [{ c with id := i }])
    (h₁ : t₁'.outbox = t₁.outbox ++ [{ c with id := j }])
    (hsame₂ : SameLeases t₂ t₂') (hsame₁ : SameLeases t₁ t₁') :
    Renamed (Function.update f i j) t₂' t₁' := by
  have hold : ∀ o ∈ t₂.outbox, Function.update f i j o.id = f o.id := fun o ho =>
    Function.update_of_ne (hi o ho) _ _
  refine ⟨?_, hsame₁.1.trans (h.leases.trans hsame₂.1.symm),
    hsame₁.2.trans (h.refusing.trans hsame₂.2.symm), ?_⟩
  · rw [h₁, h₂, List.map_append, h.outbox]
    congr 1
    · refine List.map_congr_left fun o ho => ?_
      unfold OutboxRow.rename
      rw [hold o ho]
    · show [_] = [OutboxRow.rename _ _]
      unfold OutboxRow.rename
      rw [Function.update_self]
  · have hnew : ∀ o ∈ t₂.outbox, f o.id ≠ j := by
      intro o ho heq
      refine hj (o.rename f) ?_ heq
      rw [h.outbox]
      exact List.mem_map_of_mem ho
    rintro _ ⟨o, ho, rfl⟩ _ ⟨o', ho', rfl⟩ heq
    rw [h₂] at ho ho'
    rcases List.mem_append.1 ho with ho | ho <;> rcases List.mem_append.1 ho' with ho' | ho'
    · rw [hold o ho, hold o' ho'] at heq
      exact h.injOn ⟨o, ho, rfl⟩ ⟨o', ho', rfl⟩ heq
    · rw [List.mem_singleton.1 ho'] at heq
      rw [hold o ho, Function.update_self] at heq
      exact absurd heq (hnew o ho)
    · rw [List.mem_singleton.1 ho] at heq
      rw [hold o' ho', Function.update_self] at heq
      exact absurd heq.symm (hnew o' ho')
    · rw [List.mem_singleton.1 ho, List.mem_singleton.1 ho']

/-- How two tables stand after the same call, from tables that differ by `f`: the renaming
has grown by the new job, if there is one. -/
structure Grown (gen gen' f f' : Nat → Nat) (t₂ t₂' t₁' : Tables) : Prop where
  renamed : Renamed f' t₂' t₁'
  fresh₂ : Fresh gen' t₂'
  fresh₁ : Fresh gen t₁'
  rows : t₂.outbox <+: t₂'.outbox
  agrees : ∀ o ∈ t₂.outbox, f' o.id = f o.id

theorem settle_renamed (h : Renamed f t₂ t₁) (h₂ : Fresh gen' t₂)
    (h₁ : Fresh gen t₁) (p : WakeRequest × Option (List UInt8)) :
    (settle gen' t₂ community p = none ∧ settle gen t₁ community p = none) ∨
      ∃ t₂' t₁' outcome f', settle gen' t₂ community p = some (t₂', outcome) ∧
        settle gen t₁ community p = some (t₁', outcome.rename f') ∧
        Grown gen gen' f f' t₂ t₂' t₁' ∧ outcome.InTable t₂' := by
  obtain ⟨r, endpoint⟩ := p
  cases endpoint with
  | none =>
      exact .inr ⟨t₂, t₁, .inactiveLease, f, rfl, rfl,
        ⟨h, h₂, h₁, List.prefix_refl _, fun _ _ => rfl⟩, trivial⟩
  | some e =>
      show (enqueueAt gen' t₂ community r e = none ∧ enqueueAt gen t₁ community r e = none) ∨
        ∃ t₂' t₁' outcome f', enqueueAt gen' t₂ community r e = some (t₂', outcome) ∧
          enqueueAt gen t₁ community r e = some (t₁', outcome.rename f') ∧
          Grown gen gen' f f' t₂ t₂' t₁' ∧ outcome.InTable t₂'
      unfold enqueueAt
      by_cases hchecks : (columns community r e).passesChecks = true
      · obtain ⟨t₂', row₂, hrow₂⟩ := h₂.insertRow_ok hchecks
        obtain ⟨t₁', row₁, hrow₁⟩ := h₁.insertRow_ok hchecks
        have hfresh₂ := h₂.insertRow hrow₂
        have hfresh₁ := h₁.insertRow hrow₁
        rw [hrow₂, hrow₁]
        obtain ⟨hleases₂, hrefusing₂, -, hcases₂⟩ := insertRow_cases hrow₂
        obtain ⟨hleases₁, hrefusing₁, -, hcases₁⟩ := insertRow_cases hrow₁
        rw [conflictKeys_renamed h] at hcases₁
        rcases hcases₂ with ⟨hconflict, houtbox₂, rfl⟩ | ⟨hconflict, houtbox₂, rfl⟩
        · -- The job is there, on both sides.
          obtain ⟨-, houtbox₁, rfl⟩ | ⟨hnot, -, -⟩ := hcases₁
          · obtain ⟨id, hid⟩ : ∃ id, jobId t₂ community (e, r.eventId) = some id :=
              Option.ne_none_iff_exists'.1 fun hnone => jobId_eq_none_iff.1 hnone hconflict
            refine .inr ⟨t₂', t₁', .duplicate id, f, ?_, ?_, ⟨?_, hfresh₂, hfresh₁, ?_,
              fun _ _ => rfl⟩, ?_⟩
            · dsimp only
              rw [hid]
              rfl
            · dsimp only
              rw [jobId_renamed h, hid]
              rfl
            · refine ⟨?_, ?_, ?_, ?_⟩
              · rw [houtbox₁, houtbox₂, h.outbox]
              · rw [hleases₁, hleases₂, h.leases]
              · rw [hrefusing₁, hrefusing₂, h.refusing]
              · rw [houtbox₂]
                exact h.injOn
            · rw [houtbox₂]
            · obtain ⟨o, ho, -, hoid⟩ := jobId_eq_some_iff.1 hid
              exact ⟨o, houtbox₂ ▸ ho, hoid⟩
          · exact absurd hconflict hnot
        · obtain ⟨hmem, -, -⟩ | ⟨-, houtbox₁, rfl⟩ := hcases₁
          · exact absurd hmem hconflict
          · have hnew₂ := h₂.new t₂.drawn (Nat.le_refl _)
            refine .inr ⟨t₂', t₁', .enqueued (gen' t₂.drawn),
              Function.update f (gen' t₂.drawn) (gen t₁.drawn), rfl, ?_,
              ⟨h.concat hnew₂ (h₁.new t₁.drawn (Nat.le_refl _)) houtbox₂ houtbox₁
                ⟨hleases₂, hrefusing₂⟩ ⟨hleases₁, hrefusing₁⟩, hfresh₂, hfresh₁, ?_,
                fun o ho => Function.update_of_ne (hnew₂ o ho) _ _⟩, ?_⟩
            · show some (t₁', Outcome.enqueued _) = some (t₁', Outcome.enqueued _)
              rw [Function.update_self]
            · rw [houtbox₂]
              exact List.prefix_append _ _
            · refine ⟨{ columns community r e with id := gen' t₂.drawn }, ?_, rfl⟩
              rw [houtbox₂]
              exact List.mem_append_right _ List.mem_cons_self
      · obtain ⟨e₂, he₂⟩ := insertRow_error gen' t₂ (eq_false_of_ne_true hchecks)
        obtain ⟨e₁, he₁⟩ := insertRow_error gen t₁ (eq_false_of_ne_true hchecks)
        rw [he₂, he₁]
        exact .inl ⟨rfl, rfl⟩

theorem call_renamed (h : Renamed f t₂ t₁) (h₂ : Fresh gen' t₂)
    (h₁ : Fresh gen t₁) (now : Int) (community : CommunityId) (r : WakeRequest) :
    (call gen' now t₂ community r = none ∧ call gen now t₁ community r = none) ∨
      ∃ t₂' t₁' outcome f', call gen' now t₂ community r = some (t₂', outcome) ∧
        call gen now t₁ community r = some (t₁', outcome.rename f') ∧
        Grown gen gen' f f' t₂ t₂' t₁' ∧ outcome.InTable t₂' := by
  have hsame : SameLeases t₂ t₁ := ⟨h.leases, h.refusing⟩
  unfold call
  rw [h.refusing, hsame.endpointFor]
  split
  · exact .inl ⟨rfl, rfl⟩
  · cases endpointFor t₂ now community r with
    | none => exact .inl ⟨rfl, rfl⟩
    | some endpoint => exact settle_renamed h h₂ h₁ (r, endpoint)

/-- Whole sequences of calls, likewise. -/
theorem callAll_renamed (h : Renamed f t₂ t₁) (h₂ : Fresh gen' t₂)
    (h₁ : Fresh gen t₁) (now : Int) (community : CommunityId)
    (requests : List WakeRequest) :
    (callAll gen' now t₂ community requests = none ∧
        callAll gen now t₁ community requests = none) ∨
      ∃ t₂' t₁' outcomes f', callAll gen' now t₂ community requests = some (t₂', outcomes) ∧
        callAll gen now t₁ community requests = some (t₁', outcomes.map (Outcome.rename f')) ∧
        Grown gen gen' f f' t₂ t₂' t₁' := by
  induction requests generalizing t₂ t₁ f with
  | nil =>
      exact .inr ⟨t₂, t₁, [], f, rfl, rfl, h, h₂, h₁, List.prefix_refl _, fun _ _ => rfl⟩
  | cons r rest ih =>
      rw [callAll, callAll]
      rcases call_renamed h h₂ h₁ now community r with ⟨hcall₂, hcall₁⟩ |
        ⟨t₂', t₁', outcome, f', hcall₂, hcall₁, hgrown, hin⟩
      · rw [hcall₂, hcall₁]
        exact .inl ⟨rfl, rfl⟩
      · rw [hcall₂, hcall₁]
        show ((callAll gen' now t₂' community rest).map _ = none ∧
          (callAll gen now t₁' community rest).map _ = none) ∨
            ∃ t₂'' t₁'' outcomes f'', (callAll gen' now t₂' community rest).map _ = _ ∧
              (callAll gen now t₁' community rest).map _ = _ ∧ _
        rcases ih hgrown.renamed hgrown.fresh₂ hgrown.fresh₁ with ⟨hrest₂, hrest₁⟩ |
          ⟨t₂'', t₁'', outcomes, f'', hrest₂, hrest₁, hgrown'⟩
        · rw [hrest₂, hrest₁]
          exact .inl ⟨rfl, rfl⟩
        · rw [hrest₂, hrest₁]
          refine .inr ⟨t₂'', t₁'', outcome :: outcomes, f'', rfl, ?_, hgrown'.renamed,
            hgrown'.fresh₂, hgrown'.fresh₁, hgrown.rows.trans hgrown'.rows, fun o ho => ?_⟩
          · rw [List.map_cons, rename_congr hgrown'.agrees hin]
            rfl
          · rw [hgrown'.agrees o (hgrown.rows.subset ho), hgrown.agrees o ho]

/-- A source of ids for the tables: none comes twice, and none is taken. -/
structure IdSource (t : Tables) where
  gen : Nat → Nat
  fresh : Fresh gen t

/-- There is always one: the numbers above all that are taken. -/
def IdSource.above (t : Tables) : IdSource t where
  gen n := (t.outbox.map OutboxRow.id).sum + 1 + n
  fresh := by
    refine ⟨fun a b h => Nat.add_left_cancel h, fun n _ o ho => ?_⟩
    have hle : o.id ≤ (t.outbox.map OutboxRow.id).sum :=
      List.single_le_sum (fun _ _ => Nat.zero_le _) _ (List.mem_map_of_mem ho)
    omega

/-- The batch and the calls in order, each with ids of its own. Where a call has no outcome the
batch has none; otherwise the outcomes are the same ones and so are the rows, but for the
names of the new jobs. -/
theorem batch_is_calls_in_order (t : Tables) (ids ids' : IdSource t) (now : Int)
    (community : CommunityId) (requests : List WakeRequest) :
    match enqueueEach ids'.gen now t community requests with
    | .error _ => ∃ e, enqueueWakes ids.gen now t community requests = .error e
    | .ok (t₂, outcomes) => ∃ t₁ f,
        enqueueWakes ids.gen now t community requests =
          .ok (t₁, outcomes.map (Outcome.rename f)) ∧
        t₁.outbox = t₂.outbox.map (OutboxRow.rename f) ∧
        Set.InjOn f {id | ∃ o ∈ t₂.outbox, o.id = id} ∧ (∀ o ∈ t.outbox, f o.id = o.id) ∧
        t₁.leases = t₂.leases := by
  have hstart : Renamed id t t := by
    refine ⟨?_, rfl, rfl, Function.injective_id.injOn⟩
    exact (List.map_id _).symm
  have hbatch := enqueueWakes_eq ids.gen now t community requests
  have heach := enqueueEach_eq ids'.gen now t community requests
  rcases callAll_renamed hstart ids'.fresh ids.fresh now community requests with
    ⟨hcalls₂, hcalls₁⟩ | ⟨t₂, t₁, outcomes, f, hcalls₂, hcalls₁, hgrown⟩
  · rw [hcalls₁] at hbatch
    rw [hcalls₂] at heach
    obtain ⟨e, he⟩ := eq_error_of_toOption heach
    rw [he]
    exact eq_error_of_toOption hbatch
  · rw [hcalls₁] at hbatch
    rw [hcalls₂] at heach
    rw [eq_ok_of_toOption heach]
    exact ⟨t₁, f, eq_ok_of_toOption hbatch, hgrown.renamed.outbox, hgrown.renamed.injOn,
      hgrown.agrees, hgrown.renamed.leases⟩

/-! ## Where a call fails -/

/-- Calls that fail stop where they fail: what was enqueued before stays in the
tables the failing call met. The batch is one transaction and leaves nothing. -/
theorem enqueueEach_error
    (h : enqueueEach gen now t community requests = .error e) :
    ∃ before r after t' outcomes, requests = before ++ r :: after ∧
      enqueueEach gen now t community before = .ok (t', outcomes) ∧
      enqueueWake gen now t' community r = .error e := by
  induction requests generalizing t with
  | nil => cases h
  | cons first rest ih =>
      rw [enqueueEach] at h
      split at h
      · next e' hfirst =>
          cases h
          exact ⟨[], first, rest, t, [], rfl, rfl, hfirst⟩
      · next t₁ outcome hfirst =>
          split at h
          · next e' hrest =>
              cases h
              obtain ⟨before, r, after, t', outcomes, rfl, hbefore, hr⟩ := ih hrest
              refine ⟨first :: before, r, after, t', outcome :: outcomes, rfl, ?_, hr⟩
              rw [enqueueEach, hfirst]
              dsimp only
              rw [hbefore]
          · cases h

/-- Requests as the matcher makes them, of a community that admits writes, over
leases that keep the checks of their table. -/
structure Passing (t : Tables) (now : Int) (community : CommunityId)
    (requests : List WakeRequest) : Prop where
  admits : t.refusing.contains community = false
  text : ∀ r ∈ requests, r.installationId.toList.contains '\x00' = false
  columns : ∀ r ∈ requests, r.author.length = 32 ∧ 0 < r.leaseGeneration ∧
    r.eventId.length = 32 ∧
    r.wakeClass ∈ ["silent", "default", "time_sensitive", "urgent"]
  leases : ∀ l ∈ t.leases, l.current now community = true →
    ∃ e, l.endpointHash = some e ∧ e.length = 32

theorem Passing.endpointFor (h : Passing t now community requests) :
    ∃ endpoint, endpointFor t now community r = some endpoint ∧
      ∀ e, endpoint = some e → e.length = 32 := by
  unfold WakeBatch.endpointFor
  cases hlease : leaseFor t now community r with
  | none => exact ⟨none, rfl, nofun⟩
  | some l =>
      have hcurrent := List.find?_some hlease
      rw [Bool.and_eq_true] at hcurrent
      obtain ⟨e, he, hlength⟩ :=
        h.leases l (List.mem_of_find?_eq_some hlease) hcurrent.1
      dsimp only
      rw [he]
      refine ⟨_, rfl, fun e' he' => ?_⟩
      split at he'
      · cases he'
        exact hlength
      · cases he'

/-- A call that passes has an outcome, and what it leaves passes again. -/
theorem Passing.call (h : Passing t now community requests) (hr : r ∈ requests)
    (hfresh : Fresh gen t) :
    ∃ t' outcome, call gen now t community r = some (t', outcome) ∧ Fresh gen t' := by
  obtain ⟨endpoint, hendpoint, hlength⟩ := h.endpointFor
  have hcall : WakeBatch.call gen now t community r =
      settle gen t community (r, endpoint) := by
    unfold WakeBatch.call
    rw [h.admits, h.text r hr, hendpoint]
    rfl
  rw [hcall]
  cases endpoint with
  | none => exact ⟨t, _, rfl, hfresh⟩
  | some e =>
      obtain ⟨hauthor, hgeneration, hevent, hclass⟩ := h.columns r hr
      have hpasses : (WakeBatch.columns community r e).passesChecks = true := by
        have hcontains := List.contains_iff_mem.2 hclass
        unfold OutboxRow.passesChecks WakeBatch.columns
        rw [hcontains, hauthor, hevent, hlength e rfl, decide_eq_true hgeneration]
        rfl
      obtain ⟨t', row, hrow⟩ := hfresh.insertRow_ok hpasses
      have hnext := hfresh.insertRow hrow
      rw [settle, enqueueAt, hrow]
      obtain ⟨-, -, -, ⟨htaken, -, rfl⟩ | ⟨-, -, rfl⟩⟩ := insertRow_cases hrow
      · -- a row that was skipped has its key in the table already
        obtain ⟨o, ho, hkey⟩ := List.mem_map.1 htaken
        have hid : jobId t community (e, r.eventId) = some o.id :=
          jobId_eq_some_iff.2 ⟨o, ho, hkey, rfl⟩
        refine ⟨t', .duplicate o.id, ?_, hnext⟩
        rw [hid]
        rfl
      · exact ⟨t', _, rfl, hnext⟩

/-- Requests that pass the checks all have an outcome: no call of the sequence
fails, and so the batch does not. -/
theorem Passing.enqueueEach_ok (h : Passing t now community requests)
    (ids : IdSource t) : ∃ t' outcomes,
      enqueueEach ids.gen now t community requests = .ok (t', outcomes) := by
  have hcalls : ∀ {t : Tables}, Passing t now community requests → Fresh ids.gen t →
      ∃ result, callAll ids.gen now t community requests = some result := by
    clear h
    induction requests with
    | nil => exact fun _ _ => ⟨_, rfl⟩
    | cons r rest ih =>
        intro t h hfresh
        obtain ⟨t', outcome, hcall, hfresh'⟩ := h.call List.mem_cons_self hfresh
        have hsame := call_sameLeases hcall
        have hrest : Passing t' now community rest :=
          ⟨hsame.2 ▸ h.admits, fun r hr => h.text r (.tail _ hr),
            fun r hr => h.columns r (.tail _ hr), hsame.1 ▸ h.leases⟩
        obtain ⟨result, hresult⟩ := ih hrest hfresh'
        refine ⟨(result.1, outcome :: result.2), ?_⟩
        rw [callAll, hcall, Option.bind_some]
        dsimp only
        rw [hresult]
        rfl
  obtain ⟨⟨t', outcomes⟩, hresult⟩ := hcalls h ids.fresh
  refine ⟨t', outcomes, eq_ok_of_toOption ?_⟩
  rw [enqueueEach_eq, hresult]

end Buzz.Db.WakeBatch
