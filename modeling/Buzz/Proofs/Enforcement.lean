import Buzz.Relay.Enforcement

/-!
# Enforcement happens once or not at all

What any transaction can do to reports and actions is listed once, as
`TableStep`, and the invariant is kept by each of its cases. Leases, tokens and
drivers play no part in it: a driver with a lost lease is stopped by the marker
and the back-pointer, not by its token. All the argument needs of a driver is
that it finishes a direct action as one, which is `Matches`.
-/

namespace Buzz.Db

open Buzz.Lib

/-- The action stands between its report and everybody else. -/
def ActionRow.unsettled (a : ActionRow) : Bool :=
  a.state = .pending || a.state = .enforcing || a.state = .failed

/-- The part of the tables the argument is about. -/
structure AdminTables where
  reports : HMap ReportKey ReportRow
  actions : HMap Nat ActionRow
  nextAction : Nat
  executed : List Nat

def AdminStore.tables (s : AdminStore) : AdminTables :=
  ⟨s.reports, s.actions, s.nextAction, s.executed⟩

/-- What a step does that takes a report out of processing. -/
inductive Leaving where
  | no
  | finalize (id : Nat)
  | cancel (id : Nat) (key : ReportKey)

/-- Everything a transaction may do to them. -/
inductive TableStep (t : AdminTables) : Leaving → AdminTables → Prop where
  | refl : TableStep t .no t
  | file {key : ReportKey} {r : ReportRow} (hkey : t.reports.lookup key = none)
      (hstatus : r.status ≠ .processing) (hactive : r.activeActionId = none) :
      TableStep t .no { t with reports := t.reports.insert key r }
  | resolve {key : ReportKey} {r : ReportRow} {terminal : TerminalStatus}
      (hkey : t.reports.lookup key = some r) (hopen : r.status = .isOpen) :
      TableStep t .no
        { t with reports := t.reports.insert key
                   { r with status := .closed terminal, activeActionId := none } }
  | claim {key : ReportKey} {r : ReportRow} {a : ActionRow}
      (hkey : t.reports.lookup key = some r) (hopen : r.status = .isOpen)
      (hon : a.isOn key) (hstate : a.state = .pending) (hmarker : a.stepMarker = none) :
      TableStep t .no
        { t with
            reports := t.reports.insert key
              { r with status := .processing, activeActionId := some t.nextAction }
            actions := t.actions.insert t.nextAction a
            nextAction := t.nextAction + 1 }
  | direct {a : ActionRow} (hreport : a.reportId = none) (hstate : a.state = .pending)
      (hmarker : a.stepMarker = none) :
      TableStep t .no
        { t with actions := t.actions.insert t.nextAction a, nextAction := t.nextAction + 1 }
  | reopen {key : ReportKey} {r : ReportRow} {a : ActionRow}
      (hkey : t.reports.lookup key = some r) (hclosed : r.status ≠ .processing)
      (hstate : a.state = .succeeded) (hmarker : a.stepMarker = none) :
      TableStep t .no
        { t with
            reports := t.reports.insert key { r with status := .isOpen, activeActionId := none }
            actions := t.actions.insert t.nextAction a
            nextAction := t.nextAction + 1 }
  | lease {id : Nat} {a a' : ActionRow} (hid : t.actions.lookup id = some a)
      (hreport : a'.reportId = a.reportId) (hcommunity : a'.community = a.community)
      (hstate : a'.state = a.state) (hmarker : a'.stepMarker = a.stepMarker) :
      TableStep t .no { t with actions := t.actions.insert id a' }
  | enforce {id : Nat} {a : ActionRow} (hid : t.actions.lookup id = some a)
      (hstate : a.state = .pending) :
      TableStep t .no { t with actions := t.actions.insert id { a with state := .enforcing } }
  | mark {id : Nat} {a : ActionRow} (hid : t.actions.lookup id = some a)
      (hstate : a.state = .enforcing) (hmarker : a.stepMarker = none) :
      TableStep t .no
        { t with
            actions := t.actions.insert id { a with stepMarker := some .mutationCommitted }
            executed := t.executed ++ [id] }
  | fail {id : Nat} {a : ActionRow} (hid : t.actions.lookup id = some a)
      (hstate : a.state = .enforcing) (hmarker : a.stepMarker = none) :
      TableStep t .no { t with actions := t.actions.insert id { a with state := .failed } }
  | finalizeDirect {id : Nat} {a : ActionRow} (hid : t.actions.lookup id = some a)
      (hreport : a.reportId = none) (hmarker : a.stepMarker = some .mutationCommitted) :
      TableStep t .no
        { t with actions := t.actions.insert id
                   { a with state := .succeeded, stepMarker := some .artifactsDone } }
  | finalize {id : Nat} {a : ActionRow} {key : ReportKey} {r : ReportRow}
      (hid : t.actions.lookup id = some a) (hstate : a.state = .enforcing)
      (hmarker : a.stepMarker = some .mutationCommitted)
      (hkey : t.reports.lookup key = some r) (hactive : r.activeActionId = some id) :
      TableStep t (.finalize id)
        { t with
            actions := t.actions.insert id
              { a with state := .succeeded, stepMarker := some .artifactsDone }
            reports := t.reports.insert key
              { r with status := .closed .resolved, activeActionId := none } }
  | cancel {id : Nat} {a : ActionRow} {key : ReportKey} {r : ReportRow}
      {cancelledBy : PublicKey}
      (hid : t.actions.lookup id = some a) (hstate : a.state = .failed)
      (hmarker : a.stepMarker = none)
      (hkey : t.reports.lookup key = some r) (hactive : r.activeActionId = some id) :
      TableStep t (.cancel id key)
        { t with
            actions := t.actions.insert id
              { a with state := .cancelled, cancelledBy := some cancelledBy }
            reports := t.reports.insert key { r with status := .isOpen, activeActionId := none } }

/-! ## The invariant -/

/-- How often the action's mutation must have committed. -/
def markCount (row : Option ActionRow) : Nat :=
  if row.any (·.stepMarker.isSome) then 1 else 0

/-- Actions are executed as often as they are marked, and a report in processing
has one unsettled action, its own. -/
structure EnforcementInv (t : AdminTables) : Prop where
  fresh : ∀ (id : Nat) (a : ActionRow), t.actions.lookup id = some a → id < t.nextAction
  counted : ∀ id : Nat, t.executed.count id = markCount (t.actions.lookup id)
  unmarked : ∀ (id : Nat) (a : ActionRow), t.actions.lookup id = some a →
    a.state = .failed ∨ a.state = .cancelled → a.stepMarker = none
  settled : ∀ (key : ReportKey) (r : ReportRow), t.reports.lookup key = some r →
    r.status ≠ .processing → r.activeActionId = none
  active : ∀ (key : ReportKey) (r : ReportRow), t.reports.lookup key = some r →
    r.status = .processing → ∃ id a, r.activeActionId = some id ∧
      t.actions.lookup id = some a ∧ a.isOn key ∧ a.unsettled
  owned : ∀ (id : Nat) (a : ActionRow) (key : ReportKey), t.actions.lookup id = some a →
    a.isOn key → a.unsettled → ∃ r, t.reports.lookup key = some r ∧ r.activeActionId = some id

namespace EnforcementInv

variable {t t' : AdminTables} {a : ActionRow} {key : ReportKey} {r : ReportRow}

section

variable (h : EnforcementInv t)
include h

theorem lookup_nextAction : t.actions.lookup t.nextAction = none := by
  cases hid : t.actions.lookup t.nextAction with
  | none => rfl
  | some a => exact absurd (h.fresh _ a hid) (Nat.lt_irrefl _)

/-- The report an unsettled action is on is in its hands. -/
theorem report_processing {id : Nat} (hid : t.actions.lookup id = some a)
    (hon : a.isOn key) (ha : a.unsettled) :
    ∃ r, t.reports.lookup key = some r ∧ r.status = .processing ∧
      r.activeActionId = some id := by
  obtain ⟨r, hr, hactive⟩ := h.owned id a key hid hon ha
  refine ⟨r, hr, ?_, hactive⟩
  by_contra hstatus
  rw [h.settled key r hr hstatus] at hactive
  cases hactive

/-- The action a report points at is on that report. -/
theorem active_isOn {id : Nat} (hkey : t.reports.lookup key = some r)
    (hactive : r.activeActionId = some id) (hid : t.actions.lookup id = some a) :
    r.status = .processing ∧ a.isOn key ∧ a.unsettled := by
  have hstatus : r.status = .processing := by
    by_contra hstatus
    rw [h.settled key r hkey hstatus] at hactive
    cases hactive
  obtain ⟨id', a', hactive', hid', hon, ha⟩ := h.active key r hkey hstatus
  rw [hactive] at hactive'
  cases hactive'
  rw [hid] at hid'
  cases hid'
  exact ⟨hstatus, hon, ha⟩

omit h in
theorem isOn_unique {key' : ReportKey} (h : a.isOn key) (h' : a.isOn key') :
    key = key' := by
  simp only [ActionRow.isOn, Bool.and_eq_true, decide_eq_true_eq] at h h'
  have hid : key.2 = key'.2 := Option.some.inj (h.2.symm.trans h'.2)
  exact Prod.ext (h.1.symm.trans h'.1) hid

/-! ## What keeps it -/

theorem fresh_insert {id n : Nat} (hid : id < n) (hn : t.nextAction ≤ n)
    (j : Nat) (b : ActionRow) (hj : (t.actions.insert id a).lookup j = some b) :
    j < n := by
  rcases HMap.lookup_insert_cases hj with ⟨rfl, rfl⟩ | ⟨-, hj⟩
  · exact hid
  · exact Nat.lt_of_lt_of_le (h.fresh j b hj) hn

theorem counted_insert {id : Nat}
    (hsame : markCount (some a) = markCount (t.actions.lookup id)) (j : Nat) :
    t.executed.count j = markCount ((t.actions.insert id a).lookup j) := by
  rw [h.counted j, HMap.lookup_insert_ite]
  split
  · next heq => rw [heq, hsame]
  · rfl

theorem unmarked_insert {id : Nat}
    (hshape : a.state = .failed ∨ a.state = .cancelled → a.stepMarker = none)
    (j : Nat) (b : ActionRow) (hj : (t.actions.insert id a).lookup j = some b) :
    b.state = .failed ∨ b.state = .cancelled → b.stepMarker = none := by
  rcases HMap.lookup_insert_cases hj with ⟨rfl, rfl⟩ | ⟨-, hj⟩
  · exact hshape
  · exact h.unmarked j b hj

/-- A row stays where a new one is written. -/
theorem lookup_insert_new {j : Nat} {b : ActionRow}
    (hj : t.actions.lookup j = some b) :
    (t.actions.insert t.nextAction a).lookup j = some b := by
  rw [HMap.lookup_insert_ite, if_neg (Nat.ne_of_lt (h.fresh j b hj))]
  exact hj

/-- A row changes, and neither its report nor its marker notices. -/
theorem row {id : Nat} {a' : ActionRow} (hid : t.actions.lookup id = some a)
    (hon : ∀ key, a'.isOn key = a.isOn key)
    (hunsettled : ∀ key, a.isOn key → a'.unsettled = a.unsettled)
    (hmarker : a'.stepMarker.isSome = a.stepMarker.isSome)
    (hshape : a'.state = .failed ∨ a'.state = .cancelled → a'.stepMarker = none) :
    EnforcementInv { t with actions := t.actions.insert id a' } where
  fresh := h.fresh_insert (h.fresh _ a hid) (Nat.le_refl _)
  counted := h.counted_insert (by rw [hid]; simp [markCount, hmarker])
  unmarked := h.unmarked_insert hshape
  settled := h.settled
  active key r hr hstatus := by
    obtain ⟨j, b, hactive, hj, hb, hb'⟩ := h.active key r hr hstatus
    by_cases heq : j = id
    · subst heq
      rw [hid] at hj
      cases hj
      exact ⟨j, a', hactive, by simp, by rw [hon]; exact hb, by rw [hunsettled key hb]; exact hb'⟩
    · refine ⟨j, b, hactive, ?_, hb, hb'⟩
      show (t.actions.insert id a').lookup j = some b
      rw [HMap.lookup_insert_ite, if_neg heq]
      exact hj
  owned j b key hj hb hb' := by
    rcases HMap.lookup_insert_cases hj with ⟨rfl, rfl⟩ | ⟨-, hj⟩
    · rw [hon] at hb
      rw [hunsettled key hb] at hb'
      exact h.owned j a key hid hb hb'
    · exact h.owned j b key hj hb hb'

/-- A new action that keeps no report. -/
theorem insertAction (hmarker : a.stepMarker = none)
    (hquiet : ∀ key, a.isOn key → a.unsettled = false) :
    EnforcementInv { t with
      actions := t.actions.insert t.nextAction a, nextAction := t.nextAction + 1 } where
  fresh := h.fresh_insert (Nat.lt_succ_self _) (Nat.le_succ _)
  counted := h.counted_insert (by rw [h.lookup_nextAction]; simp [markCount, hmarker])
  unmarked := h.unmarked_insert fun _ => hmarker
  settled := h.settled
  active key r hr hstatus := by
    obtain ⟨j, b, hactive, hj, hb⟩ := h.active key r hr hstatus
    exact ⟨j, b, hactive, h.lookup_insert_new hj, hb⟩
  owned j b key hj hb hb' := by
    rcases HMap.lookup_insert_cases hj with ⟨rfl, rfl⟩ | ⟨-, hj⟩
    · rw [hquiet key hb] at hb'
      cases hb'
    · exact h.owned j b key hj hb hb'

/-- A report that no action keeps is written, and still none does. -/
theorem report {r' : ReportRow}
    (hkey : ∀ r, t.reports.lookup key = some r → r.status ≠ .processing)
    (hstatus : r'.status ≠ .processing) (hactive : r'.activeActionId = none) :
    EnforcementInv { t with reports := t.reports.insert key r' } where
  fresh := h.fresh
  counted := h.counted
  unmarked := h.unmarked
  settled key' r hr := by
    rcases HMap.lookup_insert_cases hr with ⟨rfl, rfl⟩ | ⟨-, hr⟩
    · exact fun _ => hactive
    · exact h.settled key' r hr
  active key' r hr hr' := by
    rcases HMap.lookup_insert_cases hr with ⟨rfl, rfl⟩ | ⟨-, hr⟩
    · exact absurd hr' hstatus
    · exact h.active key' r hr hr'
  owned j b key' hj hb hb' := by
    obtain ⟨r, hr, hrstatus, hractive⟩ := h.report_processing hj hb hb'
    refine ⟨r, ?_, hractive⟩
    show (t.reports.insert key r').lookup key' = some r
    rw [HMap.lookup_insert_ite, if_neg]
    · exact hr
    · rintro rfl
      exact hkey r hr hrstatus

/-- An open report is handed to a new action. -/
theorem claim (hkey : t.reports.lookup key = some r)
    (hopen : r.status ≠ .processing) (hon : a.isOn key)
    (hunsettled : a.unsettled) (hmarker : a.stepMarker = none) :
    EnforcementInv { t with
      reports := t.reports.insert key
        { r with status := .processing, activeActionId := some t.nextAction }
      actions := t.actions.insert t.nextAction a
      nextAction := t.nextAction + 1 } where
  fresh := h.fresh_insert (Nat.lt_succ_self _) (Nat.le_succ _)
  counted := h.counted_insert (by rw [h.lookup_nextAction]; simp [markCount, hmarker])
  unmarked := h.unmarked_insert fun _ => hmarker
  settled key' r' hr' := by
    rcases HMap.lookup_insert_cases hr' with ⟨rfl, rfl⟩ | ⟨-, hr'⟩
    · exact fun hne => absurd rfl hne
    · exact h.settled key' r' hr'
  active key' r' hr' hstatus := by
    rcases HMap.lookup_insert_cases hr' with ⟨rfl, rfl⟩ | ⟨-, hr'⟩
    · exact ⟨t.nextAction, a, rfl, by simp, hon, hunsettled⟩
    · obtain ⟨j, b, hactive, hj, hb⟩ := h.active key' r' hr' hstatus
      exact ⟨j, b, hactive, h.lookup_insert_new hj, hb⟩
  owned j b key' hj hb hb' := by
    rcases HMap.lookup_insert_cases hj with ⟨rfl, rfl⟩ | ⟨-, hj⟩
    · obtain rfl := isOn_unique hon hb
      exact ⟨_, AList.lookup_insert _, rfl⟩
    · obtain ⟨r', hr', hrstatus, hractive⟩ := h.report_processing hj hb hb'
      refine ⟨r', ?_, hractive⟩
      show (t.reports.insert key _).lookup key' = some r'
      rw [HMap.lookup_insert_ite, if_neg]
      · exact hr'
      · rintro rfl
        rw [hkey] at hr'
        cases hr'
        exact hopen hrstatus

/-- The mutation commits with its marker. -/
theorem mark {id : Nat} (hid : t.actions.lookup id = some a)
    (hstate : a.state = .enforcing) (hmarker : a.stepMarker = none) :
    EnforcementInv { t with
      actions := t.actions.insert id { a with stepMarker := some .mutationCommitted }
      executed := t.executed ++ [id] } where
  fresh := h.fresh_insert (h.fresh _ a hid) (Nat.le_refl _)
  counted j := by
    show (t.executed ++ [id]).count j = _
    rw [List.count_append, h.counted j, HMap.lookup_insert_ite]
    split
    · next heq => rw [heq, hid]; simp [markCount, hmarker]
    · next hne => simp [Ne.symm hne]
  unmarked := h.unmarked_insert fun hbad => by
    rcases hbad with hbad | hbad <;> cases hstate.symm.trans hbad
  settled := h.settled
  active key r hr hstatus := by
    obtain ⟨j, b, hactive, hj, hb, hb'⟩ := h.active key r hr hstatus
    by_cases heq : j = id
    · subst heq
      rw [hid] at hj
      cases hj
      exact ⟨j, { a with stepMarker := some .mutationCommitted }, hactive,
        AList.lookup_insert _, hb, hb'⟩
    · refine ⟨j, b, hactive, ?_, hb, hb'⟩
      show (t.actions.insert id _).lookup j = some b
      rw [HMap.lookup_insert_ite, if_neg heq]
      exact hj
  owned j b key hj hb hb' := by
    rcases HMap.lookup_insert_cases hj with ⟨rfl, rfl⟩ | ⟨-, hj⟩
    · exact h.owned j a key hid hb hb'
    · exact h.owned j b key hj hb hb'

/-- An action settles, and gives its report back. -/
theorem settle {id : Nat} {a' : ActionRow} {r' : ReportRow}
    (hid : t.actions.lookup id = some a) (hunsettled : a'.unsettled = false)
    (hmarker : a'.stepMarker.isSome = a.stepMarker.isSome)
    (hshape : a'.state = .failed ∨ a'.state = .cancelled → a'.stepMarker = none)
    (hkey : t.reports.lookup key = some r)
    (hactive : r.activeActionId = some id) (hstatus' : r'.status ≠ .processing)
    (hactive' : r'.activeActionId = none) :
    EnforcementInv { t with
      actions := t.actions.insert id a', reports := t.reports.insert key r' } where
  fresh := h.fresh_insert (h.fresh _ a hid) (Nat.le_refl _)
  counted := h.counted_insert (by rw [hid]; simp [markCount, hmarker])
  unmarked := h.unmarked_insert hshape
  settled key' x hx := by
    rcases HMap.lookup_insert_cases hx with ⟨rfl, rfl⟩ | ⟨-, hx⟩
    · exact fun _ => hactive'
    · exact h.settled key' x hx
  active key' x hx hx' := by
    rcases HMap.lookup_insert_cases hx with ⟨rfl, rfl⟩ | ⟨hne, hx⟩
    · exact absurd hx' hstatus'
    · obtain ⟨j, b, hxactive, hj, hb, hb'⟩ := h.active key' x hx hx'
      refine ⟨j, b, hxactive, ?_, hb, hb'⟩
      show (t.actions.insert id a').lookup j = some b
      rw [HMap.lookup_insert_ite, if_neg]
      · exact hj
      · rintro rfl
        obtain ⟨-, hon, -⟩ := h.active_isOn hkey hactive hj
        exact hne (isOn_unique hb hon)
  owned j b key' hj hb hb' := by
    rcases HMap.lookup_insert_cases hj with ⟨rfl, rfl⟩ | ⟨hne, hj⟩
    · rw [hunsettled] at hb'
      cases hb'
    · obtain ⟨x, hx, hxactive⟩ := h.owned j b key' hj hb hb'
      refine ⟨x, ?_, hxactive⟩
      show (t.reports.insert key r').lookup key' = some x
      rw [HMap.lookup_insert_ite, if_neg]
      · exact hx
      · rintro rfl
        rw [hkey] at hx
        cases hx
        rw [hactive] at hxactive
        exact hne (Option.some.inj hxactive).symm

omit h in
theorem isOn_of_none (h : a.reportId = none) (key : ReportKey) :
    a.isOn key = false := by
  simp [ActionRow.isOn, h]

/-- Every transaction keeps the invariant. -/
theorem step {leaving : Leaving} (hstep : TableStep t leaving t') :
    EnforcementInv t' := by
  cases hstep with
  | refl => exact h
  | file hkey hstatus hactive =>
      refine h.report ?_ hstatus hactive
      intro r hr
      rw [hkey] at hr
      cases hr
  | resolve hkey hopen =>
      refine h.report ?_ (by simp) rfl
      intro r hr
      rw [hkey] at hr
      cases hr
      simp [hopen]
  | claim hkey hopen hon hstate hmarker =>
      exact h.claim hkey (by simp [hopen]) hon (by simp [ActionRow.unsettled, hstate]) hmarker
  | direct hreport hstate hmarker =>
      refine h.insertAction hmarker fun key hon => ?_
      rw [isOn_of_none hreport key] at hon
      cases hon
  | reopen hkey hclosed hstate hmarker =>
      have hinserted := h.insertAction hmarker fun key _ => by
        simp [ActionRow.unsettled, hstate]
      refine hinserted.report ?_ (by simp) rfl
      intro r hr
      rw [show t.reports.lookup _ = _ from hkey] at hr
      cases hr
      exact hclosed
  | lease hid hreport hcommunity hstate hmarker =>
      refine h.row hid ?_ ?_ (by rw [hmarker]) ?_
      · intro key
        simp [ActionRow.isOn, hreport, hcommunity]
      · intro key _
        simp [ActionRow.unsettled, hstate]
      · rw [hstate, hmarker]
        exact h.unmarked _ _ hid
  | enforce hid hstate =>
      exact h.row hid (fun _ => rfl) (fun _ _ => by simp [ActionRow.unsettled, hstate]) rfl
        (by simp)
  | mark hid hstate hmarker => exact h.mark hid hstate hmarker
  | fail hid hstate hmarker =>
      exact h.row hid (fun _ => rfl) (fun _ _ => by simp [ActionRow.unsettled, hstate]) rfl
        (fun _ => hmarker)
  | finalizeDirect hid hreport hmarker =>
      refine h.row hid (fun _ => rfl) ?_ (by simp [hmarker]) (by simp)
      intro key hon
      rw [isOn_of_none hreport key] at hon
      cases hon
  | finalize hid _ hmarker hkey hactive =>
      exact h.settle hid rfl (by simp [hmarker]) (by simp) hkey hactive (by simp) rfl
  | cancel hid _ hmarker hkey hactive =>
      exact h.settle hid rfl rfl (fun _ => hmarker) hkey hactive (by simp) rfl

end

end EnforcementInv

namespace TableStep

variable {t t' : AdminTables} {leaving : Leaving}

/-- An action stays, and stays on its report. -/
theorem action_kept (hinv : EnforcementInv t) (hstep : TableStep t leaving t') {id : Nat}
    {a : ActionRow} (hid : t.actions.lookup id = some a) :
    ∃ a', t'.actions.lookup id = some a' ∧ a'.reportId = a.reportId := by
  have hnew : id ≠ t.nextAction := Nat.ne_of_lt (hinv.fresh id a hid)
  -- A step writes the row of one action, and never its report.
  have hrow : ∀ (j : Nat) (b b' : ActionRow), t.actions.lookup j = some b →
      b'.reportId = b.reportId →
      ∃ a', (t.actions.insert j b').lookup id = some a' ∧ a'.reportId = a.reportId := by
    intro j b b' hj hb
    rw [HMap.lookup_insert_ite]
    split
    · next heq =>
        subst heq
        rw [hid] at hj
        cases hj
        exact ⟨b', rfl, hb⟩
    · exact ⟨a, hid, rfl⟩
  have hinsert : ∀ b : ActionRow,
      ∃ a', (t.actions.insert t.nextAction b).lookup id = some a' ∧
        a'.reportId = a.reportId := by
    intro b
    rw [HMap.lookup_insert_ite, if_neg hnew]
    exact ⟨a, hid, rfl⟩
  cases hstep with
  | refl => exact ⟨a, hid, rfl⟩
  | file => exact ⟨a, hid, rfl⟩
  | resolve => exact ⟨a, hid, rfl⟩
  | claim => exact hinsert _
  | direct => exact hinsert _
  | reopen => exact hinsert _
  | lease hj hreport => exact hrow _ _ _ hj hreport
  | enforce hj => exact hrow _ _ _ hj rfl
  | mark hj => exact hrow _ _ _ hj rfl
  | fail hj => exact hrow _ _ _ hj rfl
  | finalizeDirect hj => exact hrow _ _ _ hj rfl
  | finalize hj => exact hrow _ _ _ hj rfl
  | cancel hj => exact hrow _ _ _ hj rfl

/-- How a report in processing can look after a step. -/
inductive AfterProcessing (t t' : AdminTables) (key : ReportKey) (r : ReportRow) :
    Leaving → Prop where
  | stays {leaving : Leaving} (hr : t'.reports.lookup key = some r) :
      AfterProcessing t t' key r leaving
  | finalized {id : Nat} {a a' : ActionRow} (hactive : r.activeActionId = some id)
      (hid : t.actions.lookup id = some a) (hmarker : a.stepMarker = some .mutationCommitted)
      (hid' : t'.actions.lookup id = some a') (hstate' : a'.state = .succeeded)
      (hr : t'.reports.lookup key =
        some { r with status := .closed .resolved, activeActionId := none }) :
      AfterProcessing t t' key r (.finalize id)
  | cancelled {id : Nat} {a a' : ActionRow} (hactive : r.activeActionId = some id)
      (hid : t.actions.lookup id = some a) (hstate : a.state = .failed)
      (hmarker : a.stepMarker = none)
      (hid' : t'.actions.lookup id = some a') (hstate' : a'.state = .cancelled)
      (hr : t'.reports.lookup key = some { r with status := .isOpen, activeActionId := none }) :
      AfterProcessing t t' key r (.cancel id key)

theorem afterProcessing (hstep : TableStep t leaving t') {key : ReportKey} {r : ReportRow}
    (hr : t.reports.lookup key = some r) (hprocessing : r.status = .processing) :
    AfterProcessing t t' key r leaving := by
  -- A report written by the step is another one, unless it was this one.
  have hother : ∀ (key' : ReportKey) (r' : ReportRow),
      (∀ x, t.reports.lookup key' = some x → x.status ≠ .processing) →
      (t.reports.insert key' r').lookup key = some r := by
    intro key' r' hkey'
    rw [HMap.lookup_insert_ite, if_neg]
    · exact hr
    · rintro rfl
      exact hkey' r hr hprocessing
  cases hstep with
  | refl => exact .stays hr
  | file hkey' =>
      refine .stays (hother _ _ fun x hx => ?_)
      rw [hkey'] at hx
      cases hx
  | resolve hkey' hopen =>
      refine .stays (hother _ _ fun x hx => ?_)
      rw [hkey'] at hx
      cases hx
      simp [hopen]
  | claim hkey' hopen =>
      refine .stays (hother _ _ fun x hx => ?_)
      rw [hkey'] at hx
      cases hx
      simp [hopen]
  | direct => exact .stays hr
  | reopen hkey' hclosed =>
      refine .stays (hother _ _ fun x hx => ?_)
      rw [hkey'] at hx
      cases hx
      exact hclosed
  | lease => exact .stays hr
  | enforce => exact .stays hr
  | mark => exact .stays hr
  | fail => exact .stays hr
  | finalizeDirect => exact .stays hr
  | @finalize id a key' r' hid hstate hmarker hkey' hactive =>
      by_cases heq : key = key'
      · subst heq
        rw [hr] at hkey'
        cases hkey'
        exact .finalized hactive hid hmarker (AList.lookup_insert _) rfl
          (AList.lookup_insert _)
      · refine .stays ?_
        show (t.reports.insert key' _).lookup key = some r
        rw [HMap.lookup_insert_ite, if_neg heq]
        exact hr
  | @cancel id a key' r' by' hid hstate hmarker hkey' hactive =>
      by_cases heq : key = key'
      · subst heq
        rw [hr] at hkey'
        cases hkey'
        exact .cancelled hactive hid hstate hmarker (AList.lookup_insert _) rfl
          (AList.lookup_insert _)
      · refine .stays ?_
        show (t.reports.insert key' _).lookup key = some r
        rw [HMap.lookup_insert_ite, if_neg heq]
        exact hr

end TableStep

/-! ## The transactions -/

namespace AdminStore

variable {s s' : AdminStore} {key : ReportKey} {token : Nat}

theorem updateAction_eq_some {id : Nat} {cond : ActionRow → Bool}
    {set : ActionRow → ActionRow} (h : s.updateAction id cond set = some s') :
    ∃ a, s.actions.lookup id = some a ∧ cond a ∧
      s' = { s with actions := s.actions.insert id (set a) } := by
  unfold updateAction at h
  split at h
  · next a ha =>
      split at h
      · next hcond => exact ⟨a, ha, hcond, (Option.some.inj h).symm⟩
      · cases h
  · cases h

theorem updateReport_eq_some {cond : ReportRow → Bool}
    {set : ReportRow → ReportRow} (h : s.updateReport key cond set = some s') :
    ∃ r, s.reports.lookup key = some r ∧ cond r ∧
      s' = { s with reports := s.reports.insert key (set r) } := by
  unfold updateReport at h
  split at h
  · next r hr =>
      split at h
      · next hcond => exact ⟨r, hr, hcond, (Option.some.inj h).symm⟩
      · cases h
  · cases h

theorem insertReport_step (key : ReportKey) (target : ReportTarget) (channelId : Option Uuid)
    (illegal : Bool) :
    TableStep s.tables .no (s.insertReport key target channelId illegal).tables := by
  unfold insertReport
  split
  · exact .refl
  · next hkey =>
      rw [Bool.not_eq_true, Option.isSome_eq_false_iff, Option.isNone_iff_eq_none] at hkey
      refine .file hkey ?_ rfl
      cases illegal <;> simp

theorem resolveReportDecisionAtomic_step {terminal : TerminalStatus}
    (h : s.resolveReportDecisionAtomic key terminal = some s') :
    TableStep s.tables .no s'.tables := by
  obtain ⟨r, hr, hopen, rfl⟩ := updateReport_eq_some h
  exact .resolve hr (by simpa using hopen)

theorem claimReport_step (key : ReportKey) (input : ClaimInput) :
    TableStep s.tables .no (s.claimReport key input).1.tables := by
  unfold claimReport
  split
  · exact .refl
  · next r hr =>
      split
      · split <;> exact .refl
      · exact .refl
      · next hopen =>
          split
          · exact .refl
          · exact .claim hr hopen (by simp [ActionRow.isOn, claimedAction]) rfl rfl

theorem reopenReport_step (key : ReportKey) (requestId : Uuid) (actor : PublicKey)
    (reason : Option String) :
    TableStep s.tables .no (s.reopenReport key requestId actor reason).1.tables := by
  unfold reopenReport
  split
  · exact .refl
  · next r hr =>
      split
      · exact .refl
      · split
        · next terminal hclosed =>
            split
            · exact .refl
            · exact .reopen hr (by simp [hclosed]) rfl rfl
        · exact .refl

theorem claimDirectAction_step (input : DirectActionInput) :
    TableStep s.tables .no (s.claimDirectAction input).1.tables := by
  unfold claimDirectAction
  split
  · exact .refl
  · dsimp only
    split
    · exact .direct rfl rfl rfl
    · exact .refl

theorem leaseAction_step {id : Nat} {expiresAt : Int}
    (h : s.leaseAction id expiresAt = some (s', token)) :
    TableStep s.tables .no s'.tables := by
  obtain ⟨s₁, hs₁, heq⟩ := Option.map_eq_some_iff.1 h
  obtain ⟨a, ha, -, rfl⟩ := updateAction_eq_some hs₁
  cases heq
  exact .lease ha rfl rfl rfl rfl

theorem releaseActionLease_step {id : Nat}
    (h : s.releaseActionLease id token = some s') :
    TableStep s.tables .no s'.tables := by
  obtain ⟨a, ha, -, rfl⟩ := updateAction_eq_some h
  exact .lease ha rfl rfl rfl rfl

theorem beginEnforcing_step {id : Nat} (h : s.beginEnforcing id = some s') :
    TableStep s.tables .no s'.tables := by
  obtain ⟨a, ha, hstate, rfl⟩ := updateAction_eq_some h
  exact .enforce ha (by simpa using hstate)

theorem recordFailure_step {id : Nat} (h : s.recordFailure id token = some s') :
    TableStep s.tables .no s'.tables := by
  obtain ⟨a, ha, hcond, rfl⟩ := updateAction_eq_some h
  simp only [Bool.and_eq_true, decide_eq_true_eq] at hcond
  exact .fail ha hcond.1.2 hcond.2

/-- A mutation touches the domain tables only, so with its marker it is the
marker that counts. -/
theorem executeWithMarker_step {id : Nat}
    {mutate : AdminStore → Except MutationError AdminStore}
    (hmutate : ∀ s₁, mutate s = .ok s₁ → s₁.tables = s.tables)
    (h : s.executeWithMarker id token mutate = .committed s') :
    TableStep s.tables .no s'.tables := by
  unfold executeWithMarker at h
  split at h
  · cases h
  · next s₁ hs₁ =>
      split at h
      · cases h
      · next s₂ hs₂ =>
          cases h
          obtain ⟨a, ha, hcond, rfl⟩ := updateAction_eq_some hs₂
          simp only [Bool.and_eq_true, decide_eq_true_eq] at hcond
          rw [← hmutate s₁ hs₁]
          exact .mark ha hcond.1.2 hcond.2

theorem kickMember_tables {community : CommunityId} {channel : Uuid} {target : PublicKey}
    (h : s.kickMember community channel target = .ok s') : s'.tables = s.tables := by
  unfold kickMember at h
  split at h
  · cases h
    rfl
  · cases h

theorem softDeleteEvent_tables {community : CommunityId} {event : EventId}
    (h : s.softDeleteEvent community event = .ok s') : s'.tables = s.tables := by
  unfold softDeleteEvent at h
  split at h
  · cases h
    rfl
  · split at h
    · cases h
    · cases h
      rfl

theorem enqueueOutbox_tables (id : Nat) (task : OutboxTask) :
    (s.enqueueOutbox id task).tables = s.tables := by
  unfold enqueueOutbox
  split <;> rfl

theorem enqueueAll_tables (id : Nat) (tasks : List OutboxTask) :
    (tasks.foldl (·.enqueueOutbox id) s).tables = s.tables := by
  induction tasks generalizing s with
  | nil => rfl
  | cons task tasks ih => exact ih.trans (enqueueOutbox_tables id task)

theorem releaseReport_eq_some {id : Nat} {status : ReportStatus}
    (h : s.releaseReport key id status = some s') :
    ∃ r, s.reports.lookup key = some r ∧ r.activeActionId = some id ∧
      s' =
        { s with reports := s.reports.insert key { r with status, activeActionId := none } } := by
  obtain ⟨r, hr, hcond, rfl⟩ := updateReport_eq_some h
  simp only [Bool.and_eq_true, decide_eq_true_eq] at hcond
  exact ⟨r, hr, hcond.2, rfl⟩

/-- A driver that takes the action for direct must be right about that. -/
theorem finalizeSuccess_step {id : Nat} {f : FinalizeInput}
    (hdirect : f.reportId = none →
      ∀ a, s.actions.lookup id = some a → a.reportId = none)
    (h : s.finalizeSuccess id .resolved f = some s') :
    TableStep s.tables .no s'.tables ∨ TableStep s.tables (.finalize id) s'.tables := by
  obtain ⟨s₂, hs₂, rfl⟩ := Option.map_eq_some_iff.1 h
  obtain ⟨s₁, hs₁, hclosed⟩ := Option.bind_eq_some_iff.1 hs₂
  obtain ⟨a, ha, hcond, rfl⟩ := updateAction_eq_some hs₁
  simp only [Bool.and_eq_true, decide_eq_true_eq] at hcond
  rw [enqueueAll_tables]
  split at hclosed
  · next hnone =>
      cases hclosed
      exact .inl (.finalizeDirect ha (hdirect hnone a ha) hcond.2)
  · obtain ⟨r, hr, hactive, rfl⟩ := releaseReport_eq_some hclosed
    exact .inr (.finalize ha hcond.1 hcond.2 hr hactive)

theorem cancelAction_step {id : Nat} {cancelledBy : PublicKey}
    (h : s.cancelAction id key cancelledBy = some s') :
    TableStep s.tables (.cancel id key) s'.tables := by
  obtain ⟨s₁, hs₁, hopened⟩ := Option.bind_eq_some_iff.1 h
  obtain ⟨a, ha, hcond, rfl⟩ := updateAction_eq_some hs₁
  simp only [Bool.and_eq_true, decide_eq_true_eq] at hcond
  obtain ⟨r, hr, hactive, rfl⟩ := releaseReport_eq_some hopened
  exact .cancel ha hcond.1.2 hcond.2 hr hactive

theorem findRequest_isOn {requestId : Uuid} {id : Nat} {row : ActionRow}
    (h : s.findRequest key requestId = some (id, row)) :
    s.actions.lookup id = some row ∧ row.isOn key := by
  obtain ⟨e, he, heq⟩ := Option.map_eq_some_iff.1 h
  cases heq
  have hmem := List.mem_of_find?_eq_some he
  have hcond := List.find?_some he
  simp only [decide_eq_true_eq] at hcond
  exact ⟨HMap.mem_entries_iff.1 hmem, hcond.1⟩

end AdminStore

end Buzz.Db

namespace Buzz.Relay

open Buzz.Db Buzz.Lib AdminStore

/-! ## The drivers -/

/-- The driver knows whether its action is on a report, and on which. -/
def Driver.Matches (d : Driver) (t : AdminTables) : Prop :=
  ∃ a, t.actions.lookup d.args.actionId = some a ∧ a.reportId = d.args.reportId

/-- A driver takes a report out of processing in one place. -/
def Driver.Leaves (d : Driver) : Leaving → Prop
  | .no => True
  | .finalize id => d.phase = .finalize ∧ d.args.actionId = id
  | .cancel _ _ => False

theorem DriveArgs.mutation_step {d : DriveArgs} {token : Nat} {s s' : AdminStore}
    {execute : AdminStore → ExecuteResult}
    (hexecute : d.mutation token = some execute) (h : execute s = .committed s') :
    TableStep s.tables .no s'.tables := by
  unfold mutation at hexecute
  split at hexecute
  · obtain ⟨target, -, rfl⟩ := Option.map_eq_some_iff.1 hexecute
    refine executeWithMarker_step (fun s₁ hs₁ => ?_) h
    cases hs₁
    rfl
  · obtain ⟨target, -, hmap⟩ := Option.bind_eq_some_iff.1 hexecute
    obtain ⟨mutedUntil, -, rfl⟩ := Option.map_eq_some_iff.1 hmap
    refine executeWithMarker_step (fun s₁ hs₁ => ?_) h
    cases hs₁
    rfl
  · obtain ⟨target, -, hmap⟩ := Option.bind_eq_some_iff.1 hexecute
    obtain ⟨channel, -, rfl⟩ := Option.map_eq_some_iff.1 hmap
    exact executeWithMarker_step (fun s₁ hs₁ => kickMember_tables hs₁) h
  · obtain ⟨event, -, rfl⟩ := Option.map_eq_some_iff.1 hexecute
    exact executeWithMarker_step
      (fun s₁ hs₁ => softDeleteEvent_tables hs₁) h
  · cases hexecute

variable {d : Driver}

/-- What a driver's call does to the tables. -/
theorem Driver.call_step {s : AdminStore} (hmatches : d.Matches s.tables)
    (clock : Int) :
    ∃ leaving, TableStep s.tables leaving (d.call s clock).1.tables ∧ d.Leaves leaving := by
  have hquiet : ∀ {s' : AdminStore}, TableStep s.tables .no s'.tables →
      ∃ leaving, TableStep s.tables leaving s'.tables ∧ d.Leaves leaving :=
    fun h => ⟨.no, h, trivial⟩
  unfold call
  dsimp only
  split
  · split
    · next s' hs' => exact hquiet (beginEnforcing_step hs')
    · exact hquiet .refl
  · exact hquiet .refl
  · split
    · next s' token hs' => exact hquiet (leaseAction_step hs')
    · exact hquiet .refl
  · split
    · split <;> exact hquiet .refl
    · exact hquiet .refl
  · exact hquiet .refl
  · split
    · exact hquiet .refl
    · next execute hexecute =>
        split
        · next s' hs' => exact hquiet (DriveArgs.mutation_step hexecute hs')
        · exact hquiet .refl
        · exact hquiet .refl
  · exact hquiet .refl
  · next token _ =>
      cases hs' : s.recordFailure d.args.actionId token with
      | none => exact hquiet .refl
      | some s' => exact hquiet (recordFailure_step hs')
  · next token _ _ =>
      cases hs' : s.releaseActionLease d.args.actionId token with
      | none => exact hquiet .refl
      | some s' => exact hquiet (releaseActionLease_step hs')
  · exact hquiet .refl
  · next hphase =>
      split
      · next s' hs' =>
          obtain ⟨a, ha, hreport⟩ := hmatches
          have hdirect : d.args.finalizeInput.reportId = none →
              ∀ b, s.actions.lookup d.args.actionId = some b → b.reportId = none := by
            intro hnone b hb
            rw [show s.actions.lookup d.args.actionId = some a from ha] at hb
            cases hb
            exact hreport.trans hnone
          rcases finalizeSuccess_step hdirect hs' with hstep | hstep
          · exact hquiet hstep
          · exact ⟨.finalize d.args.actionId, hstep, hphase, rfl⟩
      · exact hquiet .refl
  · exact hquiet .refl

theorem Driver.step_step {s : AdminStore} (hmatches : d.Matches s.tables)
    (answer : Answer) (clock : Int) :
    ∃ leaving, TableStep s.tables leaving (d.step s answer clock).1.tables ∧
      d.Leaves leaving := by
  unfold step
  dsimp only
  cases answer with
  | ok => exact d.call_step hmatches clock
  | lost => exact d.call_step hmatches clock
  | failed => exact ⟨.no, .refl, trivial⟩

theorem Driver.reloaded_args (d : Driver) (row : Option ActionRow) (next : Reload) :
    (d.reloaded row next).args = d.args := by
  unfold reloaded
  split
  · rfl
  · dsimp only
    split <;> rfl

/-- A driver keeps its arguments to the end. -/
theorem Driver.step_args (d : Driver) (s : AdminStore) (answer : Answer) (clock : Int) :
    (d.step s answer clock).2.args = d.args := by
  have hcall : (d.call s clock).2.args = d.args := by
    unfold call
    dsimp only
    split
    · split <;> rfl
    · exact d.reloaded_args _ _
    · split <;> rfl
    · split
      · split <;> rfl
      · rfl
    · rfl
    · split
      · rfl
      · split <;> rfl
    · rfl
    · rfl
    · rfl
    · rfl
    · split <;> rfl
    · rfl
  unfold step
  dsimp only
  cases answer with
  | ok => exact hcall
  | lost => rfl
  | failed => rfl

/-! ## Where drivers come from -/

/-- A transaction, and the driver it hands over to. -/
structure HandsOver (s : AdminStore) (result : AdminStore × Option Driver) : Prop where
  step : TableStep s.tables .no result.1.tables
  driver : ∀ d, result.2 = some d → d.Matches result.1.tables

variable {row : ActionRow}

theorem start_matches {args : DriveArgs} {record : ActionRow} {t : AdminTables}
    (hid : t.actions.lookup args.actionId = some row)
    (hreport : row.reportId = args.reportId) :
    (Driver.start args record).Matches t :=
  ⟨row, hid, hreport⟩

theorem claimReport_claims {s s' : AdminStore} {key : ReportKey}
    {input : ClaimInput} {id : Nat}
    (h : s.claimReport key input = (s', .claimed id row) ∨
      s.claimReport key input = (s', .alreadyClaimed id row)) :
    s'.actions.lookup id = some row ∧ row.reportId = some key.2 := by
  unfold claimReport at h
  split at h
  · rcases h with h | h <;> cases h
  · split at h
    · split at h
      · next id' row' hfound =>
          rcases h with h | h
          · cases h
          · cases h
            obtain ⟨hid, hon⟩ := findRequest_isOn hfound
            simp only [ActionRow.isOn, Bool.and_eq_true, decide_eq_true_eq] at hon
            exact ⟨hid, hon.2⟩
      · rcases h with h | h <;> cases h
    · rcases h with h | h <;> cases h
    · split at h
      · rcases h with h | h <;> cases h
      · rcases h with h | h
        · cases h
          exact ⟨AList.lookup_insert _, rfl⟩
        · cases h

theorem resolveReportWithEnforcement_handsOver (s : AdminStore) (r : ResolveRequest) :
    HandsOver s (resolveReportWithEnforcement s r) := by
  have hnone : HandsOver s (s, none) := ⟨.refl, fun d hd => by cases hd⟩
  unfold resolveReportWithEnforcement
  split
  · exact hnone
  · next report _ =>
      dsimp only
      split
      · exact hnone
      · generalize hclaim : s.claimReport r.key _ = claim
        have hstep : TableStep s.tables .no claim.1.tables :=
          hclaim ▸ claimReport_step r.key _
        split
        · next s' id row =>
            refine ⟨hstep, fun d hd => ?_⟩
            cases hd
            obtain ⟨hid, hreport⟩ := claimReport_claims (.inl hclaim)
            exact start_matches hid hreport
        · next s' id row =>
            refine ⟨hstep, fun d hd => ?_⟩
            cases hd
            obtain ⟨hid, hreport⟩ := claimReport_claims (.inr hclaim)
            exact start_matches hid hreport
        · exact ⟨hstep, fun d hd => by cases hd⟩

theorem classifyDirect_cases (id : Nat) (row : ActionRow) (input : DirectActionInput) :
    classifyDirect id row input = .existing id row ∨
      classifyDirect id row input = .conflict := by
  exact ite_eq_or_eq _ _ _

/-- The record a direct claim answers with. -/
theorem findDirectAction_row {s : AdminStore}
    {input : DirectActionInput} {claim : DirectClaim}
    (h : s.findDirectAction input = some claim)
    (hd : driveDirectClaim input.community claim = some d) :
    d.Matches s.tables := by
  obtain ⟨e, he, rfl⟩ := Option.map_eq_some_iff.1 h
  have hmem := HMap.mem_entries_iff.1 (List.mem_of_find?_eq_some he)
  have hcond := List.find?_some he
  simp only [decide_eq_true_eq] at hcond
  rcases classifyDirect_cases e.1 e.2 input with hclass | hclass
  · rw [hclass] at hd
    cases hd
    exact start_matches hmem hcond.2.2
  · rw [hclass] at hd
    cases hd

theorem claimDirectAction_handsOver (s : AdminStore) (input : DirectActionInput) :
    HandsOver s ((s.claimDirectAction input).1,
      driveDirectClaim input.community (s.claimDirectAction input).2) := by
  refine ⟨claimDirectAction_step input, fun d hd => ?_⟩
  dsimp only at hd ⊢
  unfold claimDirectAction at hd ⊢
  split at hd
  · next found hfound => exact findDirectAction_row hfound hd
  · dsimp only at hd ⊢
    split at hd
    · next hshape =>
        rw [if_pos hshape]
        cases hd
        exact ⟨directAction input, AList.lookup_insert _, rfl⟩
    · cases hd

theorem recoverOne_matches {s : AdminStore} {id token : Nat}
    {author : Option PublicKey} (hid : s.actions.lookup id = some row)
    (h : recoverOne s id token row author = some d) : d.Matches s.tables := by
  unfold recoverOne at h
  split at h
  · cases h
    exact start_matches hid rfl
  · split at h
    · cases h
      exact start_matches hid rfl
    · obtain ⟨report, -, rfl⟩ := Option.map_eq_some_iff.1 h
      exact start_matches hid rfl

theorem recoverStranded_handsOver (s : AdminStore) (id : Nat) (clock : Int)
    (author : Option PublicKey) : HandsOver s (recoverStranded s id clock author) := by
  unfold recoverStranded
  split
  · exact ⟨.refl, fun d hd => by cases hd⟩
  · next s' token hs' =>
      refine ⟨leaseAction_step hs', fun d hd => ?_⟩
      obtain ⟨row, hid, hrecover⟩ := Option.bind_eq_some_iff.1 hd
      exact recoverOne_matches hid hrecover

/-! ## The machine -/

/-- The tables are sound, and every driver's view of its action is one of
theirs. -/
structure AdminInv (s : AdminState) : Prop where
  tables : EnforcementInv s.tables
  drivers : ∀ (i : Nat) (d : Driver), s.drivers[i]? = some d → d.Matches s.tables

/-- Which move takes a report out of processing. -/
def AdminMove.Leaves (s : AdminState) (m : AdminMove) : Leaving → Prop
  | .no => True
  | .finalize id => ∃ i answer clock d, m = .drive i answer clock ∧
      s.drivers[i]? = some d ∧ d.phase = .finalize ∧ d.args.actionId = id
  | .cancel id key => ∃ cancelledBy answer, m = .cancel id key cancelledBy answer

/-- Everything a move can do. -/
structure MoveSpec (s : AdminState) (m : AdminMove) (s' : AdminState) : Prop where
  step : ∃ leaving, TableStep s.tables leaving s'.tables ∧ m.Leaves s leaving
  /-- A driver was there with the same arguments, or it is new and knows its action. -/
  drivers : ∀ (i : Nat) (d : Driver), s'.drivers[i]? = some d →
    d.Matches s'.tables ∨ ∃ (j : Nat) (d₀ : Driver), s.drivers[j]? = some d₀ ∧
      d₀.args = d.args

namespace AdminState

variable {s s' : AdminState} {m : AdminMove}

theorem quiet_spec (h : TableStep s.tables .no s'.tables) (hdrivers : s'.drivers = s.drivers) :
    MoveSpec s m s' where
  step := ⟨.no, h, trivial⟩
  drivers i d hd := .inr ⟨i, d, hdrivers ▸ hd, rfl⟩

theorem accept_spec {result : AdminStore × Option Driver} (answer : Answer)
    (h : HandsOver s.toAdminStore result) : MoveSpec s m (s.accept answer result) := by
  cases answer with
  | ok =>
      refine ⟨⟨.no, h.step, trivial⟩, fun i d hd => ?_⟩
      cases hresult : result.2 with
      | none =>
          simp only [accept, hresult, Option.toList_none, List.append_nil] at hd
          exact .inr ⟨i, d, hd, rfl⟩
      | some d' =>
          simp only [accept, hresult, Option.toList_some] at hd
          rcases getElem?_snoc_cases hd with ⟨-, rfl⟩ | ⟨-, hd⟩
          · exact .inl (h.driver d hresult)
          · exact .inr ⟨i, d, hd, rfl⟩
  | lost => exact quiet_spec h.step rfl
  | failed => exact quiet_spec .refl rfl

theorem transact_spec {result : Option AdminStore} {answer : Answer} (leaving : Leaving)
    (h : ∀ store, result = some store → TableStep s.tables leaving store.tables)
    (hm : m.Leaves s leaving) : MoveSpec s m (s.transact answer result) := by
  unfold transact
  split
  · cases result with
    | none => exact quiet_spec .refl rfl
    | some store => exact ⟨⟨leaving, h store rfl, hm⟩, fun i d hd => .inr ⟨i, d, hd, rfl⟩⟩
  · exact quiet_spec .refl rfl

theorem drive_spec (hinv : AdminInv s) (i : Nat) (answer : Answer) (clock : Int) :
    MoveSpec s (.drive i answer clock) (s.step (.drive i answer clock)) := by
  cases hd : s.drivers[i]? with
  | none =>
      have hsame : s.step (.drive i answer clock) = s := by simp only [step, hd]
      rw [hsame]
      exact quiet_spec .refl rfl
  | some d =>
      have hmoved : s.step (.drive i answer clock) =
          ⟨(d.step s.toAdminStore answer clock).1,
            s.drivers.set i (d.step s.toAdminStore answer clock).2⟩ := by
        simp only [step, hd]
      rw [hmoved]
      obtain ⟨leaving, hstep, hleaves⟩ := d.step_step (hinv.drivers i d hd) answer clock
      refine ⟨⟨leaving, hstep, ?_⟩, fun j d' hd' => ?_⟩
      · cases leaving with
        | no => trivial
        | finalize id => exact ⟨i, answer, clock, d, rfl, hd, hleaves⟩
        | cancel id key => exact hleaves.elim
      · rcases getElem?_set_cases hd' with ⟨-, rfl, -⟩ | ⟨-, hd'⟩
        · exact .inr ⟨i, d, hd, (d.step_args _ answer clock).symm⟩
        · exact .inr ⟨j, d', hd', rfl⟩

theorem step_spec (hinv : AdminInv s) (m : AdminMove) : MoveSpec s m (s.step m) := by
  cases m with
  | resolve request answer =>
      exact accept_spec answer (resolveReportWithEnforcement_handsOver _ request)
  | direct input answer => exact accept_spec answer (claimDirectAction_handsOver _ input)
  | findDirect input =>
      have hover : HandsOver s.toAdminStore (s.toAdminStore,
          (s.findDirectAction input).bind (driveDirectClaim input.community)) := by
        refine ⟨.refl, fun d hd => ?_⟩
        obtain ⟨claim, hclaim, hd⟩ := Option.bind_eq_some_iff.1 hd
        exact findDirectAction_row hclaim hd
      exact accept_spec .ok hover
  | recover id clock author answer =>
      exact accept_spec answer (recoverStranded_handsOver _ id clock author)
  | drive i answer clock => exact drive_spec hinv i answer clock
  | decide key terminal answer =>
      exact transact_spec .no
        (fun store h => resolveReportDecisionAtomic_step h) trivial
  | cancel id key cancelledBy answer =>
      exact transact_spec (.cancel id key) (fun store h => cancelAction_step h)
        ⟨cancelledBy, answer, rfl⟩
  | reopen key requestId actor reason answer =>
      refine transact_spec .no (fun store h => ?_) trivial
      cases h
      exact reopenReport_step key requestId actor reason
  | report key target channelId illegal =>
      exact quiet_spec (insertReport_step key target channelId illegal) rfl
  | tick micros => exact quiet_spec .refl rfl
  | setMembers members => exact quiet_spec .refl rfl
  | setEvent key row => exact quiet_spec .refl rfl
  | setBan key row => exact quiet_spec .refl rfl

theorem step_inv (hinv : AdminInv s) (m : AdminMove) : AdminInv (s.step m) := by
  have hspec := step_spec hinv m
  obtain ⟨leaving, hstep, -⟩ := hspec.step
  refine ⟨hinv.tables.step hstep, fun i d hd => ?_⟩
  rcases hspec.drivers i d hd with hnew | ⟨j, d₀, hd₀, hargs⟩
  · exact hnew
  · obtain ⟨a, ha, hreport⟩ := hinv.drivers j d₀ hd₀
    obtain ⟨a', ha', hkept⟩ := hstep.action_kept hinv.tables ha
    refine ⟨a', hargs ▸ ha', ?_⟩
    rw [hkept, hreport, hargs]

end AdminState

theorem adminMachine_inv (ms : List AdminMove) : AdminInv (adminMachine.run ms) := by
  have hinit : AdminInv adminMachine.init := by
    refine ⟨⟨?_, ?_, ?_, ?_, ?_, ?_⟩, ?_⟩
    · intro id a h
      cases h
    · intro id
      rfl
    · intro id a h
      cases h
    · intro key r h
      cases h
    · intro key r h
      cases h
    · intro id a key h
      cases h
    · intro i d h
      cases h
  exact adminMachine.stable_runFrom (I := AdminInv) (fun s m h => AdminState.step_inv h m) hinit ms

/-- What holds of the moderation tables at any time: `leaves` is about the next
move, whatever it is. -/
structure OnceOrNotAtAll (s : AdminState) : Prop where
  once : ∀ (id : Nat) (a : ActionRow), s.actions.lookup id = some a →
    s.executed.count id ≤ 1 ∧ (s.executed.count id = 1 ↔ a.stepMarker.isSome)
  notAtAll : ∀ (id : Nat) (a : ActionRow), s.actions.lookup id = some a →
    a.state = .failed ∨ a.state = .cancelled → a.stepMarker = none
  processing : ∀ (key : ReportKey) (r : ReportRow), s.reports.lookup key = some r →
    (r.status = .processing ↔ ∃ id a, r.activeActionId = some id ∧
      s.actions.lookup id = some a ∧ a.isOn key ∧ a.unsettled)
  alone : ∀ (key : ReportKey) (id id' : Nat) (a a' : ActionRow),
    s.actions.lookup id = some a → s.actions.lookup id' = some a' →
    a.isOn key → a'.isOn key → a.unsettled → a'.unsettled → id = id'
  leaves : ∀ (m : AdminMove) (key : ReportKey) (r : ReportRow),
    s.reports.lookup key = some r → r.status = .processing →
    (s.step m).reports.lookup key ≠ some r →
    ∃ id a a', r.activeActionId = some id ∧ s.actions.lookup id = some a ∧
      (s.step m).actions.lookup id = some a' ∧
      (((∃ i answer clock d, m = .drive i answer clock ∧ s.drivers[i]? = some d ∧
            d.phase = .finalize ∧ d.args.actionId = id) ∧
          a.stepMarker = some .mutationCommitted ∧ s.executed.count id = 1 ∧
          a'.state = .succeeded ∧ (s.step m).reports.lookup key =
            some { r with status := .closed .resolved, activeActionId := none }) ∨
        ((∃ cancelledBy answer, m = .cancel id key cancelledBy answer) ∧
          a.state = .failed ∧ a.stepMarker = none ∧ a'.state = .cancelled ∧
          (s.step m).reports.lookup key =
            some { r with status := .isOpen, activeActionId := none }))

theorem AdminInv.onceOrNotAtAll {s : AdminState} (hinv : AdminInv s) : OnceOrNotAtAll s where
  once id a hid := by
    have hcount : s.executed.count id = markCount (s.actions.lookup id) := hinv.tables.counted id
    rw [hcount, hid]
    cases hmarker : a.stepMarker.isSome <;> simp [markCount, hmarker]
  notAtAll := hinv.tables.unmarked
  processing key r hr := by
    constructor
    · exact hinv.tables.active key r hr
    · rintro ⟨id, a, hactive, hid, -, -⟩
      exact (hinv.tables.active_isOn hr hactive hid).1
  alone key id id' a a' hid hid' hon hon' ha ha' := by
    obtain ⟨r, hr, hactive⟩ := hinv.tables.owned id a key hid hon ha
    obtain ⟨r', hr', hactive'⟩ := hinv.tables.owned id' a' key hid' hon' ha'
    rw [hr] at hr'
    cases hr'
    exact Option.some.inj (hactive.symm.trans hactive')
  leaves m key r hr hprocessing hleaves := by
    obtain ⟨leaving, hstep, hmove⟩ := (AdminState.step_spec hinv m).step
    cases hstep.afterProcessing hr hprocessing with
    | stays hsame => exact absurd hsame hleaves
    | @finalized id a a' hactive hid hmarker hid' hstate' hr' =>
        have hcount : s.executed.count id = markCount (s.actions.lookup id) :=
          hinv.tables.counted id
        have honce : s.executed.count id = 1 := by
          rw [hcount, show s.actions.lookup id = some a from hid]
          simp [markCount, hmarker]
        exact ⟨id, a, a', hactive, hid, hid', .inl ⟨hmove, hmarker, honce, hstate', hr'⟩⟩
    | @cancelled id a a' hactive hid hstate hmarker hid' hstate' hr' =>
        exact ⟨id, a, a', hactive, hid, hid', .inr ⟨hmove, hstate, hmarker, hstate', hr'⟩⟩

/-- Whatever requests, workers, cancels and crashes come together, in whatever
order: an action's mutation commits at most once, exactly when its marker says
so, and a report is in processing exactly while one unsettled action has it. -/
theorem enforcement_once_or_not_at_all (ms : List AdminMove) :
    OnceOrNotAtAll (adminMachine.run ms) :=
  (adminMachine_inv ms).onceOrNotAtAll

/-- A moderator bans the author of a reported event. The commit of the ban is
not answered, the request gives up, and the worker finds the marker and ends
the action. -/
def banWithLostAnswer : List AdminMove :=
  let community : CommunityId := ⟨.ofByte 1⟩
  let key : ReportKey := (community, .ofByte 2)
  [.report key (.event (.ofByte 3)) none false,
    .resolve { key, requestId := .ofByte 4, actor := .ofByte 5, action := .ban
               author := some (.ofByte 6) } .ok,
    .drive 0 .ok 0, .drive 0 .ok 0, .drive 0 .ok 0, .drive 0 .ok 0,
    .drive 0 .lost 0, .drive 0 .ok 0, .drive 0 .ok 0,
    .recover 0 1 (some (.ofByte 6)) .ok,
    .drive 1 .ok 1, .drive 1 .ok 1]

example :
    let s := adminMachine.run banWithLostAnswer
    s.executed = [0] ∧ s.drivers.map (·.phase) = [.done, .done] ∧
      s.reports.entries.map (·.2.status) = [.closed .resolved] ∧
      s.actions.entries.map (·.2.state) = [.succeeded] := by
  decide +kernel

end Buzz.Relay
