import Buzz.Proofs.FenceTimeline
import Buzz.Proofs.ReplicaPages

/-!
# Covered pages have no holes

Every transaction that writes an event of a channel is, at the time of a probe's
scan, over, open or not begun. Over, its commit comes before the token's. Open
or not begun, its guard runs no earlier than the wall plus the floor, so that
the event is above the wall. `Walled` says so of the state after the scan, and
no later move takes it away.
-/

namespace Buzz.Db

open Buzz.Core Buzz.Lib Statement

/-- What the results below assume of a run: no restore, and every event of a
channel written by a session armed with the floor. The clock goes forward by
construction. -/
def Compliant (s : FenceState) : FenceMove → Bool
  | .restore _ => false
  | .write i (.insert row) =>
      row.stored.channelId.isNone ||
        (s.txns[i]?).all (·.floorSecs = some createdAtFloorSecs)
  | _ => true

/-- The channels' rows among the writes are not before the bound. -/
def RowsFrom (bound : Int) (ws : List Write) : Prop :=
  ∀ row, .insert row ∈ ws → row.stored.channelId.isSome → bound ≤ micros row.createdAt

variable {ws : List Write}

theorem RowsFrom.mono {bound bound' : Int} (h : RowsFrom bound ws)
    (hle : bound' ≤ bound) : RowsFrom bound' ws := by
  intro row hrow hch
  have := h row hrow hch
  omega

theorem rowsFrom_nil (bound : Int) : RowsFrom bound [] := fun row hrow => by cases hrow

theorem RowsFrom.snoc {bound : Int} {w : Write} (h : RowsFrom bound ws)
    (hw : ∀ row, w = .insert row → row.stored.channelId.isSome → bound ≤ micros row.createdAt) :
    RowsFrom bound (ws ++ [w]) := by
  intro row hrow hch
  rcases List.mem_append.1 hrow with hrow | hrow
  · exact h row hrow hch
  · exact hw row (List.mem_singleton.1 hrow).symm hch

/-! ## Transactions -/

/-- A transaction that writes to a channel has the floor armed, and what it has
checked is above it. -/
structure TxnOk (clock : Int) (t : Txn) : Prop where
  started : t.xactStart ≤ clock
  armed : ∀ row, .insert row ∈ t.writes → row.stored.channelId.isSome →
    t.floorSecs = some createdAtFloorSecs
  checked : ∀ k, t.phase = .committing k →
    RowsFrom (t.xactStart - micros createdAtFloorSecs) (t.writes.take k)

/-- What the scan of a probe has settled. -/
structure Walled (s : FenceState) (since : Nat) (wall : Int) : Prop where
  clock : wall + micros createdAtFloorSecs < s.clock
  short : since ≤ s.history.length
  history : ∀ c ∈ s.history.drop since, RowsFrom (wall + 1) c.writes
  committing : ∀ (i : Nat) (t : Txn) (k : Nat), s.txns[i]? = some t → t.phase = .committing k →
    RowsFrom (wall + 1) (t.writes.take k)

variable {t : Txn} {clock : Int}

/-- A guard that passes in an armed session bounds the row by the clock. -/
theorem guard_passes {row : TableRow}
    (harmed : t.floorSecs = some createdAtFloorSecs)
    (hch : row.stored.channelId.isSome)
    (h : FenceState.guardRaises t clock (.insert row) = false) :
    clock - micros createdAtFloorSecs ≤ micros row.createdAt := by
  unfold FenceState.guardRaises at h
  rw [harmed] at h
  have h : (decide (0 < createdAtFloorSecs) && row.stored.channelId.isSome &&
      decide (micros row.createdAt < clock - micros createdAtFloorSecs)) = false := h
  by_contra hlt
  rw [hch, decide_eq_true (Int.not_le.1 hlt)] at h
  cases h

/-- The writes checked so far, with one more. -/
theorem take_succ_of_getElem? {k : Nat} {w : Write} (hw : ws[k]? = some w) :
    ws.take (k + 1) = ws.take k ++ [w] := by
  rw [List.take_add_one, hw]
  rfl

/-- The clock and the history go forward, and what a scan settled stays. -/
structure Advances (s s' : FenceState) : Prop where
  clock : s.clock ≤ s'.clock
  history : s.history <+: s'.history
  current : s'.abandoned = s.abandoned
  walled : ∀ since wall, Walled s since wall → Walled s' since wall

theorem Advances.of_eq {s s' : FenceState} (hclock : s'.clock = s.clock)
    (hhistory : s'.history = s.history) (habandoned : s'.abandoned = s.abandoned)
    (htxns : s'.txns = s.txns) : Advances s s' where
  clock := hclock ▸ Int.le_refl _
  history := hhistory ▸ List.prefix_refl _
  current := habandoned
  walled _ _ h :=
    ⟨hclock ▸ h.clock, hhistory ▸ h.short, hhistory ▸ h.history, htxns ▸ h.committing⟩

theorem Advances.trans {s s' s'' : FenceState} (h : Advances s s') (h' : Advances s' s'') :
    Advances s s'' where
  clock := Int.le_trans h.clock h'.clock
  history := h.history.trans h'.history
  current := h'.current.trans h.current
  walled since wall hw := h'.walled since wall (h.walled since wall hw)

/-- One transaction moves, and nothing else. -/
theorem Advances.setTxn {s : FenceState} {i : Nat}
    (ht : ∀ since wall k, Walled s since wall → t.phase = .committing k →
      RowsFrom (wall + 1) (t.writes.take k)) : Advances s (s.setTxn i t) where
  clock := Int.le_refl _
  history := List.prefix_refl _
  current := rfl
  walled since wall h := by
    refine ⟨h.clock, h.short, h.history, fun j t' k ht' hphase => ?_⟩
    rcases getElem?_set_cases ht' with ⟨-, rfl, -⟩ | ⟨-, ht'⟩
    · exact ht since wall k h hphase
    · exact h.committing j t' k ht' hphase

theorem Advances.append {s : FenceState} {writes : List Write} {beat : Option Beat}
    (hwrites : ∀ since wall, Walled s since wall → RowsFrom (wall + 1) writes) :
    Advances s (s.appendCommit writes beat) where
  clock := Int.le_refl _
  history := List.prefix_append _ _
  current := rfl
  walled since wall h := by
    refine ⟨h.clock, ?_, fun c hc => ?_, h.committing⟩
    · show since ≤ (s.history ++ [_]).length
      rw [List.length_append]
      have := h.short
      omega
    · have hc : c ∈ (s.history ++ [_]).drop since := hc
      rw [List.drop_append_of_le_length h.short] at hc
      rcases List.mem_append.1 hc with hc | hc
      · exact h.history c hc
      · rw [List.mem_singleton.1 hc]
        exact hwrites since wall h

/-- Every move goes forward. -/
theorem FenceStep.advances {s s' : FenceState} {m : FenceMove} (hstep : FenceStep s m s')
    (hm : Compliant s m) (htxns : ∀ (i : Nat) (t : Txn), s.txns[i]? = some t →
      TxnOk s.clock t) : Advances s s' := by
  cases hstep with
  | stay => exact .of_eq rfl rfl rfl rfl
  | tick d =>
      refine ⟨by dsimp only; omega, List.prefix_refl _, rfl, fun since wall h => ?_⟩
      have := h.clock
      exact ⟨by dsimp only; omega, h.short, h.history, h.committing⟩
  | openTxn floorSecs =>
      refine ⟨Int.le_refl _, List.prefix_refl _, rfl, fun since wall h => ?_⟩
      refine ⟨h.clock, h.short, h.history, fun j t' k ht' hphase => ?_⟩
      rcases getElem?_snoc_cases ht' with ⟨-, rfl⟩ | ⟨-, ht'⟩
      · cases hphase
      · exact h.committing j t' k ht' hphase
  | write ht hphase =>
      refine .setTxn fun since wall k h hphase' => ?_
      have hphase' : _ = _ := hphase'
      rw [hphase] at hphase'
      cases hphase'
  | prepare ht hphase =>
      refine .setTxn fun since wall k h hphase' => ?_
      cases hphase'
      exact rowsFrom_nil _
  | @check i k t w ht hphase hw hpass =>
      refine .setTxn fun since wall k' h hphase' => ?_
      cases hphase'
      show RowsFrom (wall + 1) (t.writes.take (k + 1))
      rw [take_succ_of_getElem? hw]
      refine (h.committing i t k ht hphase).snoc fun row hrow hch => ?_
      subst hrow
      have harmed := (htxns i t ht).armed row (List.mem_of_getElem? hw) hch
      have hbound := guard_passes harmed hch hpass
      have := h.clock
      omega
  | finishTxn => exact .setTxn fun since wall k h hphase' => by cases hphase'
  | @commit i t ht hphase =>
      have happend : Advances s (s.appendCommit t.writes none) := by
        refine .append fun since wall h => ?_
        have hrows := h.committing i t _ ht hphase
        rwa [List.take_length] at hrows
      exact happend.trans (.setTxn fun since wall k h hphase' => by cases hphase')
  | begin | sample | scan | update | record | failProbe => exact .of_eq rfl rfl rfl rfl
  | commitProbe | commitLost =>
      exact (Advances.append fun _ _ _ => rowsFrom_nil _).trans (.of_eq rfl rfl rfl rfl)
  | rotate =>
      exact (Advances.append fun _ _ _ => rowsFrom_nil _).trans (.of_eq rfl rfl rfl rfl)
  | replay | route | observe | served | writer => exact .of_eq rfl rfl rfl rfl
  | restore => cases hm

theorem TxnOk.advance {clock' : Int} (h : TxnOk clock t) (hle : clock ≤ clock') :
    TxnOk clock' t :=
  ⟨Int.le_trans h.started hle, h.armed, h.checked⟩

theorem TxnOk.finish (h : TxnOk clock t) :
    TxnOk clock { t with phase := .done } :=
  ⟨h.started, h.armed, fun k hphase => by cases hphase⟩

theorem FenceStep.txnOk {s s' : FenceState} {m : FenceMove} (hstep : FenceStep s m s')
    (hm : Compliant s m) (htxns : ∀ (i : Nat) (t : Txn), s.txns[i]? = some t →
      TxnOk s.clock t) : ∀ (i : Nat) (t : Txn), s'.txns[i]? = some t → TxnOk s'.clock t := by
  have hsame : s'.clock = s.clock → s'.txns = s.txns →
      ∀ (i : Nat) (t : Txn), s'.txns[i]? = some t → TxnOk s'.clock t := by
    intro hclock heq i t ht
    rw [hclock]
    exact htxns i t (heq ▸ ht)
  -- One transaction moves.
  have hset : ∀ (i : Nat) (t : Txn), TxnOk s.clock t →
      ∀ (j : Nat) (t' : Txn), (s.txns.set i t)[j]? = some t' → TxnOk s.clock t' := by
    intro i t hok j t' ht'
    rcases getElem?_set_cases ht' with ⟨-, rfl, -⟩ | ⟨-, ht'⟩
    · exact hok
    · exact htxns j t' ht'
  cases hstep with
  | stay => exact htxns
  | tick d => exact fun i t ht => (htxns i t ht).advance (by dsimp only; omega)
  | openTxn floorSecs =>
      intro i t ht
      rcases getElem?_snoc_cases ht with ⟨-, rfl⟩ | ⟨-, ht⟩
      · exact ⟨Int.le_refl _, fun row hrow => (by cases hrow), fun k hphase => (by cases hphase)⟩
      · exact htxns i t ht
  | @write i t w ht hphase =>
      have hok := htxns i t ht
      refine hset i _ ⟨hok.started, fun row hrow hch => ?_, fun k hphase' => ?_⟩
      · rcases List.mem_append.1 hrow with hrow | hrow
        · exact hok.armed row hrow hch
        · cases List.mem_singleton.1 hrow
          have hnone : row.stored.channelId.isNone = false := by
            rw [← Option.not_isSome, hch]
            rfl
          simpa [Compliant, ht, hnone] using hm
      · have hphase' : t.phase = _ := hphase'
        rw [hphase] at hphase'
        cases hphase'
  | @prepare i t ht hphase =>
      have hok := htxns i t ht
      refine hset i _ ⟨hok.started, hok.armed, fun k hphase' => ?_⟩
      cases hphase'
      exact rowsFrom_nil _
  | @check i k t w ht hphase hw hpass =>
      have hok := htxns i t ht
      refine hset i _ ⟨hok.started, hok.armed, fun k' hphase' => ?_⟩
      cases hphase'
      show RowsFrom _ (t.writes.take (k + 1))
      rw [take_succ_of_getElem? hw]
      refine (hok.checked k hphase).snoc fun row hrow hch => ?_
      subst hrow
      have hbound := guard_passes (hok.armed row (List.mem_of_getElem? hw) hch) hch hpass
      have := hok.started
      show t.xactStart - _ ≤ _
      omega
  | @finishTxn m i t ht => exact hset i _ (htxns i t ht).finish
  | @commit i t ht hphase => exact hset i _ (htxns i t ht).finish
  | begin | sample | scan | update | commitProbe | commitLost | record | rotate | failProbe =>
      exact hsame rfl rfl
  | replay | route | observe | served | writer => exact hsame rfl rfl
  | restore => cases hm

/-! ## The wall of a probe -/

theorem fenceWall_le {sampledAt : Int} {oldest : Option Int} :
    fenceWall sampledAt oldest + micros createdAtFloorSecs < sampledAt ∧
      ∀ x, oldest = some x → fenceWall sampledAt oldest + micros createdAtFloorSecs < x := by
  have hmargin : 0 < micros fenceClockMarginSecs := by decide
  unfold fenceWall
  cases oldest with
  | none =>
      refine ⟨?_, fun x hx => by cases hx⟩
      show sampledAt - _ - _ + _ < sampledAt
      omega
  | some o =>
      have hmin : min o sampledAt ≤ sampledAt ∧ min o sampledAt ≤ o :=
        ⟨Int.min_le_right _ _, Int.min_le_left _ _⟩
      refine ⟨?_, fun x hx => ?_⟩
      · show min o sampledAt - _ - _ + _ < sampledAt
        omega
      · cases hx
        show min o sampledAt - _ - _ + _ < o
        omega

/-- The scan sees every open transaction. -/
theorem oldestStart_le {s : FenceState} {i : Nat} (ht : s.txns[i]? = some t)
    (hopen : t.phase ≠ .done) (pod : Nat) (others : Option Int) :
    ∃ x, s.oldestStart pod others = some x ∧ x ≤ t.xactStart := by
  have hmem : t.xactStart ∈ s.openStarts pod ++ others.toList := by
    refine List.mem_append_left _ (List.mem_append_left _ (List.mem_map.2 ⟨t, ?_, rfl⟩))
    exact List.mem_filter.2 ⟨List.mem_of_getElem? ht, by simpa using hopen⟩
  cases hmin : s.oldestStart pod others with
  | none =>
      rw [List.min?_eq_none_iff.1 hmin] at hmem
      cases hmem
  | some x => exact ⟨x, rfl, (List.min?_eq_some_iff.1 hmin).2 _ hmem⟩

theorem walled_of_scan {s : FenceState} {pod : Nat} {others : Option Int} {sampledAt : Int}
    (hsampled : sampledAt ≤ s.clock)
    (htxns : ∀ (i : Nat) (t : Txn), s.txns[i]? = some t → TxnOk s.clock t) :
    Walled s s.history.length (fenceWall sampledAt (s.oldestStart pod others)) := by
  obtain ⟨hwall, holdest⟩ := @fenceWall_le sampledAt (s.oldestStart pod others)
  refine ⟨by omega, Nat.le_refl _, fun c hc => ?_, fun i t k ht hphase => ?_⟩
  · rw [List.drop_length] at hc
    cases hc
  · -- Its guard ran after its start, which the scan has seen.
    obtain ⟨x, hx, hle⟩ := oldestStart_le ht (by rw [hphase]; simp) pod others
    have hlt := holdest x hx
    exact ((htxns i t ht).checked k hphase).mono (by omega)

/-! ## The invariant -/

/-- The wall of a sample past its scan, and how many commits there were then. -/
def ProbePhase.wall : ProbePhase → Option (Int × Nat)
  | .scanned _ wall since | .updated _ wall since _ _ | .committed wall since _ _ _
  | .regressed wall since | .rotated wall since _ _ _ => some (wall, since)
  | _ => none

/-- The commits up to the sample's own. -/
def ProbePhase.upto : ProbePhase → Option (List Commit)
  | .committed _ _ _ _ upto | .rotated _ _ _ _ upto => some upto
  | _ => none

/-- What a covered verdict has compared with the wall. -/
def RoutePredicate.Within (wall : Int) : RoutePredicate → Prop
  | .bounded => False
  | .covered upper | .boundedOrCovered upper => upper ≤ wall
  | .coveredPostVerified => True

/-- The wall of a token entry stands, and the entry is of the first timeline. -/
structure EntryWalled (s : FenceState) (e : TokenEntry) : Prop where
  wall : Walled s e.since e.fenceWall
  since : e.since ≤ e.upto.length
  first : e.recordedIn = 0

/-- The walls that a pod has sampled or recorded stand. -/
structure PodWalled (s : FenceState) (p : RelayPod) : Prop where
  sampled : ∀ x sampledAt, p.probe = .sampled x sampledAt → sampledAt ≤ s.clock
  wall : ∀ wall since, p.probe.wall = some (wall, since) → Walled s since wall
  upto : ∀ wall since upto, p.probe.wall = some (wall, since) → p.probe.upto = some upto →
    since ≤ upto.length ∧ upto <+: s.history
  ring : ∀ e ∈ p.fence.ring, EntryWalled s e

/-- A read that a replica serves as covered is within the wall of its entry. -/
structure ReadWalled (s : FenceState) (r : RoutedRead) : Prop where
  predicate : ∃ enabled, r.predicate = r.request.predicate enabled
  served : ∀ cs e reason, r.phase = .replica cs e reason →
    EntryWalled s e ∧ r.routedIn = 0 ∧ cs <+: s.history ∧
      (reason = .covered → r.predicate.Within e.fenceWall)

/-- Transactions, pods and reads all respect the walls, on one timeline. -/
structure WallInv (s : FenceState) : Prop where
  current : s.abandoned = []
  txns : ∀ (i : Nat) (t : Txn), s.txns[i]? = some t → TxnOk s.clock t
  pods : ∀ (i : Nat) (p : RelayPod), s.pods[i]? = some p → PodWalled s p
  reads : ∀ (j : Nat) (r : RoutedRead), s.reads[j]? = some r → ReadWalled s r

variable {e : TokenEntry}

theorem EntryWalled.advance {s s' : FenceState} (h : EntryWalled s e)
    (hadv : Advances s s') : EntryWalled s' e :=
  ⟨hadv.walled _ _ h.wall, h.since, h.first⟩

variable {p : RelayPod}

theorem PodWalled.advance {s s' : FenceState} (h : PodWalled s p)
    (hadv : Advances s s') : PodWalled s' p where
  sampled x sampledAt hphase := Int.le_trans (h.sampled x sampledAt hphase) hadv.clock
  wall wall since hwall := hadv.walled _ _ (h.wall wall since hwall)
  upto wall since upto hwall hupto := by
    obtain ⟨hle, hpre⟩ := h.upto wall since upto hwall hupto
    exact ⟨hle, hpre.trans hadv.history⟩
  ring e he := (h.ring e he).advance hadv

theorem ReadWalled.advance {s s' : FenceState} {r : RoutedRead} (h : ReadWalled s r)
    (hadv : Advances s s') : ReadWalled s' r where
  predicate := h.predicate
  served cs e reason hphase := by
    obtain ⟨hentry, hfirst, hpre, hupper⟩ := h.served cs e reason hphase
    exact ⟨hentry.advance hadv, hfirst, hpre.trans hadv.history, hupper⟩

variable {q : ProbePhase}

/-- A probe that goes on without its sample. -/
theorem PodWalled.quiet {s : FenceState} (h : PodWalled s p)
    (hsampled : ∀ x sampledAt, q = .sampled x sampledAt → sampledAt ≤ s.clock)
    (hwall : ∀ wall since, q.wall = some (wall, since) → Walled s since wall)
    (hupto : q.upto = none) : PodWalled s { p with probe := q } where
  sampled := hsampled
  wall := hwall
  upto wall since upto _ h' := by
    have h' : q.upto = some upto := h'
    rw [hupto] at h'
    cases h'
  ring := h.ring

theorem PodWalled.closed {s : FenceState} :
    PodWalled s { p with probe := .idle, fence := p.fence.close } where
  sampled x sampledAt hphase := by cases hphase
  wall wall since hwall := by cases hwall
  upto wall since upto hwall := by cases hwall
  ring e he := by cases he

variable {wall : Int}

/-- A commit that makes a sample. -/
theorem PodWalled.sample {s s' : FenceState} {since : Nat} (h : PodWalled s p)
    (hadv : Advances s s') (hwall : p.probe.wall = some (wall, since))
    (hsampled : ∀ x sampledAt, q ≠ .sampled x sampledAt)
    (hq : q.wall = some (wall, since)) (hupto : q.upto = some s'.history) :
    PodWalled s' { p with probe := q } where
  sampled x sampledAt hphase := absurd hphase (hsampled x sampledAt)
  wall w n h' := by
    have h' : q.wall = some (w, n) := h'
    rw [hq] at h'
    cases h'
    exact hadv.walled _ _ (h.wall _ _ hwall)
  upto w n u h' hu := by
    have h' : q.wall = some (w, n) := h'
    have hu : q.upto = some u := hu
    rw [hq] at h'
    rw [hupto] at hu
    cases h'
    cases hu
    exact ⟨(hadv.walled _ _ (h.wall _ _ hwall)).short, List.prefix_refl _⟩
  ring e he := (h.ring e he).advance hadv

theorem PodWalled.recorded {s : FenceState} {since : Nat} {beat : Beat}
    {at' : Nat} {upto : List Commit} (h : PodWalled s p)
    (hcurrent : s.abandoned = []) (hwall : p.probe.wall = some (wall, since))
    (hupto : p.probe.upto = some upto)
    (hq : q = .idle ∨ q = .regressed wall since) :
    PodWalled s { p with
      fence := (p.fence.record beat.epoch (s.entryOf wall since beat at' upto)).1
      probe := q } where
  sampled x sampledAt hphase := by rcases hq with rfl | rfl <;> cases hphase
  wall w n h' := by
    rcases hq with rfl | rfl
    · cases h'
    · cases h'
      exact h.wall _ _ hwall
  upto w n u _ hu := by rcases hq with rfl | rfl <;> cases hu
  ring e he := by
    rcases (ReplicaFence.mem_record he).2 with ⟨hmem, -⟩ | ⟨rfl, -⟩
    · exact h.ring e hmem
    · refine ⟨h.wall _ _ hwall, (h.upto _ _ _ hwall hupto).1, ?_⟩
      show s.abandoned.length = 0
      rw [hcurrent]
      rfl

namespace WallInv

variable {s s' : FenceState} {m : FenceMove}

/-- Pods after one of them moved. -/
theorem setPod (h : WallInv s) (hadv : Advances s s') {i : Nat} {q : RelayPod}
    (hq : PodWalled s' q) {j : Nat} {r : RelayPod} (hr : (s.pods.set i q)[j]? = some r) :
    PodWalled s' r := by
  rcases getElem?_set_cases hr with ⟨-, rfl, -⟩ | ⟨-, hr⟩
  · exact hq
  · exact (h.pods j r hr).advance hadv

theorem podWalled_step (h : WallInv s) (hstep : FenceStep s m s') (hadv : Advances s s') :
    ∀ (i : Nat) (p : RelayPod), s'.pods[i]? = some p → PodWalled s' p := by
  have hsame : s'.pods = s.pods →
      ∀ (i : Nat) (p : RelayPod), s'.pods[i]? = some p → PodWalled s' p :=
    fun heq i p hp => (h.pods i p (heq ▸ hp)).advance hadv
  intro j r hr
  cases hstep with
  | stay | tick | openTxn | write | prepare | check | finishTxn | commit => exact hsame rfl j r hr
  | begin hp hq =>
      refine h.setPod hadv (((h.pods _ _ hp).quiet ?_ ?_ ?_).advance hadv) hr <;>
        rcases hq with ⟨x, rfl⟩ | ⟨x, rfl⟩ <;> intros <;> first | rfl | (next h => cases h)
  | sample hp hphase =>
      refine h.setPod hadv (((h.pods _ _ hp).quiet ?_ ?_ rfl).advance hadv) hr
      · rintro x sampledAt ⟨⟩
        exact Int.le_refl _
      · rintro wall since ⟨⟩
  | scan hp hphase =>
      refine h.setPod hadv (((h.pods _ _ hp).quiet ?_ ?_ rfl).advance hadv) hr
      · rintro x sampledAt ⟨⟩
      · rintro wall since ⟨⟩
        exact walled_of_scan ((h.pods _ _ hp).sampled _ _ hphase) h.txns
  | update hp hphase _ =>
      refine h.setPod hadv (((h.pods _ _ hp).quiet ?_ ?_ rfl).advance hadv) hr
      · rintro x sampledAt ⟨⟩
      · rintro wall since ⟨⟩
        exact (h.pods _ _ hp).wall _ _ (by rw [hphase]; rfl)
  | commitProbe hp hphase =>
      exact h.setPod hadv ((h.pods _ _ hp).sample hadv (by rw [hphase]; rfl)
        (fun _ _ h => by cases h) rfl rfl) hr
  | commitLost hp hphase => exact h.setPod hadv .closed hr
  | record hp hphase hq =>
      refine h.setPod hadv (((h.pods _ _ hp).recorded h.current ?_ ?_ hq).advance hadv) hr
      · rcases hphase with hphase | hphase <;> rw [hphase] <;> rfl
      · rcases hphase with hphase | hphase <;> rw [hphase] <;> rfl
  | rotate hp hphase _ =>
      exact h.setPod hadv ((h.pods _ _ hp).sample hadv (by rw [hphase]; rfl)
        (fun _ _ h => by cases h) rfl rfl) hr
  | failProbe hp => exact h.setPod hadv .closed hr
  | replay | route | observe | served | writer => exact hsame rfl j r hr
  | restore n => exact absurd hadv.current (by simp [FenceState.restore])

theorem setRead (h : WallInv s) (hadv : Advances s s') {i : Nat} {q : RoutedRead}
    (hq : ReadWalled s' q) {j : Nat} {r : RoutedRead} (hr : (s.reads.set i q)[j]? = some r) :
    ReadWalled s' r := by
  rcases getElem?_set_cases hr with ⟨-, rfl, -⟩ | ⟨-, hr⟩
  · exact hq
  · exact (h.reads j r hr).advance hadv

/-- Without a restore a snapshot is one of the writer's. -/
theorem snapshot_prefix (h : WallInv s) {cs : List Commit} (hon : s.OnTimeline cs) :
    cs <+: s.history := by
  obtain ⟨l, hl, hpre⟩ := hon
  rw [FenceState.timelines, h.current] at hl
  rw [← List.mem_singleton.1 hl]
  exact hpre

theorem verdict_covered {predicate : RoutePredicate} {budget : Option Nat} {e : TokenEntry}
    {now : Nat} (h : predicate.verdict budget e now = some .covered) :
    predicate.Within e.fenceWall := by
  cases predicate with
  | bounded =>
      simp only [RoutePredicate.verdict] at h
      split at h <;> cases h
  | covered upper =>
      simp only [RoutePredicate.verdict] at h
      split at h
      · assumption
      · cases h
  | coveredPostVerified => trivial
  | boundedOrCovered upper =>
      simp only [RoutePredicate.verdict] at h
      split at h
      · assumption
      · split at h <;> cases h

theorem readWalled_step (h : WallInv s) (htime : TimelineInv s) (hstep : FenceStep s m s')
    (hadv : Advances s s') :
    ∀ (j : Nat) (r : RoutedRead), s'.reads[j]? = some r → ReadWalled s' r := by
  have hsame : s'.reads = s.reads →
      ∀ (j : Nat) (r : RoutedRead), s'.reads[j]? = some r → ReadWalled s' r :=
    fun heq j r hr => (h.reads j r (heq ▸ hr)).advance hadv
  intro j r hr
  cases hstep with
  | stay | tick | openTxn | write | prepare | check | finishTxn | commit => exact hsame rfl j r hr
  | begin | sample | scan | update | commitProbe | commitLost | record | rotate | failProbe
  | replay => exact hsame rfl j r hr
  | route hphase hpredicate =>
      rcases getElem?_snoc_cases hr with ⟨-, rfl⟩ | ⟨-, hr⟩
      · refine ⟨hpredicate, fun cs e reason hphase' => ?_⟩
        rcases hphase with hphase | hphase <;> rw [hphase] at hphase' <;> cases hphase'
      · exact (h.reads j r hr).advance hadv
  | observe hr' _ _ =>
      refine h.setRead hadv ?_ hr
      exact ⟨(h.reads _ _ hr').predicate, fun cs e reason hphase => by cases hphase⟩
  | @served k now r' p snapshot entry reason hr' hphase hp hproved hverdict =>
      refine h.setRead hadv ?_ hr
      refine ⟨(h.reads _ _ hr').predicate, fun cs e reason' hphase' => ?_⟩
      cases hphase'
      obtain ⟨hmem, -, -⟩ := ReplicaFence.resolve_proved hproved
      refine ⟨((h.pods _ p hp).ring entry hmem).advance hadv, ?_,
        h.snapshot_prefix (htime.snapshots k r' snapshot hr' hphase), fun hreason => ?_⟩
      · show s.abandoned.length = 0
        rw [h.current]
        rfl
      · subst hreason
        exact verdict_covered hverdict
  | writer hr' _ =>
      refine h.setRead hadv ?_ hr
      exact ⟨(h.reads _ _ hr').predicate, fun cs e reason hphase => by cases hphase⟩
  | restore n => exact absurd hadv.current (by simp [FenceState.restore])

theorem step (h : WallInv s) (htime : TimelineInv s) (hm : Compliant s m)
    (hstep : FenceStep s m s') : WallInv s' := by
  have hadv := hstep.advances hm h.txns
  exact ⟨hadv.current.trans h.current, hstep.txnOk hm h.txns, h.podWalled_step hstep hadv,
    h.readWalled_step htime hstep hadv⟩

/-- Without a restore every sample is recorded on its own timeline. -/
theorem recordable (h : WallInv s) (m : FenceMove) : Recordable s m := by
  cases m with
  | record i =>
      show (s.pods[i]?).all _ = true
      cases hp : s.pods[i]? with
      | none => rfl
      | some p =>
          have hok := h.pods i p hp
          rw [Option.all_some]
          rw [h.current]
          split
          · next hphase =>
              have hpre := (hok.upto _ _ _ (by rw [hphase]; rfl) (by rw [hphase]; rfl)).2
              simp [List.isPrefixOf_iff_prefix.2 hpre, outranks]
          · next hphase =>
              have hpre := (hok.upto _ _ _ (by rw [hphase]; rfl) (by rw [hphase]; rfl)).2
              simp [List.isPrefixOf_iff_prefix.2 hpre, outranks]
          · rfl
  | _ => rfl

end WallInv

theorem FenceDeployment.init_wallInv (d : FenceDeployment) : WallInv d.init where
  current := rfl
  txns i t ht := by cases ht
  pods i p hp := by
    obtain ⟨budget, -, rfl⟩ := List.mem_map.1 (List.mem_of_getElem? hp)
    exact ⟨fun _ _ hphase => (by cases hphase), fun _ _ hwall => (by cases hwall),
      fun _ _ _ hwall => (by cases hwall), fun e he => (by cases he)⟩
  reads j r hr := by cases hr

theorem wallInv_run {d : FenceDeployment} {ms : List FenceMove}
    (hms : d.machine.Meets (fun s m => Compliant s m) d.init ms) :
    TimelineInv (d.machine.run ms) ∧ WallInv (d.machine.run ms) := by
  refine d.machine.inv_run (I := fun s => TimelineInv s ∧ WallInv s)
    ⟨d.init_timelineInv, d.init_wallInv⟩ (fun s m h hm => ?_) hms
  have hstep := s.step_spec m
  exact ⟨h.1.step (h.2.recordable m) hstep, h.2.step h.1 hm hstep⟩

/-! ## Covered pages -/

variable {cs : List Commit}

/-- A served read stays as it is. -/
theorem FenceStep.keeps_served {s s' : FenceState} {m : FenceMove}
    (hstep : FenceStep s m s') {j : Nat} {r : RoutedRead} {reason : RouteReason}
    (hphase : r.phase = .replica cs e reason) (hr : s.reads[j]? = some r) :
    s'.reads[j]? = some r := by
  -- A read that moves is another one.
  have hset : ∀ (k : Nat) (r' q : RoutedRead), s.reads[k]? = some r' →
      r'.phase ≠ .replica cs e reason → (s.reads.set k q)[j]? = some r := by
    intro k r' q hr' hne
    have hjk : k ≠ j := by
      rintro rfl
      rw [hr] at hr'
      cases hr'
      exact hne hphase
    rw [List.getElem?_set_ne hjk]
    exact hr
  cases hstep with
  | stay | tick | openTxn | write | prepare | check | finishTxn | commit => exact hr
  | begin | sample | scan | update | commitProbe | commitLost | record | rotate | failProbe
  | replay | restore => exact hr
  | route => exact (List.getElem?_append_left (List.getElem?_eq_some_iff.1 hr).1).trans hr
  | observe hr' hphase' _ => exact hset _ _ _ hr' (by rw [hphase']; simp)
  | served hr' hphase' _ _ _ => exact hset _ _ _ hr' (by rw [hphase']; simp)
  | writer hr' hopen => exact hset _ _ _ hr' (hopen cs e reason)

/-- The statement a session with these tables runs, and its limit. -/
def ReadRequest.statement (t : Tables) : ReadRequest → Statement
  | .window channelId _ cursor kinds => .window channelId cursor kinds
  | .query q => queryStatement q t
  | .thread root depthLimit _ cursor => .thread root depthLimit (cursor.bind decodeCursor)

def ReadRequest.limit : ReadRequest → Nat
  | .window _ limit _ _ | .thread _ _ limit _ => limit
  | .query q => (pageLimit q).toNat

/-- The upper bound of a page; a thread page's is its last row. -/
def ReadRequest.upper (t : Tables) : ReadRequest → Option Int
  | .window _ _ cursor _ => cursor.map (·.1)
  | .query q => q.until'.map micros
  | .thread root depthLimit limit cursor =>
      ((Statement.thread root depthLimit (cursor.bind decodeCursor)).answers limit
        t).getLast?.map (micros ·.createdAt)

/-- The page of a covered read, beside what the writer would serve later: no
commit in between reaches it, and a row it lacks was not indexed for mentions
yet, or came up where a row of the page is gone. -/
structure CoveredPage (request : ReadRequest) (snapshot later : List Commit) : Prop where
  /-- The page is the statement's first rows in the snapshot. -/
  page : ∀ events, request.answer (tablesOf snapshot) = .ok events →
    events = ((request.statement (tablesOf snapshot)).answers request.limit
      (tablesOf snapshot)).filterMap fun row => rowToStoredEvent row.stored.columns
  extends' : snapshot <+: later
  full : ∀ root depthLimit limit cursor, request = .thread root depthLimit limit cursor →
    ((request.statement (tablesOf snapshot)).answers request.limit
      (tablesOf snapshot)).length = limit
  /-- What the writer commits beyond the snapshot is above the page. -/
  complete : ∃ upper, request.upper (tablesOf snapshot) = some upper ∧
    ∀ c ∈ later.drop snapshot.length, RowsFrom (upper + 1) c.writes
  missing : ∀ x ∈ (request.statement (tablesOf snapshot)).answers request.limit (tablesOf later),
    (∀ y ∈ (request.statement (tablesOf snapshot)).answers request.limit (tablesOf snapshot),
      y.key ≠ x.key) →
    (∃ row ∈ tablesOf snapshot, Ages row x ∧
      (request.statement (tablesOf snapshot)).joinsMentions ∧ row.mentionsIndexed = false) ∨
    (((request.statement (tablesOf snapshot)).answers request.limit
        (tablesOf snapshot)).length = request.limit ∧
      (∀ y ∈ (request.statement (tablesOf snapshot)).answers request.limit (tablesOf snapshot),
        (request.statement (tablesOf snapshot)).order y.key x.key) ∧
      ∃ y ∈ (request.statement (tablesOf snapshot)).answers request.limit (tablesOf snapshot),
        Gone (tablesOf later) y)

variable {request : ReadRequest}

theorem ReadRequest.answer_eq {events : List StoredEvent}
    (h : request.answer (tablesOf cs) = .ok events) :
    events = ((request.statement (tablesOf cs)).answers request.limit (tablesOf cs)).filterMap
      fun row => rowToStoredEvent row.stored.columns := by
  cases request with
  | window channelId limit cursor kinds =>
      cases h
      exact getChannelWindowOn_eq _ channelId limit cursor kinds
  | query q => exact queryEventsOn_eq h
  | thread root depthLimit limit cursor =>
      have h : (getThreadRepliesOn (tablesOf cs) root depthLimit limit cursor).map _ =
        .ok events := h
      cases hreplies : getThreadRepliesOn (tablesOf cs) root depthLimit limit cursor with
      | error e => rw [hreplies] at h; cases h
      | ok replies =>
          rw [hreplies] at h
          cases h
          rw [getThreadRepliesOn_eq (tablesOf_nodup cs) hreplies]
          rfl

variable {x : TableRow}

/-- A row of a channel that is not above the wall is in the snapshot. -/
theorem covered_row {rest : List Commit}
    (hrest : ∀ c ∈ rest, RowsFrom (wall + 1) c.writes)
    (hx : x ∈ tablesOf (cs ++ rest)) (hch : x.stored.channelId.isSome)
    (hle : micros x.createdAt ≤ wall) :
    ∃ old ∈ tablesOf cs, Ages old x := by
  rcases tablesOf_cases hx with hold | ⟨c, hc, row, hrow, hages⟩
  · exact hold
  · have hbound := hrest c hc row hrow (hages.channel ▸ hch)
    have hsame : x.createdAt = row.createdAt := congrArg Prod.fst hages.key
    rw [hsame] at hle
    omega

/-- A thread page that passed its post-check is full, and ends at or below the
wall. -/
theorem postVerified_page {root : EventId} {depthLimit : Option Nat}
    {limit : Nat} {cursor : Option (List UInt8)}
    (hpost : (ReadRequest.thread root depthLimit limit cursor).postVerified e (tablesOf cs)) :
    let page := (thread root depthLimit (cursor.bind decodeCursor)).answers limit
      (tablesOf cs)
    page.length = limit ∧
      ∃ last, page.getLast? = some last ∧ micros last.createdAt ≤ e.fenceWall := by
  simp only [ReadRequest.postVerified] at hpost
  split at hpost
  · next replies hreplies =>
      rw [Bool.and_eq_true, decide_eq_true_eq, Option.any_eq_true] at hpost
      rw [getThreadRepliesOn_eq (tablesOf_nodup cs) hreplies] at hpost
      obtain ⟨hlong, last, hlast, hle⟩ := hpost
      exact ⟨Nat.le_antisymm (List.length_take_le _ _) hlong, last, hlast, of_decide_eq_true hle⟩
  · cases hpost

/-- The page of a covered read ends at or below the proved wall. -/
theorem ReadRequest.upper_le {enabled : Bool}
    (hwithin : (request.predicate enabled).Within e.fenceWall)
    (hpost : request.postVerified e (tablesOf cs)) :
    ∃ upper, request.upper (tablesOf cs) = some upper ∧ upper ≤ e.fenceWall := by
  cases request with
  | window channelId limit cursor kinds =>
      cases cursor with
      | none => cases hwithin
      | some c => exact ⟨c.1, rfl, hwithin⟩
  | query q =>
      have hwithin : RoutePredicate.Within e.fenceWall (if enabled then _ else _) := hwithin
      split at hwithin
      · split at hwithin
        · next u _ huntil => exact ⟨micros u, congrArg (·.map micros) huntil, hwithin⟩
        · cases hwithin
      · cases hwithin
  | thread root depthLimit limit cursor =>
      obtain ⟨-, last, hlast, hle⟩ := postVerified_page hpost
      refine ⟨micros last.createdAt, ?_, hle⟩
      simp only [ReadRequest.upper, hlast, Option.map_some]

/-- Every row of a page comes no later than its last. -/
theorem createdAt_le_last {root : EventId} {depthLimit : Option Nat} {limit : Nat}
    {cursor : Option ThreadCursor} {t : Tables} {last y : TableRow}
    (hlast : ((thread root depthLimit cursor).answers limit t).getLast? = some last)
    (hy : y ∈ (thread root depthLimit cursor).answers limit t) :
    y.createdAt ≤ last.createdAt := by
  have hsorted : ((thread root depthLimit cursor).answers limit t).Pairwise
      fun a b => oldestFirst a.key b.key :=
    (List.pairwise_mergeSort (fun a b c => oldestFirst_totalOrder.trans a.key b.key c.key)
      (fun a b => oldestFirst_totalOrder.total a.key b.key) _).sublist (List.take_sublist _ _)
  obtain ⟨init, hinit⟩ := List.getLast?_eq_some_iff.1 hlast
  rw [hinit] at hsorted hy
  rcases List.mem_append.1 hy with hy | hy
  · have hle := (List.pairwise_append.1 hsorted).2.2 y hy last (List.mem_singleton_self _)
    unfold TableRow.key at hle
    simp only [oldestFirst, Bool.or_eq_true, Bool.and_eq_true, decide_eq_true_eq,
      beq_iff_eq] at hle
    omega
  · rw [List.mem_singleton.1 hy]

/-- A row of a pinned query with an upper bound is in the channel, and not above
the bound. -/
theorem query_selects {q : EventQuery} {ch : Uuid} {u : Int} {t : Tables}
    (hch : q.channelId = some ch) (huntil : q.until' = some u)
    (h : (queryStatement q t).selects x) :
    x.stored.channelId.isSome ∧ x.createdAt ≤ u := by
  have hpush : pushEventFilters q x.stored → x.stored.channelId.isSome ∧ x.createdAt ≤ u := by
    intro hpush
    simp only [pushEventFilters, channelClauses, untilClause, hch, huntil, Bool.and_eq_true,
      beq_iff_eq] at hpush
    obtain ⟨⟨⟨⟨⟨⟨⟨-, hchannel, -⟩, -⟩, -⟩, -⟩, hbound⟩, -⟩, -⟩ := hpush
    rw [columns_channelId] at hchannel
    refine ⟨by rw [hchannel]; rfl, ?_⟩
    show x.stored.columns.createdAt ≤ u
    split at hbound
    · next hnone => cases hnone
    · next hsome _ =>
        cases hsome
        exact of_decide_eq_true hbound
    · next hsome _ =>
        cases hsome
        simp only [Bool.or_eq_true, Bool.and_eq_true, decide_eq_true_eq, beq_iff_eq] at hbound
        omega
  unfold queryStatement at h
  split at h
  · split at h
    · simp only [selects, queryEventsSql, Bool.and_eq_true] at h
      exact hpush h.1.2
    · simp only [selects, Bool.and_eq_true] at h
      exact hpush h.2
  · simp only [selects, queryEventsSql, Bool.and_eq_true] at h
    exact hpush h.1.2

theorem wanted_selects {st : Statement} (h : st.wanted x) : st.selects x := by
  unfold wanted at h
  exact (Bool.and_eq_true_iff.1 h).1

/-- A row of the writer's page is an old one, or comes after a full page. -/
theorem ReadRequest.covers {enabled : Bool} {rest : List Commit}
    (hwithin : (request.predicate enabled).Within e.fenceWall)
    (hpost : request.postVerified e (tablesOf cs))
    (hrest : ∀ c ∈ rest, RowsFrom (e.fenceWall + 1) c.writes)
    (hx : x ∈ tablesOf (cs ++ rest))
    (hsel : (request.statement (tablesOf cs)).selects x) :
    (∃ row ∈ tablesOf cs, Ages row x) ∨
      (((request.statement (tablesOf cs)).answers request.limit (tablesOf cs)).length =
          request.limit ∧
        ∀ y ∈ (request.statement (tablesOf cs)).answers request.limit (tablesOf cs),
          (request.statement (tablesOf cs)).order y.key x.key) := by
  cases request with
  | window channelId limit cursor kinds =>
      cases cursor with
      | none => cases hwithin
      | some c =>
          simp only [ReadRequest.statement, selects, windowCursorClause,
            Option.all_some, Bool.and_eq_true, Bool.or_eq_true, decide_eq_true_eq,
            beq_iff_eq] at hsel
          obtain ⟨⟨⟨⟨hchannel, -⟩, -⟩, hcursor⟩, -⟩ := hsel
          rw [columns_channelId] at hchannel
          have hwithin : c.1 ≤ e.fenceWall := hwithin
          exact .inl (covered_row hrest hx (by rw [hchannel]; rfl) (by omega))
  | query q =>
      have hwithin : RoutePredicate.Within e.fenceWall (if enabled then _ else _) := hwithin
      split at hwithin
      · split at hwithin
        · next ch u hch huntil =>
            obtain ⟨hchannel, hle⟩ := query_selects hch huntil hsel
            have hwithin : micros u ≤ e.fenceWall := hwithin
            refine .inl (covered_row hrest hx hchannel ?_)
            unfold micros at hwithin ⊢
            omega
        · cases hwithin
      · cases hwithin
  | thread root depthLimit limit cursor =>
      by_cases hle : micros x.createdAt ≤ e.fenceWall
      · simp only [ReadRequest.statement, selects, Bool.and_eq_true] at hsel
        have hroot : x.place.any (·.rootEventId.isSome) := by
          obtain ⟨p, hp, hany⟩ := (Option.any_eq_true _ _).1 hsel.1.1
          rw [Bool.and_eq_true, beq_iff_eq] at hany
          rw [hp, Option.any_some, hany.1]
          rfl
        exact .inl (covered_row hrest hx (x.inChannel hroot) hle)
      · -- Above the wall, it is above a page that ends at the wall.
        obtain ⟨hfull, last, hlast, hwall⟩ := postVerified_page hpost
        refine .inr ⟨hfull, fun y hy => ?_⟩
        have hy := createdAt_le_last hlast hy
        show oldestFirst y.key x.key
        unfold TableRow.key micros at *
        simp only [oldestFirst, Bool.or_eq_true, decide_eq_true_eq]
        omega

/-- Whatever the writer has committed since and will commit: a covered page
lacks no row of a channel, and a row of the writer's page is missing from it
only for rows gone since, or for mentions indexed since. -/
theorem covered_pages_complete (d : FenceDeployment) (ms ms' : List FenceMove)
    (hms : d.machine.Meets (fun s m => Compliant s m) d.init (ms ++ ms')) (r : RoutedRead)
    (hr : r ∈ (d.machine.run ms).reads) (cs : List Commit) (e : TokenEntry)
    (hphase : r.phase = .replica cs e .covered)
    (hpost : r.request.postVerified e (tablesOf cs)) :
    CoveredPage r.request cs (d.machine.run (ms ++ ms')).history := by
  obtain ⟨j, hj⟩ := List.getElem?_of_mem hr
  have hlater : (d.machine.run (ms ++ ms')).reads[j]? = some r := by
    rw [Machine.run_append]
    exact d.machine.stable_runFrom (I := fun s => s.reads[j]? = some r)
      (fun s m h => (s.step_spec m).keeps_served hphase h) hj ms'
  obtain ⟨htime, hwall⟩ := wallInv_run hms
  generalize d.machine.run (ms ++ ms') = s at hlater htime hwall
  have hread := hwall.reads j r hlater
  obtain ⟨enabled, hpredicate⟩ := hread.predicate
  obtain ⟨hentry, hfirst, hstart, hcovered⟩ := hread.served cs e .covered hphase
  have hwithin := hpredicate ▸ hcovered rfl
  -- The snapshot is past the token, and so past the scan.
  have hcontains : e.upto <+: cs :=
    htime.served j r cs e .covered hlater hphase (hentry.first.trans hfirst.symm)
  obtain ⟨rest, hrest⟩ := hstart
  have hsince : e.since ≤ cs.length := Nat.le_trans hentry.since hcontains.length_le
  have hrows : ∀ c ∈ rest, RowsFrom (e.fenceWall + 1) c.writes := by
    intro c hc
    refine hentry.wall.history c ?_
    rw [← hrest, List.drop_append_of_le_length hsince]
    exact List.mem_append_right _ hc
  rw [← hrest]
  refine ⟨fun events => ReadRequest.answer_eq, List.prefix_append _ _, ?_, ?_, ?_⟩
  · intro root depthLimit limit cursor hrequest
    rw [hrequest] at hpost ⊢
    exact (postVerified_page hpost).1
  · obtain ⟨upper, hupper, hle⟩ := ReadRequest.upper_le hwithin hpost
    refine ⟨upper, hupper, fun c hc => ?_⟩
    rw [List.drop_left] at hc
    exact (hrows c hc).mono (by omega)
  · intro x hx hmissing
    obtain ⟨hxin, hwanted⟩ := mem_of_mem_answers hx
    exact answers_pushed (tablesOf_nodup cs) hx hmissing
      (ReadRequest.covers hwithin hpost hrows hxin (wanted_selects hwanted))

/-! ## Late commits -/

/-- Rows that are all covered, a read of them, and what is committed after its
snapshot. -/
structure LateCommit where
  rows : List TableRow
  request : ReadRequest
  late : List Write

namespace LateCommit

def routedPod : FenceDeployment where
  clock := 0
  budgets := [some 5000000]
  replicas := 1

def commits (txn : Nat) (ws : List Write) : List FenceMove :=
  .openTxn (some createdAtFloorSecs) :: ws.map (.write txn) ++ [.prepare txn] ++
    List.replicate ws.length (.check txn) ++ [.commit txn]

/-- A thousand seconds later a handshake covers the rows, and the replica has
replayed them and the heartbeat. -/
def reading (c : LateCommit) : List FenceMove :=
  commits 0 (c.rows.map .insert) ++ [.tick 1000000000] ++ handshake ++
    [.replay 0 none, .replay 0 none, .route 0 c.request 0, .observe 0 0, .resolve 0 0]

def snapshot (c : LateCommit) : List Commit := (routedPod.machine.run c.reading).history

def later (c : LateCommit) : List Commit :=
  (routedPod.machine.run (c.reading ++ commits 1 c.late)).history

def channel : Uuid := .ofByte 1

def textOf (byte : UInt8) : String := (Bytes32.ofByte byte).toHex

/-- A huddle participant, whose mentions are indexed after its own commit. -/
def joined : StoredRow where
  event := ⟨.ofByte 7, .ofByte 7, 0, 48101, [⟨"p", [textOf 7]⟩]⟩
  channelId := some channel
  columns := ⟨.ofByte 7, .ofByte 7, 0, 48101, [⟨"p", [textOf 7]⟩], some channel, none, [textOf 7]⟩
  inserted := by decide +kernel

def indexedLate : LateCommit where
  rows := [{ stored := joined, mentionsIndexed := false, inChannel := fun h => by cases h }]
  request := .query { channelId := some channel, until' := some 0, pTagHex := some (textOf 7) }
  late := [.indexMentions (.ofByte 7)]

def revisionTags (op : String) (prev : List Tag) : List Tag :=
  [⟨"ar", ["1"]⟩, ⟨"d", [channel.toText]⟩, ⟨"h", [channel.toText]⟩, ⟨"type", ["buzz.canvas"]⟩,
    ⟨"title", ["plan"]⟩, ⟨"op", [op]⟩] ++ prev

def created : StoredRow where
  event := ⟨.ofByte 8, .ofByte 7, 1, 45010, revisionTags "create" []⟩
  channelId := some channel
  columns := ⟨.ofByte 8, .ofByte 7, 1, 45010, revisionTags "create" [], some channel, none, []⟩
  inserted := by decide +kernel
  isHead := true

def replaced : StoredRow where
  event := ⟨.ofByte 9, .ofByte 7, 1000, 45010, revisionTags "update" [⟨"prev", [textOf 8]⟩]⟩
  channelId := some channel
  columns := ⟨.ofByte 9, .ofByte 7, 1000, 45010, revisionTags "update" [⟨"prev", [textOf 8]⟩],
    some channel, none, []⟩
  inserted := by decide +kernel
  isHead := true

/-- A head that a later revision replaces, on a page of one row. -/
def supersededHead : LateCommit where
  rows := [{ stored := created, inChannel := fun h => by cases h },
    { stored := messageIn channel, inChannel := fun h => by cases h }]
  request := .query { channelId := some channel, until' := some 1, limit := some 1 }
  late := [.insert { stored := replaced, inChannel := fun h => by cases h }, .supersede (.ofByte 8)]

/-- A reply ingested without a metadata row of its own. -/
def orphan : StoredRow where
  event := ⟨.ofByte 7, .ofByte 7, 0, 9, [⟨"e", [textOf 5, "", "reply"]⟩]⟩
  channelId := some channel
  columns := ⟨.ofByte 7, .ofByte 7, 0, 9, [⟨"e", [textOf 5, "", "reply"]⟩], some channel, none, []⟩
  inserted := by decide +kernel

def mention : StoredRow where
  event := ⟨.ofByte 8, .ofByte 7, 0, 9, [⟨"e", [textOf 7]⟩]⟩
  channelId := some channel
  columns := ⟨.ofByte 8, .ofByte 7, 0, 9, [⟨"e", [textOf 7]⟩], some channel, none, []⟩
  inserted := by decide +kernel

def answered : StoredRow where
  event := ⟨.ofByte 9, .ofByte 7, 1000, 9, [⟨"e", [textOf 7, "", "reply"]⟩]⟩
  channelId := some channel
  columns := ⟨.ofByte 9, .ofByte 7, 1000, 9, [⟨"e", [textOf 7, "", "reply"]⟩], some channel, none,
    []⟩
  inserted := by decide +kernel

/-- The first answer to it leaves a stub, and reads of its replies go generic. -/
def stubbedReply : LateCommit where
  rows := [{ stored := orphan, inChannel := fun h => by cases h },
    { stored := mention, inChannel := fun h => by cases h }]
  request := .query {
    channelId := some channel
    kinds := some [9]
    eTags := some [textOf 7]
    until' := some 0 }
  late := [
    .insert {
      stored := answered
      place := some { rootEventId := some (.ofByte 5), depth := 2, broadcast := false }
      inChannel := fun _ => rfl },
    .stub (.ofByte 7)]

end LateCommit

/-- The snapshot a covered read was served from. -/
def ReadPhase.coveredSnapshot : ReadPhase → Option (List Commit)
  | .replica snapshot _ .covered => some snapshot
  | _ => none

theorem ReadPhase.coveredSnapshot_eq {phase : ReadPhase}
    (h : phase.coveredSnapshot = some cs) :
    ∃ e, phase = .replica cs e .covered := by
  unfold ReadPhase.coveredSnapshot at h
  split at h
  · next e =>
      cases h
      exact ⟨e, rfl⟩
  · cases h

/-- A page of one row, the head of an artifact: the row behind it is missing
since the head has moved on. -/
theorem covered_pages_complete_superseded :
    let c := LateCommit.supersededHead
    ∃ r ∈ (LateCommit.routedPod.machine.run c.reading).reads,
      r.phase.coveredSnapshot = some c.snapshot ∧
      CoveredPage r.request c.snapshot c.later := by
  intro c
  obtain ⟨r, hr, hrequest, hphase⟩ :
      ∃ r ∈ (LateCommit.routedPod.machine.run c.reading).reads,
        r.request = c.request ∧ r.phase.coveredSnapshot = some c.snapshot := by
    decide +kernel
  obtain ⟨e, he⟩ := ReadPhase.coveredSnapshot_eq hphase
  refine ⟨r, hr, hphase, ?_⟩
  exact covered_pages_complete LateCommit.routedPod c.reading (LateCommit.commits 1 c.late)
    (by decide +kernel) r hr c.snapshot e he (by rw [hrequest]; rfl)

/-- A row of the page the writer's session would answer is missing only where
rows deleted since fill the page. -/
def MissesOnlyForDeleted (request : ReadRequest) (snapshot later : List Commit) : Prop :=
  ∀ x ∈ (request.statement (tablesOf later)).answers request.limit (tablesOf later),
    (∀ y ∈ (request.statement (tablesOf snapshot)).answers request.limit (tablesOf snapshot),
      y.key ≠ x.key) →
    ∃ y ∈ (request.statement (tablesOf snapshot)).answers request.limit (tablesOf snapshot),
      ∀ row ∈ tablesOf later, row.key = y.key → row.stored.deleted

theorem answers_of_pairwise {st : Statement} {t : Tables} (n : Nat)
    (h : (t.filter st.wanted).Pairwise fun a b => st.order a.key b.key) :
    st.answers n t = (t.filter st.wanted).take n := by
  unfold answers
  rw [List.mergeSort_of_pairwise h]

/-- A compliant run in which the read is covered, and then a live row of the
writer's page is missing from its own. -/
def LateCommit.MissesLiveRow (c : LateCommit) : Prop :=
  routedPod.machine.Meets (fun s m => Compliant s m) routedPod.init
      (c.reading ++ commits 1 c.late) ∧
    (∃ r ∈ (routedPod.machine.run c.reading).reads,
      r.request = c.request ∧ r.phase.coveredSnapshot = some c.snapshot) ∧
    ¬ MissesOnlyForDeleted c.request c.snapshot c.later

theorem LateCommit.missesLiveRow_of_sorted {c : LateCommit}
    (hrun : routedPod.machine.Meets (fun s m => Compliant s m) routedPod.init
      (c.reading ++ commits 1 c.late) ∧
      ∃ r ∈ (routedPod.machine.run c.reading).reads,
        r.request = c.request ∧ r.phase.coveredSnapshot = some c.snapshot)
    (hsorted : ∀ cs ∈ [c.snapshot, c.later], ((tablesOf cs).filter
      (c.request.statement (tablesOf cs)).wanted).Pairwise
        fun a b => (c.request.statement (tablesOf cs)).order a.key b.key)
    (hmisses : ¬ ∀ x ∈ ((tablesOf c.later).filter
        (c.request.statement (tablesOf c.later)).wanted).take c.request.limit,
      (∀ y ∈ ((tablesOf c.snapshot).filter
          (c.request.statement (tablesOf c.snapshot)).wanted).take c.request.limit,
        y.key ≠ x.key) →
      ∃ y ∈ ((tablesOf c.snapshot).filter
          (c.request.statement (tablesOf c.snapshot)).wanted).take c.request.limit,
        ∀ row ∈ tablesOf c.later, row.key = y.key → row.stored.deleted) : c.MissesLiveRow := by
  refine ⟨hrun.1, hrun.2, ?_⟩
  unfold MissesOnlyForDeleted
  rw [answers_of_pairwise _ (hsorted c.snapshot (List.mem_cons_self ..)),
    answers_of_pairwise _ (hsorted c.later (List.mem_cons_of_mem _ (List.mem_cons_self ..)))]
  exact hmisses

/-- Live rows are missing that wait for their mentions, that come after a head
superseded since, or that the other statement of the read would find. -/
theorem covered_pages_miss_live_rows :
    LateCommit.indexedLate.MissesLiveRow ∧ LateCommit.supersededHead.MissesLiveRow ∧
      LateCommit.stubbedReply.MissesLiveRow := by
  refine ⟨LateCommit.missesLiveRow_of_sorted ?_ ?_ ?_,
    LateCommit.missesLiveRow_of_sorted ?_ ?_ ?_,
    LateCommit.missesLiveRow_of_sorted ?_ ?_ ?_⟩ <;> decide +kernel

end Buzz.Db
