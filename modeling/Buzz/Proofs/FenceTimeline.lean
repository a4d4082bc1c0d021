import Buzz.Db.ReplicaFence

/-!
# Timelines of the writer

Tokens grow along every timeline, so a session that has replayed a token has
replayed all that the token's own timeline committed before it. What a session
of another timeline has replayed it says nothing about, and only the epoch keeps
such sessions out: it is rotated when a ring sees its token go back. The
condition `Recordable` is that a ring does see it.
-/

namespace Buzz.Db

open Buzz.Core Buzz.Lib

/-! ## What a move does -/

/-- Every move, with what its guards say. -/
inductive FenceStep (s : FenceState) : FenceMove → FenceState → Prop
  | stay (m : FenceMove) : FenceStep s m s
  | tick (d : Nat) : FenceStep s (.tick d) { s with clock := s.clock + d }
  | openTxn (floorSecs : Option Nat) :
      FenceStep s (.openTxn floorSecs)
        { s with txns := s.txns ++ [{ xactStart := s.clock, floorSecs }] }
  | write {i : Nat} {t : Txn} {w : Write} (ht : s.txns[i]? = some t)
      (hphase : t.phase = .active) :
      FenceStep s (.write i w) (s.setTxn i { t with writes := t.writes ++ [w] })
  | prepare {i : Nat} {t : Txn} (ht : s.txns[i]? = some t) (hphase : t.phase = .active) :
      FenceStep s (.prepare i) (s.setTxn i { t with phase := .committing 0 })
  | check {i k : Nat} {t : Txn} {w : Write} (ht : s.txns[i]? = some t)
      (hphase : t.phase = .committing k) (hw : t.writes[k]? = some w)
      (hpass : FenceState.guardRaises t s.clock w = false) :
      FenceStep s (.check i) (s.setTxn i { t with phase := .committing (k + 1) })
  | commit {i : Nat} {t : Txn} (ht : s.txns[i]? = some t)
      (hphase : t.phase = .committing t.writes.length) :
      FenceStep s (.commit i)
        ((s.appendCommit t.writes none).setTxn i { t with phase := .done })
  | finishTxn {m : FenceMove} {i : Nat} {t : Txn} (ht : s.txns[i]? = some t) :
      FenceStep s m (s.setTxn i { t with phase := .done })
  | begin {m : FenceMove} {i : Nat} {p : RelayPod} {q : ProbePhase} (hp : s.pods[i]? = some p)
      (hq : (∃ x, q = .begun x) ∨ ∃ x, q = .locked x) : FenceStep s m (s.setProbe i p q)
  | sample {i : Nat} {p : RelayPod} {x : Int} (hp : s.pods[i]? = some p)
      (hphase : p.probe = .locked x) :
      FenceStep s (.sample i) (s.setProbe i p (.sampled x s.clock))
  | scan {i : Nat} {p : RelayPod} {x sampledAt : Int} {others : Option Int}
      (hp : s.pods[i]? = some p) (hphase : p.probe = .sampled x sampledAt) :
      FenceStep s (.scan i others) (s.setProbe i p
        (.scanned x (fenceWall sampledAt (s.oldestStart i others)) s.history.length))
  | update {i now : Nat} {p : RelayPod} {x wall : Int} {since : Nat}
      (hp : s.pods[i]? = some p) (hphase : p.probe = .scanned x wall since)
      (hfree : s.rowHeld = false) :
      FenceStep s (.update i now) (s.setProbe i p (.updated x wall since s.nextBeat now))
  | commitProbe {i at' : Nat} {p : RelayPod} {x wall : Int} {since : Nat} {beat : Beat}
      (hp : s.pods[i]? = some p) (hphase : p.probe = .updated x wall since beat at') :
      FenceStep s (.commitProbe i) ((s.appendCommit [] (some beat)).setProbe i p
        (.committed wall since beat at' (s.appendCommit [] (some beat)).history))
  | commitLost {i at' : Nat} {p : RelayPod} {x wall : Int} {since : Nat} {beat : Beat}
      (hp : s.pods[i]? = some p) (hphase : p.probe = .updated x wall since beat at') :
      FenceStep s (.commitLost i) ((s.appendCommit [] (some beat)).closePod i p)
  | record {i at' : Nat} {p : RelayPod} {q : ProbePhase} {wall : Int} {since : Nat}
      {beat : Beat} {upto : List Commit} (hp : s.pods[i]? = some p)
      (hphase : p.probe = .committed wall since beat at' upto ∨
        p.probe = .rotated wall since beat at' upto)
      (hq : q = .idle ∨ q = .regressed wall since) :
      FenceStep s (.record i) (s.setPod i { p with
        fence := (p.fence.record beat.epoch (s.entryOf wall since beat at' upto)).1
        probe := q })
  | rotate {i now : Nat} {p : RelayPod} {wall : Int} {since : Nat}
      (hp : s.pods[i]? = some p) (hphase : p.probe = .regressed wall since)
      (hfree : s.rowHeld = false) :
      FenceStep s (.rotate i now)
        (FenceState.setProbe
          { s.appendCommit [] (some s.rotatedBeat) with epochs := s.epochs + 1 } i p
          (.rotated wall since s.rotatedBeat now
            (s.appendCommit [] (some s.rotatedBeat)).history))
  | failProbe {i : Nat} {p : RelayPod} (hp : s.pods[i]? = some p) :
      FenceStep s (.failProbe i) (s.closePod i p)
  | replay {k : Nat} {t : Option Nat} {applied commits : List Commit} {c : Commit}
      (happlied : s.replicas[k]? = some applied) (ht : s.timeline t = some commits)
      (hc : commits[applied.length]? = some c) (hon : commits.take applied.length = applied) :
      FenceStep s (.replay k t) { s with replicas := s.replicas.set k (applied ++ [c]) }
  | route {i now : Nat} {request : ReadRequest} {r : RoutedRead}
      (hphase : r.phase = .prechecked ∨ r.phase = .writer)
      (hpredicate : ∃ enabled, r.predicate = r.request.predicate enabled) :
      FenceStep s (.route i request now) { s with reads := s.reads ++ [r] }
  | observe {j k : Nat} {r : RoutedRead} {snapshot : List Commit} (hr : s.reads[j]? = some r)
      (hphase : r.phase = .prechecked) (hsnapshot : s.replicas[k]? = some snapshot) :
      FenceStep s (.observe j k) (s.setRead j { r with phase := .observed snapshot })
  | served {j now : Nat} {r : RoutedRead} {p : RelayPod} {snapshot : List Commit}
      {entry : TokenEntry} {reason : RouteReason} (hr : s.reads[j]? = some r)
      (hphase : r.phase = .observed snapshot) (hp : s.pods[r.pod]? = some p)
      (hproved : p.fence.resolve (heartbeat snapshot) = .proved entry)
      (hverdict : r.predicate.verdict p.budget entry now = some reason) :
      FenceStep s (.resolve j now) (s.setRead j { r with
        phase := .replica snapshot entry reason, routedIn := s.restores })
  | writer {m : FenceMove} {j n : Nat} {r : RoutedRead} (hr : s.reads[j]? = some r)
      (hopen : ∀ cs e reason, r.phase ≠ .replica cs e reason) :
      FenceStep s m (s.setRead j { r with phase := .writer, routedIn := n })
  | restore (n : Nat) : FenceStep s (.restore n) (s.restore n)

namespace FenceState

variable (s : FenceState) {i : Nat} {m : FenceMove} {p : RelayPod}

theorem onTxn_spec {f : Txn → FenceState}
    (hf : ∀ t, s.txns[i]? = some t → FenceStep s m (f t)) :
    FenceStep s m (s.onTxn i f) := by
  unfold onTxn
  cases ht : s.txns[i]? with
  | none => exact .stay m
  | some t => exact hf t ht

theorem onPod_spec {f : RelayPod → FenceState}
    (hf : ∀ p, s.pods[i]? = some p → FenceStep s m (f p)) :
    FenceStep s m (s.onPod i f) := by
  unfold onPod
  cases hp : s.pods[i]? with
  | none => exact .stay m
  | some p => exact hf p hp

theorem checkWrite_spec {t : Txn} (ht : s.txns[i]? = some t) :
    FenceStep s (.check i) (s.checkWrite i t) := by
  unfold checkWrite
  split
  · next k hphase =>
      split
      · exact .stay _
      · next w hw =>
          split
          · exact .finishTxn ht
          · next hpass => exact .check ht hphase hw (by simpa using hpass)
  · exact .stay _

theorem sampleWriter_spec (hp : s.pods[i]? = some p)
    (hm : m = .beginProbe i ∨ m = .lock i ∨ m = .sample i ∨ (∃ o, m = .scan i o) ∨
      ∃ now, m = .update i now) : FenceStep s m (s.sampleWriter i p m) := by
  rcases hm with rfl | rfl | rfl | ⟨others, rfl⟩ | ⟨now, rfl⟩ <;> simp only [sampleWriter]
  · split
    · exact .begin hp (.inl ⟨_, rfl⟩)
    · exact .stay _
  · split
    · split
      · exact .stay _
      · exact .begin hp (.inr ⟨_, rfl⟩)
    · exact .stay _
  · split
    · next hphase => exact .sample hp hphase
    · exact .stay _
  · split
    · next hphase => exact .scan hp hphase
    · exact .stay _
  · split
    · next hphase =>
        split
        · exact .stay _
        · next hfree => exact .update hp hphase (by simpa using hfree)
    · exact .stay _

theorem commitProbe_spec (hp : s.pods[i]? = some p) :
    FenceStep s (.commitProbe i) (s.commitProbe i p true) ∧
      FenceStep s (.commitLost i) (s.commitProbe i p false) := by
  unfold commitProbe
  split
  · next hphase => exact ⟨.commitProbe hp hphase, .commitLost hp hphase⟩
  · exact ⟨.stay _, .stay _⟩

theorem recordProbe_spec (hp : s.pods[i]? = some p) :
    FenceStep s (.record i) (s.recordProbe i p) := by
  unfold recordProbe
  split
  · next wall since beat at' upto hphase =>
      split
      · next fence hrecord =>
          have h := FenceStep.record hp (.inl hphase) (.inl rfl)
          rw [hrecord] at h
          exact h
      · next fence hrecord =>
          have h := FenceStep.record hp (.inl hphase) (.inr rfl)
          rw [hrecord] at h
          exact h
  · next hphase => exact .record hp (.inr hphase) (.inl rfl)
  · exact .stay _

theorem rotateEpoch_spec (hp : s.pods[i]? = some p) (now : Nat) :
    FenceStep s (.rotate i now) (s.rotateEpoch i p now) := by
  unfold rotateEpoch
  split
  · next hphase =>
      split
      · exact .stay _
      · next hfree => exact .rotate hp hphase (by simpa using hfree)
  · exact .stay _

theorem replayOne_spec (k : Nat) (t : Option Nat) :
    FenceStep s (.replay k t) (s.replayOne k t) := by
  unfold replayOne
  split
  · next happlied ht =>
      split
      · exact .stay _
      · next hc =>
          split
          · next hon => exact .replay happlied ht hc hon
          · exact .stay _
  · exact .stay _

theorem routeRead_spec (i : Nat) (request : ReadRequest) (now : Nat) :
    FenceStep s (.route i request now) (s.routeRead i request now) := by
  unfold routeRead
  split
  · exact .stay _
  · refine .route ?_ ⟨_, rfl⟩
    split
    · exact .inl rfl
    · exact .inr rfl

theorem observeOn_spec (j k : Nat) : FenceStep s (.observe j k) (s.observeOn j k) := by
  unfold observeOn
  split
  · next hr hsnapshot =>
      split
      · next hphase => exact .observe hr hphase hsnapshot
      · exact .stay _
  · exact .stay _

theorem resolveRead_spec (j now : Nat) :
    FenceStep s (.resolve j now) (s.resolveRead j now) := by
  unfold resolveRead
  split
  · exact .stay _
  · next r hr =>
      split
      · next snapshot p hphase hp =>
          have hopen : ∀ cs e reason, r.phase ≠ .replica cs e reason := by simp [hphase]
          split
          · next entry hproved =>
              split
              · next reason hverdict => exact .served hr hphase hp hproved hverdict
              · exact .writer hr hopen
          · exact .writer hr hopen
          · exact .writer hr hopen
      · exact .stay _

theorem failRead_spec (j : Nat) : FenceStep s (.failRead j) (s.failRead j) := by
  unfold failRead
  split
  · exact .stay _
  · next r hr =>
      split
      · next hphase => exact .writer (n := r.routedIn) hr (by simp [hphase])
      · next hphase => exact .writer (n := r.routedIn) hr (by simp [hphase])
      · exact .stay _

theorem step_spec (m : FenceMove) : FenceStep s m (s.step m) := by
  cases m with
  | tick d => exact .tick d
  | openTxn floorSecs => exact .openTxn floorSecs
  | write i w =>
      refine s.onTxn_spec fun t ht => ?_
      split
      · next hphase => exact .write ht hphase
      · exact .stay _
  | prepare i =>
      refine s.onTxn_spec fun t ht => ?_
      split
      · next hphase => exact .prepare ht hphase
      · exact .stay _
  | check i => exact s.onTxn_spec fun t ht => s.checkWrite_spec ht
  | commit i =>
      refine s.onTxn_spec fun t ht => ?_
      unfold commitTxn
      split
      · next hphase => exact .commit ht hphase
      · exact .stay _
  | rollback i => exact s.onTxn_spec fun t ht => .finishTxn ht
  | beginProbe i => exact s.onPod_spec fun p hp => s.sampleWriter_spec hp (.inl rfl)
  | lock i => exact s.onPod_spec fun p hp => s.sampleWriter_spec hp (.inr (.inl rfl))
  | sample i => exact s.onPod_spec fun p hp => s.sampleWriter_spec hp (.inr (.inr (.inl rfl)))
  | scan i others =>
      exact s.onPod_spec fun p hp =>
        s.sampleWriter_spec hp (.inr (.inr (.inr (.inl ⟨others, rfl⟩))))
  | update i now =>
      exact s.onPod_spec fun p hp =>
        s.sampleWriter_spec hp (.inr (.inr (.inr (.inr ⟨now, rfl⟩))))
  | commitProbe i => exact s.onPod_spec fun p hp => (s.commitProbe_spec hp).1
  | commitLost i => exact s.onPod_spec fun p hp => (s.commitProbe_spec hp).2
  | record i => exact s.onPod_spec fun p hp => s.recordProbe_spec hp
  | rotate i now => exact s.onPod_spec fun p hp => s.rotateEpoch_spec hp now
  | failProbe i => exact s.onPod_spec fun p hp => .failProbe hp
  | replay k t => exact s.replayOne_spec k t
  | route i request now => exact s.routeRead_spec i request now
  | observe j k => exact s.observeOn_spec j k
  | resolve j now => exact s.resolveRead_spec j now
  | failRead j => exact s.failRead_spec j
  | restore n => exact .restore n

end FenceState

/-! ## Tokens along a timeline -/

def beats (cs : List Commit) : List Beat := cs.filterMap (·.beat)

/-- Heartbeats carry increasing tokens. -/
structure Ordered (cs : List Commit) : Prop where
  increasing : (beats cs).Pairwise (·.token < ·.token)
  positive : ∀ b ∈ beats cs, 0 < b.token

/-- The last of the commits is a heartbeat. -/
def EndsIn (upto : List Commit) (b : Beat) : Prop :=
  ∃ before c, upto = before ++ [c] ∧ c.beat = some b

theorem beats_append (cs cs' : List Commit) : beats (cs ++ cs') = beats cs ++ beats cs' :=
  List.filterMap_append

theorem heartbeat_eq (cs : List Commit) : heartbeat cs = (beats cs).getLast?.getD ⟨0, 0⟩ := rfl

theorem heartbeat_snoc (cs : List Commit) (c : Commit) :
    heartbeat (cs ++ [c]) = c.beat.getD (heartbeat cs) := by
  rw [heartbeat_eq, beats_append]
  cases hc : c.beat with
  | none => simp [beats, hc, heartbeat_eq]
  | some b => simp [beats, hc]

/-- The heartbeat row is one of the beats, or still the migration's. -/
theorem heartbeat_cases (cs : List Commit) :
    heartbeat cs ∈ beats cs ∨ heartbeat cs = ⟨0, 0⟩ := by
  rw [heartbeat_eq]
  cases h : (beats cs).getLast? with
  | none => exact .inr rfl
  | some b => exact .inl (List.mem_of_getLast? h)

variable {cs : List Commit}

theorem Ordered.pre {l : List Commit} (h : Ordered l) (hpre : cs <+: l) :
    Ordered cs := by
  obtain ⟨rest, rfl⟩ := hpre
  have hinc := h.increasing
  have hpos := h.positive
  rw [beats_append] at hinc hpos
  refine ⟨(List.pairwise_append.1 hinc).1, fun b hb => ?_⟩
  exact hpos b (List.mem_append_left _ hb)

/-- Nothing before the end of an ordered list has the token of its end. -/
theorem Ordered.token_lt {before rest : List Commit} {c : Commit} {b : Beat}
    (h : Ordered (before ++ rest ++ [c])) (hc : c.beat = some b) :
    (heartbeat before).token < b.token := by
  have hinc := h.increasing
  have hpos := h.positive
  have hbeats : beats (before ++ rest ++ [c]) = beats before ++ (beats rest ++ [b]) := by
    rw [beats_append, beats_append, List.append_assoc]
    simp [beats, hc]
  rw [hbeats] at hinc hpos
  rcases heartbeat_cases before with hmem | hzero
  · exact (List.pairwise_append.1 hinc).2.2 _ hmem b (by simp)
  · rw [hzero]
    exact hpos b (by simp)

theorem Ordered.le_heartbeat (h : Ordered cs) {b : Beat} (hb : b ∈ beats cs) :
    b.token ≤ (heartbeat cs).token := by
  rw [heartbeat_eq]
  have hne : beats cs ≠ [] := List.ne_nil_of_mem hb
  obtain ⟨init, last, hsplit⟩ := List.eq_nil_or_concat (beats cs) |>.resolve_left hne
  have hinc := h.increasing
  rw [hsplit, List.concat_eq_append] at hinc hb ⊢
  rw [List.getLast?_concat, Option.getD_some]
  rcases List.mem_append.1 hb with hb | hb
  · exact Nat.le_of_lt ((List.pairwise_append.1 hinc).2.2 b hb last (by simp))
  · rw [List.mem_singleton.1 hb]

theorem Ordered.snoc (h : Ordered cs) {c : Commit}
    (hc : ∀ b, c.beat = some b → b.token = (heartbeat cs).token + 1) :
    Ordered (cs ++ [c]) := by
  cases hbeat : c.beat with
  | none =>
      have hsame : beats (cs ++ [c]) = beats cs := by
        rw [beats_append]
        simp [beats, hbeat]
      exact ⟨hsame ▸ h.increasing, hsame ▸ h.positive⟩
  | some b =>
      have htoken := hc b hbeat
      have hsnoc : beats (cs ++ [c]) = beats cs ++ [b] := by
        rw [beats_append]
        simp [beats, hbeat]
      constructor
      · rw [hsnoc, List.pairwise_append]
        refine ⟨h.increasing, List.pairwise_singleton _ _, fun x hx y hy => ?_⟩
        have hle := h.le_heartbeat hx
        rw [List.mem_singleton.1 hy]
        omega
      · intro x hx
        rw [hsnoc] at hx
        rcases List.mem_append.1 hx with hx | hx
        · exact h.positive x hx
        · rw [List.mem_singleton.1 hx]
          omega

variable {upto : List Commit}

/-- A session of a timeline that observes a token has replayed the token's
commit and all before it. -/
theorem Ordered.contains {l snapshot : List Commit} {b : Beat} (h : Ordered l)
    (hupto : upto <+: l) (hsnapshot : snapshot <+: l) (hends : EndsIn upto b)
    (htoken : b.token ≤ (heartbeat snapshot).token) : upto <+: snapshot := by
  rcases List.prefix_or_prefix_of_prefix hupto hsnapshot with hle | ⟨rest, hrest⟩
  · exact hle
  · obtain ⟨before, c, rfl, hc⟩ := hends
    rcases List.eq_nil_or_concat rest with rfl | ⟨init, last, rfl⟩
    · rw [List.append_nil] at hrest
      exact hrest ▸ List.prefix_refl _
    · rw [List.concat_eq_append, ← List.append_assoc] at hrest
      obtain ⟨hinit, hlast⟩ := List.append_inj' hrest rfl
      have hordered : Ordered (snapshot ++ init ++ [c]) := by
        rw [hinit]
        exact h.pre hupto
      have hlt := hordered.token_lt hc
      omega

/-! ## What a ring entry proves -/

/-- The writer's timeline and the ones it left. -/
def FenceState.timelines (s : FenceState) : List (List Commit) := s.history :: s.abandoned

def FenceState.OnTimeline (s : FenceState) (cs : List Commit) : Prop :=
  ∃ l ∈ s.timelines, cs <+: l

/-- A token proves a history: the history is on the current timeline and ends
with the token's heartbeat, and no abandoned timeline that leaves it has the
token. -/
structure Proves (s : FenceState) (epoch token : Nat) (upto : List Commit) : Prop where
  current : upto <+: s.history
  ends : EndsIn upto ⟨token, epoch⟩
  outranks : ∀ l ∈ s.abandoned, upto <+: l ∨ ∀ b ∈ beats l, b.epoch = epoch → b.token < token

theorem Proves.contained {s : FenceState} {epoch token : Nat}
    {snapshot : List Commit} (h : Proves s epoch token upto)
    (hordered : ∀ l ∈ s.timelines, Ordered l)
    (hsnapshot : s.OnTimeline snapshot)
    (hepoch : (heartbeat snapshot).epoch = epoch)
    (htoken : token ≤ (heartbeat snapshot).token) : upto <+: snapshot := by
  obtain ⟨l, hl, hpre⟩ := hsnapshot
  have hon : upto <+: l → upto <+: snapshot := fun hupto =>
    (hordered l hl).contains hupto hpre h.ends htoken
  rcases List.mem_cons.1 hl with rfl | habandoned
  · exact hon h.current
  · rcases h.outranks l habandoned with hupto | hlow
    · exact hon hupto
    · -- The observed beat would be one of a timeline that has none this high.
      exfalso
      obtain ⟨rest, rfl⟩ := hpre
      rcases heartbeat_cases snapshot with hmem | hzero
      · have hlt := hlow _ (by rw [beats_append]; exact List.mem_append_left _ hmem) hepoch
        omega
      · obtain ⟨before, c, hupto, hc⟩ := h.ends
        have hpos : 0 < token := by
          have hordered' : Ordered upto := (hordered _ (List.mem_cons_self ..)).pre h.current
          refine hordered'.positive ⟨token, epoch⟩ ?_
          rw [hupto, beats_append]
          simp [beats, hc]
        rw [hzero] at htoken
        exact absurd (show token ≤ 0 from htoken) (by omega)

/-- Entries that another pod's or timeline's tokens cannot outrun. -/
def outranks (abandoned : List (List Commit)) (beat : Beat) (upto : List Commit) : Bool :=
  abandoned.all fun l =>
    upto.isPrefixOf l || (beats l).all fun b => b.epoch ≠ beat.epoch || b.token < beat.token

/-- The ring sees the token go back. -/
def ReplicaFence.detects (f : ReplicaFence) (beat : Beat) : Bool :=
  f.epoch = some beat.epoch && f.ring.getLast?.any (beat.token ≤ ·.token)

/-- A sample is recorded on the timeline it was committed on, and one that an
abandoned timeline outruns only by a ring that sees it go back. -/
def Recordable (s : FenceState) : FenceMove → Bool
  | .record i =>
      (s.pods[i]?).all fun p =>
        match p.probe with
        | .committed _ _ beat _ upto | .rotated _ _ beat _ upto =>
            p.fence.detects beat ||
              (upto.isPrefixOf s.history && outranks s.abandoned beat upto)
        | _ => true
  | _ => true

theorem proves_of_outranks {s : FenceState} {beat : Beat}
    (hends : EndsIn upto beat) (hcurrent : upto.isPrefixOf s.history)
    (houtranks : outranks s.abandoned beat upto) :
    Proves s beat.epoch beat.token upto where
  current := List.isPrefixOf_iff_prefix.1 hcurrent
  ends := hends
  outranks l hl := by
    have h := List.all_eq_true.1 houtranks l hl
    rcases Bool.or_eq_true_iff.1 h with hupto | hlow
    · exact .inl (List.isPrefixOf_iff_prefix.1 hupto)
    · refine .inr fun b hb hepoch => ?_
      have := List.all_eq_true.1 hlow b hb
      simpa [hepoch] using this

/-! ## Recording and resolving -/

namespace ReplicaFence

variable {f : ReplicaFence} {entry : TokenEntry}

theorem mem_push {e : TokenEntry} (h : e ∈ (f.push entry).ring) : e ∈ f.ring ∨ e = entry := by
  rcases List.mem_append.1 h with hmem | hmem
  · split at hmem
    · exact .inl (List.mem_of_mem_tail hmem)
    · exact .inl hmem
  · exact .inr (List.mem_singleton.1 hmem)

/-- What a ring holds after a record: entries it held under the same epoch, and
the new one unless the token was seen to go back. -/
theorem mem_record {epoch : Nat} {e : TokenEntry} (h : e ∈ (f.record epoch entry).1.ring) :
    (f.record epoch entry).1.epoch = some epoch ∧
      ((e ∈ f.ring ∧ f.epoch = some epoch) ∨
        (e = entry ∧ f.detects ⟨entry.token, epoch⟩ = false)) := by
  unfold record at h ⊢
  by_cases hepoch : f.epoch = some epoch
  · rw [if_neg (not_not.2 hepoch)] at h ⊢
    by_cases hback : f.ring.getLast?.any (entry.token ≤ ·.token)
    · rw [if_pos hback] at h
      cases h
    · rw [if_neg hback] at h ⊢
      refine ⟨hepoch, (mem_push h).imp (⟨·, hepoch⟩) (⟨·, ?_⟩)⟩
      simpa [detects, hepoch] using hback
  · rw [if_pos hepoch] at h ⊢
    refine ⟨rfl, .inr ⟨(mem_push h).resolve_left List.not_mem_nil, ?_⟩⟩
    simp [detects, hepoch]

theorem resolve_proved {observed : Beat} (h : f.resolve observed = .proved entry) :
    entry ∈ f.ring ∧ entry.token ≤ observed.token ∧
      ∀ epoch, f.epoch = some epoch → observed.epoch = epoch := by
  unfold resolve at h
  split at h
  · cases h
  · next hepoch =>
      split at h
      · next e hfind =>
          cases h
          refine ⟨List.mem_reverse.1 (List.mem_of_find?_eq_some hfind),
            by simpa using List.find?_some hfind, fun epoch heq => ?_⟩
          rw [heq] at hepoch
          simpa using Eq.symm (by simpa using hepoch)
      · cases h

end ReplicaFence

/-! ## The invariant -/

/-- What a pod has probed ends in its own heartbeat, and what its ring has
recorded since the last restore proves its history. -/
structure PodOk (s : FenceState) (p : RelayPod) : Prop where
  updated : ∀ (x wall : Int) (since : Nat) (beat : Beat) (at' : Nat),
    p.probe = .updated x wall since beat at' → beat = s.nextBeat
  sample : ∀ (wall : Int) (since : Nat) (beat : Beat) (at' : Nat) (upto : List Commit),
    p.probe = .committed wall since beat at' upto ∨
      p.probe = .rotated wall since beat at' upto → EndsIn upto beat
  ring : ∀ e ∈ p.fence.ring, e.recordedIn ≤ s.restores ∧
    (e.recordedIn = s.restores →
      ∃ epoch, p.fence.epoch = some epoch ∧ Proves s epoch e.token e.upto)

/-- Every replica and every snapshot is on a timeline, and every token a pod
holds proves its history. -/
structure TimelineInv (s : FenceState) : Prop where
  ordered : ∀ l ∈ s.timelines, Ordered l
  replicas : ∀ (k : Nat) (cs : List Commit), s.replicas[k]? = some cs → s.OnTimeline cs
  snapshots : ∀ (j : Nat) (r : RoutedRead) (cs : List Commit), s.reads[j]? = some r →
    r.phase = .observed cs → s.OnTimeline cs
  pods : ∀ (i : Nat) (p : RelayPod), s.pods[i]? = some p → PodOk s p
  alone : ∀ (i j : Nat) (p q : RelayPod), s.pods[i]? = some p → s.pods[j]? = some q →
    p.probe.holdsRow → q.probe.holdsRow → i = j
  served : ∀ (j : Nat) (r : RoutedRead) (cs : List Commit) (e : TokenEntry)
    (reason : RouteReason), s.reads[j]? = some r → r.phase = .replica cs e reason →
    e.recordedIn = r.routedIn → e.upto <+: cs

theorem Proves.grow {s s' : FenceState} {epoch token : Nat}
    (h : Proves s epoch token upto) (hhistory : s.history <+: s'.history)
    (habandoned : s'.abandoned = s.abandoned) : Proves s' epoch token upto where
  current := h.current.trans hhistory
  ends := h.ends
  outranks := habandoned ▸ h.outranks

theorem FenceState.OnTimeline.grow {s s' : FenceState} (h : s.OnTimeline cs)
    (hhistory : s.history <+: s'.history)
    (habandoned : s'.abandoned = s.abandoned) : s'.OnTimeline cs := by
  obtain ⟨l, hl, hpre⟩ := h
  rcases List.mem_cons.1 hl with rfl | hl
  · exact ⟨s'.history, List.mem_cons_self .., hpre.trans hhistory⟩
  · exact ⟨l, List.mem_cons_of_mem _ (habandoned ▸ hl), hpre⟩

variable {p : RelayPod}

/-- The writer commits something, which is no heartbeat while the pod holds the
row. -/
theorem PodOk.grow {s s' : FenceState} (h : PodOk s p)
    (hhistory : s.history <+: s'.history)
    (habandoned : s'.abandoned = s.abandoned)
    (hrow : p.probe.holdsRow → s'.nextBeat = s.nextBeat) : PodOk s' p where
  updated x wall since beat at' hphase := by
    rw [hrow (by rw [hphase]; rfl)]
    exact h.updated x wall since beat at' hphase
  sample := h.sample
  ring e he := by
    obtain ⟨hle, hproves⟩ := h.ring e he
    have hrestores : s'.restores = s.restores := by
      unfold FenceState.restores
      rw [habandoned]
    rw [hrestores]
    refine ⟨hle, fun heq => ?_⟩
    obtain ⟨epoch, hepoch, hp⟩ := hproves heq
    exact ⟨epoch, hepoch, hp.grow hhistory habandoned⟩

/-- A probe goes on, without the row and without a sample. -/
theorem PodOk.quiet {s : FenceState} {q : ProbePhase} (h : PodOk s p)
    (hrow : q.holdsRow = false)
    (hq : ∀ wall since beat at' upto, q ≠ .committed wall since beat at' upto ∧
      q ≠ .rotated wall since beat at' upto) :
    PodOk s { p with probe := q } where
  updated x wall since beat at' hphase := by
    have hphase : q = _ := hphase
    rw [hphase] at hrow
    cases hrow
  sample wall since beat at' upto hphase := by
    rcases hphase with hphase | hphase
    · exact absurd hphase (hq wall since beat at' upto).1
    · exact absurd hphase (hq wall since beat at' upto).2
  ring := h.ring

/-- A failed probe. -/
theorem PodOk.closed {s : FenceState} :
    PodOk s { p with probe := .idle, fence := p.fence.close } where
  updated x wall since beat at' hphase := by cases hphase
  sample wall since beat at' upto hphase := by rcases hphase with hphase | hphase <;> cases hphase
  ring e he := by cases he

/-- A sample is recorded. -/
theorem PodOk.recorded {s : FenceState} {q : ProbePhase} {wall : Int}
    {since : Nat} {beat : Beat} {at' : Nat} (h : PodOk s p)
    (hq : q = .idle ∨ q = .regressed wall since)
    (hrecordable : p.fence.detects beat = false → Proves s beat.epoch beat.token upto) :
    PodOk s { p with
      fence := (p.fence.record beat.epoch (s.entryOf wall since beat at' upto)).1
      probe := q } where
  updated x wall since beat at' hphase := by
    rcases hq with rfl | rfl <;> cases hphase
  sample wall since beat at' upto hphase := by
    rcases hq with rfl | rfl <;> rcases hphase with hphase | hphase <;> cases hphase
  ring e he := by
    obtain ⟨hepoch, hold | ⟨rfl, hdetects⟩⟩ := ReplicaFence.mem_record he
    · obtain ⟨hmem, hsame⟩ := hold
      obtain ⟨hle, hproves⟩ := h.ring e hmem
      refine ⟨hle, fun heq => ?_⟩
      obtain ⟨epoch, hepoch', hp⟩ := hproves heq
      rw [hsame] at hepoch'
      cases hepoch'
      exact ⟨beat.epoch, hepoch, hp⟩
    · exact ⟨Nat.le_refl _, fun _ => ⟨beat.epoch, hepoch, hrecordable hdetects⟩⟩

namespace TimelineInv

variable {s s' : FenceState} {p : RelayPod}

section

variable (h : TimelineInv s)
include h

/-- The timelines, the pods, the replicas and the reads are all it is about. -/
theorem congr (hhistory : s'.history = s.history)
    (habandoned : s'.abandoned = s.abandoned) (hpods : s'.pods = s.pods)
    (hreplicas : s'.replicas = s.replicas) (hreads : s'.reads = s.reads) :
    TimelineInv s' where
  ordered l hl := h.ordered l (by simpa [FenceState.timelines, hhistory, habandoned] using hl)
  replicas k cs hcs :=
    (h.replicas k cs (hreplicas ▸ hcs)).grow (hhistory ▸ List.prefix_refl _) habandoned
  snapshots j r cs hr hphase :=
    (h.snapshots j r cs (hreads ▸ hr) hphase).grow (hhistory ▸ List.prefix_refl _) habandoned
  pods i p hp :=
    (h.pods i p (hpods ▸ hp)).grow (hhistory ▸ List.prefix_refl _) habandoned
      (fun _ => by unfold FenceState.nextBeat; rw [hhistory])
  alone i j p q hp hq := h.alone i j p q (hpods ▸ hp) (hpods ▸ hq)
  served j r cs e reason hr := h.served j r cs e reason (hreads ▸ hr)

theorem setPod {i : Nat} {q : RelayPod} (hp : s.pods[i]? = some p)
    (hq : PodOk s q)
    (hrow : q.probe.holdsRow → p.probe.holdsRow ∨ s.rowHeld = false) :
    TimelineInv (s.setPod i q) where
  ordered := h.ordered
  replicas := h.replicas
  snapshots := h.snapshots
  pods j r hr := by
    have hok : PodOk s r := by
      rcases getElem?_set_cases hr with ⟨-, rfl, -⟩ | ⟨-, hr⟩
      · exact hq
      · exact h.pods j r hr
    exact hok.grow (List.prefix_refl _) rfl (fun _ => rfl)
  alone j k r r' hr hr' hheld hheld' := by
    -- A pod that takes the row finds nobody with it.
    have hfree : ∀ (n : Nat) (x : RelayPod), s.pods[n]? = some x → x.probe.holdsRow →
        s.rowHeld = false → False := by
      intro n x hx hholds hnone
      have hsome : s.rowHeld = true :=
        List.any_eq_true.2 ⟨x, List.mem_of_getElem? hx, hholds⟩
      rw [hnone] at hsome
      cases hsome
    rcases getElem?_set_cases hr with ⟨rfl, rfl, -⟩ | ⟨-, hold⟩
    · rcases getElem?_set_cases hr' with ⟨rfl, -, -⟩ | ⟨-, hold'⟩
      · rfl
      · rcases hrow hheld with hp' | hnone
        · exact h.alone j k p r' hp hold' hp' hheld'
        · exact absurd hnone (hfree k r' hold' hheld')
    · rcases getElem?_set_cases hr' with ⟨rfl, rfl, -⟩ | ⟨-, hold'⟩
      · rcases hrow hheld' with hp' | hnone
        · exact h.alone j k r p hold hp hheld hp'
        · exact absurd hnone (hfree j r hold hheld)
      · exact h.alone j k r r' hold hold' hheld hheld'
  served := h.served

/-- The writer commits. A heartbeat is the row's holder's, or nobody holds the
row. -/
theorem append {writes : List Write} {beat : Option Beat}
    (hbeat : ∀ b, beat = some b → b.token = (heartbeat s.history).token + 1)
    (hpods : ∀ (i : Nat) (p : RelayPod), s.pods[i]? = some p → beat ≠ none →
      p.probe.holdsRow = false) :
    TimelineInv (s.appendCommit writes beat) := by
  have hgrow : s.history <+: (s.appendCommit writes beat).history := List.prefix_append _ _
  refine ⟨fun l hl => ?_, fun k cs hcs => ?_, fun j r cs hr hphase => ?_, fun i p hp => ?_,
    h.alone, h.served⟩
  · rcases List.mem_cons.1 hl with rfl | hl
    · exact (h.ordered _ (List.mem_cons_self ..)).snoc hbeat
    · exact h.ordered l (List.mem_cons_of_mem _ hl)
  · exact (h.replicas k cs hcs).grow hgrow rfl
  · exact (h.snapshots j r cs hr hphase).grow hgrow rfl
  · refine (h.pods i p hp).grow hgrow rfl fun hholds => ?_
    cases hb : beat with
    | none =>
        unfold FenceState.nextBeat FenceState.appendCommit
        rw [heartbeat_snoc]
        rfl
    | some b =>
        rw [hpods i p hp (by rw [hb]; simp)] at hholds
        cases hholds

/-- The row's holder commits its heartbeat and goes on without the row. -/
theorem commitBeat {i : Nat} {q : RelayPod} {beat : Beat}
    (hp : s.pods[i]? = some p) (hholds : p.probe.holdsRow)
    (hbeat : beat = s.nextBeat) (hq : PodOk (s.appendCommit [] (some beat)) q)
    (hrow : q.probe.holdsRow = false) :
    TimelineInv ((s.appendCommit [] (some beat)).setPod i q) := by
  let idle : RelayPod := { p with probe := .idle }
  have hidle : TimelineInv (s.setPod i idle) := by
    refine h.setPod hp ?_ (fun hheld => by cases hheld)
    exact (h.pods i p hp).quiet rfl (fun _ _ _ _ _ => ⟨by simp, by simp⟩)
  have happend : TimelineInv ((s.setPod i idle).appendCommit [] (some beat)) := by
    refine hidle.append (fun b hb => ?_) (fun j r hr _ => ?_)
    · cases hb
      rw [hbeat]
      rfl
    · rcases getElem?_set_cases hr with ⟨-, rfl, -⟩ | ⟨hne, hr⟩
      · rfl
      · cases hheld : r.probe.holdsRow with
        | false => rfl
        | true => exact absurd (h.alone j i r p hr hp hheld hholds) hne
  have hset : ((s.setPod i idle).appendCommit [] (some beat)).setPod i q =
      (s.appendCommit [] (some beat)).setPod i q := by
    show FenceState.mk .. = FenceState.mk ..
    congr 1
    exact List.set_set ..
  rw [← hset]
  have hlt : i < s.pods.length := (List.getElem?_eq_some_iff.1 hp).1
  have hcur : ((s.setPod i idle).appendCommit [] (some beat)).pods[i]? = some idle :=
    List.getElem?_set_self hlt
  refine happend.setPod hcur ?_ (fun hheld => ?_)
  · exact hq.grow (List.prefix_refl _) rfl (fun _ => rfl)
  · rw [hrow] at hheld
    cases hheld

omit h in
theorem endsIn_append (s : FenceState) (beat : Beat) :
    EndsIn (s.appendCommit [] (some beat)).history beat :=
  ⟨s.history, _, rfl, rfl⟩

omit h in
theorem podOk_sampled {q : ProbePhase} {beat : Beat} (hok : PodOk s p)
    (hq : ∀ wall since b at' upto, q = .committed wall since b at' upto ∨
      q = .rotated wall since b at' upto → EndsIn upto b)
    (hrow : q.holdsRow = false)
    (hgrow : s'.history = (s.appendCommit [] (some beat)).history)
    (habandoned : s'.abandoned = s.abandoned) :
    PodOk s' { p with probe := q } := by
  have hidle : PodOk s { p with probe := .idle } :=
    hok.quiet rfl (fun _ _ _ _ _ => ⟨by simp, by simp⟩)
  have hgrown : PodOk s' { p with probe := .idle } := by
    refine hidle.grow ?_ habandoned (fun hheld => by cases hheld)
    rw [hgrow]
    exact List.prefix_append _ _
  refine ⟨fun x wall since b at' hphase => ?_, hq, hgrown.ring⟩
  have hphase : q = _ := hphase
  rw [hphase] at hrow
  cases hrow

/-- A read moves on to a phase that is sound. -/
theorem setRead {j : Nat} {r : RoutedRead}
    (hobserved : ∀ cs, r.phase = .observed cs → s.OnTimeline cs)
    (hserved : ∀ cs e reason, r.phase = .replica cs e reason → e.recordedIn = r.routedIn →
      e.upto <+: cs) : TimelineInv (s.setRead j r) where
  ordered := h.ordered
  replicas := h.replicas
  snapshots k r' cs hr' hphase := by
    rcases getElem?_set_cases hr' with ⟨-, rfl, -⟩ | ⟨-, hr'⟩
    · exact hobserved cs hphase
    · exact h.snapshots k r' cs hr' hphase
  pods i p hp := (h.pods i p hp).grow (List.prefix_refl _) rfl (fun _ => rfl)
  alone := h.alone
  served k r' cs e reason hr' hphase := by
    rcases getElem?_set_cases hr' with ⟨-, rfl, -⟩ | ⟨-, hr'⟩
    · exact hserved cs e reason hphase
    · exact h.served k r' cs e reason hr' hphase

theorem newRead {r : RoutedRead}
    (hphase : r.phase = .prechecked ∨ r.phase = .writer) :
    TimelineInv { s with reads := s.reads ++ [r] } where
  ordered := h.ordered
  replicas := h.replicas
  snapshots k r' cs hr' hphase' := by
    rcases getElem?_snoc_cases hr' with ⟨-, rfl⟩ | ⟨-, hr'⟩
    · rcases hphase with heq | heq <;> rw [heq] at hphase' <;> cases hphase'
    · exact h.snapshots k r' cs hr' hphase'
  pods i p hp := (h.pods i p hp).grow (List.prefix_refl _) rfl (fun _ => rfl)
  alone := h.alone
  served k r' cs e reason hr' hphase' := by
    rcases getElem?_snoc_cases hr' with ⟨-, rfl⟩ | ⟨-, hr'⟩
    · rcases hphase with heq | heq <;> rw [heq] at hphase' <;> cases hphase'
    · exact h.served k r' cs e reason hr' hphase'

theorem replay {k : Nat} {t : Option Nat} {applied commits : List Commit}
    {c : Commit} (ht : s.timeline t = some commits)
    (hc : commits[applied.length]? = some c)
    (hon : commits.take applied.length = applied) :
    TimelineInv { s with replicas := s.replicas.set k (applied ++ [c]) } where
  ordered := h.ordered
  replicas j cs hcs := by
    rcases getElem?_set_cases hcs with ⟨-, rfl, -⟩ | ⟨-, hcs⟩
    · have hmem : commits ∈ s.timelines := by
        cases t with
        | none => exact Option.some.inj ht ▸ List.mem_cons_self ..
        | some n => exact List.mem_cons_of_mem _ (List.mem_of_getElem? ht)
      refine ⟨commits, hmem, ?_⟩
      have htake : applied ++ [c] = commits.take (applied.length + 1) := by
        rw [List.take_add_one, hon, hc]
        rfl
      rw [htake]
      exact List.take_prefix _ _
    · exact h.replicas j cs hcs
  snapshots := h.snapshots
  pods i p hp := (h.pods i p hp).grow (List.prefix_refl _) rfl (fun _ => rfl)
  alone := h.alone
  served := h.served

/-- After a restore no entry counts as recorded since. -/
theorem restore (n : Nat) : TimelineInv (s.restore n) := by
  have hmem : s.history ∈ (s.restore n).timelines :=
    List.mem_cons_of_mem _ (List.mem_append_right _ (List.mem_singleton_self _))
  have hon : ∀ cs, s.OnTimeline cs → (s.restore n).OnTimeline cs := by
    rintro cs ⟨l, hl, hpre⟩
    rcases List.mem_cons.1 hl with rfl | hl
    · exact ⟨s.history, hmem, hpre⟩
    · exact ⟨l, List.mem_cons_of_mem _ (List.mem_append_left _ hl), hpre⟩
  have hrestores : (s.restore n).restores = s.restores + 1 := List.length_append
  refine ⟨fun l hl => ?_, fun k cs hcs => hon cs (h.replicas k cs hcs),
    fun j r cs hr hphase => hon cs (h.snapshots j r cs hr hphase), fun i p hp => ?_,
    fun i j p q hp hq hheld => ?_, h.served⟩
  · rcases List.mem_cons.1 hl with rfl | hl
    · exact (h.ordered _ (List.mem_cons_self ..)).pre (List.take_prefix _ _)
    · rcases List.mem_append.1 hl with hl | hl
      · exact h.ordered l (List.mem_cons_of_mem _ hl)
      · rw [List.mem_singleton.1 hl]
        exact h.ordered _ (List.mem_cons_self ..)
  · obtain ⟨q, hq, rfl⟩ := getElem?_map_cases hp
    have hok := h.pods i q hq
    have hring : ∀ e ∈ q.fence.ring, e.recordedIn ≤ (s.restore n).restores ∧
        (e.recordedIn = (s.restore n).restores →
          ∃ epoch, q.fence.epoch = some epoch ∧ Proves (s.restore n) epoch e.token e.upto) := by
      intro e he
      have hle := (hok.ring e he).1
      rw [hrestores]
      exact ⟨by omega, fun heq => by omega⟩
    split
    · exact ⟨fun _ _ _ _ _ hphase => (by cases hphase),
        fun _ _ _ _ _ hphase => (by rcases hphase with hphase | hphase <;> cases hphase),
        hring⟩
    · next hclosed =>
        refine ⟨fun _ _ _ _ _ hphase => ?_, hok.sample, hring⟩
        rw [hphase] at hclosed
        exact absurd rfl hclosed
  · obtain ⟨q', hq', rfl⟩ := getElem?_map_cases hp
    split at hheld
    · cases hheld
    · next hclosed =>
        cases hprobe : q'.probe <;> rw [hprobe] at hheld hclosed <;>
          first
            | exact absurd rfl hclosed
            | cases hheld

theorem step {m : FenceMove} (hm : Recordable s m) (hstep : FenceStep s m s') :
    TimelineInv s' := by
  cases hstep with
  | stay => exact h
  | tick | openTxn | write | prepare | check | finishTxn => exact h.congr rfl rfl rfl rfl rfl
  | @commit i t =>
      have happend : TimelineInv (s.appendCommit t.writes none) :=
        h.append (fun _ hb => by cases hb) (fun _ _ _ hb => absurd rfl hb)
      exact happend.congr rfl rfl rfl rfl rfl
  | begin hp hq =>
      rcases hq with ⟨x, rfl⟩ | ⟨x, rfl⟩
      · exact h.setPod hp ((h.pods _ _ hp).quiet rfl fun _ _ _ _ _ => ⟨by simp, by simp⟩)
          (fun hheld => by cases hheld)
      · exact h.setPod hp ((h.pods _ _ hp).quiet rfl fun _ _ _ _ _ => ⟨by simp, by simp⟩)
          (fun hheld => by cases hheld)
  | sample hp =>
      exact h.setPod hp ((h.pods _ _ hp).quiet rfl fun _ _ _ _ _ => ⟨by simp, by simp⟩)
        (fun hheld => by cases hheld)
  | scan hp =>
      exact h.setPod hp ((h.pods _ _ hp).quiet rfl fun _ _ _ _ _ => ⟨by simp, by simp⟩)
        (fun hheld => by cases hheld)
  | update hp _ hfree =>
      refine h.setPod hp ⟨fun _ _ _ _ _ hphase => ?_, fun _ _ _ _ _ hphase => ?_,
        (h.pods _ _ hp).ring⟩ (fun _ => .inr hfree)
      · cases hphase
        rfl
      · rcases hphase with hphase | hphase <;> cases hphase
  | commitProbe hp hphase =>
      refine h.commitBeat hp (by rw [hphase]; rfl)
        ((h.pods _ _ hp).updated _ _ _ _ _ hphase) ?_ rfl
      refine podOk_sampled (h.pods _ _ hp) (fun wall since b at' upto hq => ?_) rfl rfl rfl
      rcases hq with hq | hq
      · cases hq
        exact endsIn_append s _
      · cases hq
  | commitLost hp hphase =>
      exact h.commitBeat hp (by rw [hphase]; rfl)
        ((h.pods _ _ hp).updated _ _ _ _ _ hphase) .closed rfl
  | @record i at' p q wall since beat upto hp hphase hq =>
      have hok := h.pods i p hp
      refine h.setPod hp (hok.recorded hq fun hdetects => ?_) ?_
      · have hends := hok.sample wall since beat at' upto hphase
        have hcond : (upto.isPrefixOf s.history && outranks s.abandoned beat upto) = true := by
          rcases hphase with hphase | hphase <;>
            simpa [Recordable, hp, hphase, hdetects] using hm
        obtain ⟨hcurrent, houtranks⟩ := Bool.and_eq_true_iff.1 hcond
        exact proves_of_outranks hends hcurrent houtranks
      · rcases hq with rfl | rfl <;> intro hheld <;> cases hheld
  | @rotate i now p wall since hp hphase hfree =>
      have hnone : ∀ (j : Nat) (r : RelayPod), s.pods[j]? = some r →
          r.probe.holdsRow = false := by
        intro j r hr
        simpa using List.any_eq_false.1 hfree r (List.mem_of_getElem? hr)
      have happend : TimelineInv (s.appendCommit [] (some s.rotatedBeat)) := by
        refine h.append (fun b hb => ?_) (fun j r hr _ => hnone j r hr)
        cases hb
        rfl
      have happend : TimelineInv
          { s.appendCommit [] (some s.rotatedBeat) with epochs := s.epochs + 1 } :=
        happend.congr rfl rfl rfl rfl rfl
      refine happend.setPod hp ?_ (fun hheld => by cases hheld)
      refine podOk_sampled (h.pods i p hp) (fun wall since b at' upto hq => ?_) rfl rfl rfl
      rcases hq with hq | hq
      · cases hq
      · cases hq
        exact endsIn_append s _
  | failProbe hp => exact h.setPod hp .closed (fun hheld => by cases hheld)
  | replay _ ht hc hon => exact h.replay ht hc hon
  | route hphase => exact h.newRead hphase
  | observe _ _ hsnapshot =>
      refine h.setRead (fun cs hphase => ?_) (fun cs e reason hphase => by cases hphase)
      cases hphase
      exact h.replicas _ _ hsnapshot
  | @served j now r p snapshot entry reason hr hphase hp hproved _ =>
      refine h.setRead (fun cs hphase' => by cases hphase') (fun cs e reason hphase' hsame => ?_)
      cases hphase'
      obtain ⟨hmem, htoken, hepochs⟩ := ReplicaFence.resolve_proved hproved
      obtain ⟨epoch, hepoch, hproves⟩ := ((h.pods _ p hp).ring entry hmem).2 hsame
      exact hproves.contained h.ordered (h.snapshots j r snapshot hr hphase)
        (hepochs epoch hepoch) htoken
  | writer =>
      exact h.setRead (fun cs hphase => by cases hphase)
        (fun cs e reason hphase => by cases hphase)
  | restore n => exact h.restore n

end

end TimelineInv

theorem FenceDeployment.init_timelineInv (d : FenceDeployment) : TimelineInv d.init where
  ordered l hl := by
    rw [List.mem_singleton.1 hl]
    exact ⟨.nil, fun b hb => by cases hb⟩
  replicas k cs hcs := by
    refine ⟨[], List.mem_cons_self .., ?_⟩
    rw [List.eq_of_mem_replicate (List.mem_of_getElem? hcs)]
  snapshots j r cs hr := by cases hr
  pods i p hp := by
    obtain ⟨budget, -, rfl⟩ := List.mem_map.1 (List.mem_of_getElem? hp)
    exact ⟨fun _ _ _ _ _ hphase => (by cases hphase),
      fun _ _ _ _ _ hphase => (by rcases hphase with hphase | hphase <;> cases hphase),
      fun e he => by cases he⟩
  alone i j p q hp hq hheld := by
    obtain ⟨budget, -, rfl⟩ := List.mem_map.1 (List.mem_of_getElem? hp)
    cases hheld
  served j r cs e reason hr := by cases hr

/-! ## Restores -/

/-- A read routed on the strength of an entry recorded since the last restore
reads the entry's heartbeat and all that was committed before it. -/
def ReadPhase.Contains (routedIn : Nat) : ReadPhase → Prop
  | .replica snapshot entry _ => entry.recordedIn = routedIn → entry.upto <+: snapshot
  | _ => True

instance (routedIn : Nat) : (phase : ReadPhase) → Decidable (phase.Contains routedIn)
  | .replica snapshot entry _ =>
      inferInstanceAs (Decidable (entry.recordedIn = routedIn → entry.upto <+: snapshot))
  | .prechecked | .observed _ | .writer => isTrue trivial

theorem restored_timeline_proves (d : FenceDeployment) (ms : List FenceMove)
    (hms : d.machine.Meets (fun s m => Recordable s m) d.init ms) :
    ∀ r ∈ (d.machine.run ms).reads, r.phase.Contains r.routedIn := by
  have hinv : TimelineInv (d.machine.run ms) :=
    d.machine.inv_run (I := TimelineInv) d.init_timelineInv
      (fun s m h hm => h.step hm (s.step_spec m)) hms
  intro r hr
  obtain ⟨j, hj⟩ := List.getElem?_of_mem hr
  cases hphase : r.phase with
  | prechecked => trivial
  | observed cs => trivial
  | writer => trivial
  | replica cs e reason => exact hinv.served j r cs e reason hj hphase

/-- One pod, one replica, and a page of the past. -/
def onePod : FenceDeployment where
  clock := 0
  budgets := [none]
  replicas := 1

/-- One `probe_once` that succeeds. -/
def handshake : List FenceMove :=
  [.beginProbe 0, .lock 0, .sample 0, .scan 0 none, .update 0 0, .commitProbe 0, .record 0]

def pastWindow : ReadRequest := .window (.ofByte 1) 10 (some (-1000000000, [])) none

def readPastWindow : List FenceMove := [.route 0 pastWindow 0, .observe 0 0, .resolve 0 0]

/-- With no probe failing in between, the pod sees the token go back and rotates
the epoch: the session of the old timeline is turned away. -/
theorem restored_timeline_proves_detected :
    let ms := handshake ++ handshake ++ [.replay 0 none, .replay 0 none, .restore 0] ++
      handshake ++ [.rotate 0 0, .record 0] ++ readPastWindow
    (onePod.machine.run ms).restores = 1 ∧
      ∀ r ∈ (onePod.machine.run ms).reads, r.phase.Contains r.routedIn :=
  ⟨by decide +kernel, restored_timeline_proves onePod _ (by decide +kernel)⟩

/-- A probe that fails during the restore empties the ring, and the next one
records a token of the old epoch that the abandoned timeline is past. -/
theorem closed_ring_proves_abandoned :
    let ms := handshake ++ handshake ++
      [.replay 0 none, .replay 0 none, .restore 0, .beginProbe 0, .failProbe 0] ++ handshake ++
      readPastWindow
    ¬ ∀ r ∈ (onePod.machine.run ms).reads, r.phase.Contains r.routedIn := by
  decide +kernel

end Buzz.Db
