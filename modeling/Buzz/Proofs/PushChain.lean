import Buzz.Lib.Linked
import Buzz.Proofs.Manifest
import Buzz.Proofs.PushSteps

/-!
# One history

The pointer is only ever written over the manifest the push was derived from:
the precondition compares ETags, and these differ where the bodies do. So what
was installed is a chain of manifests, each with the one before it as its
parent. A digest has one parent, so the chain does not come back to a digest.

What a push may rely on while others act is said in `PhaseOk`, phase by phase.
The flag `strict` is for runs in which no answer to a write of the pointer is
lost: there, a push that ends in an error has written nothing.
-/

namespace Buzz.Git

open Buzz.Lib (HMap Linked)

variable {limits : PublishLimits} {etag : Nat → Digest → ETag} {strict : Prop}
  {began : Nat} {ph : Phase}

def Repo.digests (s : Repo) : List Digest := s.history.map Install.digest

/-- The parent a stored manifest names. -/
def Repo.parentOf (s : Repo) (d : Digest) : Option Digest :=
  (s.store.manifests.lookup d).bind Manifest.parent

/-! ## What a push relies on -/

/-- The push has not written the pointer. -/
def Silent (s : Repo) (i : Nat) : Prop := ∀ e ∈ s.history, e.pusher ≠ i

/-- The pointer had this body at some moment since it had been written `began` times. -/
def Since (s : Repo) (began : Nat) (d : Digest) : Prop :=
  ∃ e ∈ s.history.take (s.history.length - began), e.digest = d

/-- What was hydrated: nothing, or a stored manifest with the ETag the pointer
had then. -/
def ParentOk (etag : Nat → Digest → ETag) (s : Repo) (p : ParentState) : Prop :=
  p = .fresh ∨
    ∃ n d m, p = .fromLoaded (etag n d) d m ∧ s.store.manifests.lookup d = some m

def WorkOk (etag : Nat → Digest → ETag) (s : Repo) (i : Nat) (work : Work) : Prop :=
  Silent s i ∧ ParentOk etag s work.parentState

def ComposedOk (etag : Nat → Digest → ETag) (s : Repo) (i : Nat) (work : Work)
    (after : Manifest) : Prop :=
  WorkOk etag s i work ∧ after.parent = work.parentState.parentDigest

def PhaseOk (strict : Prop) (etag : Nat → Digest → ETag) (s : Repo) (i began : Nat) :
    Phase → Prop
  | .begun => Silent s i
  | .pointerRead tag digest => Silent s i ∧ ∃ n, tag = etag n digest
  | .manifestRead parentState => Silent s i ∧ ParentOk etag s parentState
  | .hydrated parentState _ => Silent s i ∧ ParentOk etag s parentState
  | .received parentState _ _ _ => Silent s i ∧ ParentOk etag s parentState
  | .compactable work => WorkOk etag s i work
  | .compacting work _ _ => WorkOk etag s i work
  | .capturing work _ => WorkOk etag s i work
  | .captured work _ => WorkOk etag s i work
  | .composed work after => ComposedOk etag s i work after
  | .stored work after =>
      ComposedOk etag s i work after ∧ after ∈ s.putManifests ∧
        ∃ m, s.store.manifests.lookup after.digest = some m
  | .lostRace _ => Silent s i
  | .winnerRead _ _ => Silent s i
  | .won _ after => Since s began after.digest
  | .answered _ (.success none) => Silent s i
  | .answered _ (.success (some digest)) => Since s began digest
  | .answered _ (.conflict _ _) => Silent s i
  | .answered _ (.error _) => strict → Silent s i
  | .answered _ (.unannounced digest _) => Since s began digest

/-- What others do to the store: they add objects, and may write the pointer. -/
structure Grows (s s' : Repo) (i : Nat) : Prop where
  manifests : ∀ d m, s.store.manifests.lookup d = some m → s'.store.manifests.lookup d = some m
  puts : s.putManifests ⊆ s'.putManifests
  history : ∃ new, s'.history = new ++ s.history ∧ ∀ e ∈ new, e.pusher ≠ i

namespace Grows

variable {s s' : Repo} {i : Nat}

theorem silent (h : Grows s s' i) (hs : Silent s i) : Silent s' i := by
  obtain ⟨new, hnew, hothers⟩ := h.history
  intro e he
  rw [hnew] at he
  rcases List.mem_append.1 he with he | he
  · exact hothers e he
  · exact hs e he

theorem since (h : Grows s s' i) {began : Nat} {d : Digest} (hs : Since s began d) :
    Since s' began d := by
  obtain ⟨new, hnew, -⟩ := h.history
  obtain ⟨e, he, hd⟩ := hs
  refine ⟨e, ?_, hd⟩
  rw [hnew, List.length_append]
  have hpos : began < s.history.length := by
    by_contra hle
    rw [Nat.sub_eq_zero_of_le (Nat.le_of_not_lt hle), List.take_zero] at he
    cases he
  rw [Nat.add_sub_assoc (Nat.le_of_lt hpos), List.take_length_add_append]
  exact List.mem_append_right _ he

theorem parentOk (h : Grows s s' i) {p : ParentState} (hp : ParentOk etag s p) :
    ParentOk etag s' p := by
  rcases hp with hfresh | ⟨n, d, m, hp, hm⟩
  · exact .inl hfresh
  · exact .inr ⟨n, d, m, hp, h.manifests d m hm⟩

theorem workOk (h : Grows s s' i) {work : Work} (hw : WorkOk etag s i work) :
    WorkOk etag s' i work :=
  ⟨h.silent hw.1, h.parentOk hw.2⟩

theorem phaseOk (h : Grows s s' i) {began : Nat} {ph : Phase}
    (hph : PhaseOk strict etag s i began ph) : PhaseOk strict etag s' i began ph := by
  cases ph with
  | begun => exact h.silent hph
  | pointerRead tag digest => exact ⟨h.silent hph.1, hph.2⟩
  | manifestRead parentState => exact ⟨h.silent hph.1, h.parentOk hph.2⟩
  | hydrated parentState bytes => exact ⟨h.silent hph.1, h.parentOk hph.2⟩
  | received parentState bytes stdout workspace => exact ⟨h.silent hph.1, h.parentOk hph.2⟩
  | compactable work => exact h.workOk hph
  | compacting work todo keys => exact h.workOk hph
  | capturing work failure => exact h.workOk hph
  | captured work pack => exact h.workOk hph
  | composed work after => exact ⟨h.workOk hph.1, hph.2⟩
  | stored work after =>
      obtain ⟨⟨hw, hparent⟩, hput, m, hm⟩ := hph
      exact ⟨⟨h.workOk hw, hparent⟩, h.puts hput, m, h.manifests _ m hm⟩
  | lostRace work => exact h.silent hph
  | winnerRead work digest => exact h.silent hph
  | won work after => exact h.since hph
  | answered stdout response =>
      cases response with
      | success published =>
          cases published with
          | none => exact h.silent hph
          | some digest => exact h.since hph
      | conflict m digest => exact h.silent hph
      | error e => exact fun hstrict => h.silent (hph hstrict)
      | unannounced digest status => exact h.since hph

end Grows

/-- The phases before the pointer is written. -/
theorem PhaseOk.silent {s : Repo} {i : Nat}
    (h : PhaseOk strict etag s i began ph) (hopen : ∀ w a, ph ≠ .won w a)
    (hpending : ∀ out r, ph ≠ .answered out r) : Silent s i := by
  cases ph with
  | begun => exact h
  | pointerRead tag digest => exact h.1
  | manifestRead parentState => exact h.1
  | hydrated parentState bytes => exact h.1
  | received parentState bytes stdout workspace => exact h.1
  | compactable work => exact h.1
  | compacting work todo keys => exact h.1
  | capturing work failure => exact h.1
  | captured work pack => exact h.1
  | composed work after => exact h.1.1
  | stored work after => exact h.1.1.1
  | lostRace work => exact h
  | winnerRead work digest => exact h
  | won work after => exact (hopen work after rfl).elim
  | answered stdout response => exact (hpending stdout response rfl).elim

theorem phaseOk_publishPhase {s : Repo} {i : Nat} {work : Work}
    {after : Manifest} (h : ComposedOk etag s i work after) :
    PhaseOk strict etag s i began (publishPhase work after) := by
  unfold publishPhase
  split
  · exact fun _ => h.1.1
  · exact h

theorem phaseOk_continueCompaction {s : Repo} {i : Nat} {work : Work}
    (h : WorkOk etag s i work) (todo : List (List UInt8)) (keys : List Digest) :
    PhaseOk strict etag s i began (continueCompaction work todo keys) := by
  unfold continueCompaction
  split
  · exact phaseOk_publishPhase ⟨h, rfl⟩
  · exact h

/-- Going on without the store keeps what the push relies on. -/
theorem Advance.phaseOk {s : Repo} {i : Nat} {m : Move} {ph' : Phase}
    (h : Advance limits s.store i m ph ph')
    (hetags : ∀ p, s.store.pointer = some p → ∃ n, p.etag = etag n p.body)
    (hph : PhaseOk strict etag s i began ph) :
    PhaseOk strict etag s i began ph' := by
  cases h with
  | refuse hopen hpending => exact fun _ => hph.silent hopen hpending
  | pointerAbsent _ => exact ⟨hph, .inl rfl⟩
  | pointer hpointer => exact ⟨hph, hetags _ hpointer⟩
  | manifest hm =>
      obtain ⟨hsilent, n, rfl⟩ := hph
      exact ⟨hsilent, .inr ⟨n, _, _, rfl, hm⟩⟩
  | materialized => exact hph
  | received => exact hph
  | rejected _ => exact hph.1
  | snapshot hparent _ _ _ hnext =>
      subst hparent
      rcases hnext with rfl | rfl
      · exact hph
      · exact hph
  | compacted _ => exact phaseOk_continueCompaction hph _ _
  | fallback hfrom =>
      rcases hfrom with rfl | ⟨todo, keys, rfl⟩
      · exact hph
      · exact hph
  | noPack _ => exact phaseOk_publishPhase ⟨hph, rfl⟩
  | captured => exact hph
  | lostRace => exact hph.1.1.1
  | winner => exact hph
  | conflict => exact hph
  | success => exact hph
  | unannounced => exact hph

theorem Packs.phaseOk {s : Repo} {i : Nat} {pack : List UInt8} {ph' : Phase}
    (h : Packs ph pack ph') (hph : PhaseOk strict etag s i began ph) :
    PhaseOk strict etag s i began ph' := by
  cases h with
  | compacted => exact phaseOk_continueCompaction hph _ _
  | fallback => exact hph
  | delta => exact phaseOk_publishPhase ⟨hph, rfl⟩
  | lost => exact fun _ => hph.1

/-- The answer to a write of the pointer that took effect is not lost. -/
def answerArrives (s : Repo) : Move → Bool
  | .putPointer i false =>
      match s.phaseAt i with
      | some (.stored work _) => !work.parentState.precond.holds s.store.pointer
      | _ => true
  | _ => true

/-! ## The chain -/

def PusherOk (strict : Prop) (etag : Nat → Digest → ETag) (s : Repo) (i : Nat) (p : Pusher) :
    Prop :=
  p.began ≤ s.history.length ∧ PhaseOk strict etag s i p.began p.phase

/-- The published manifests are a chain, the pointer is at its head, and every
push under way is in a sound phase. -/
structure Chained (strict : Prop) (etag : Nat → Digest → ETag) (s : Repo) : Prop where
  objects : ∀ d m, s.store.manifests.lookup d = some m →
    ∃ m₀ ∈ s.putManifests, m₀.digest = d ∧ m = m₀.canonical
  pointer : s.store.pointer.map Pointer.body = s.digests.head?
  etags : ∀ p, s.store.pointer = some p → ∃ n, p.etag = etag n p.body
  installed : ∀ d ∈ s.digests, ∃ m, s.store.manifests.lookup d = some m
  linked : Linked s.parentOf s.digests
  installers : ∀ e ∈ s.history, e.pusher < s.pushers.length
  pushers : AllPushers (PusherOk strict etag) s

namespace Chained

variable {s : Repo} {after : Manifest}

theorem grows_of_same {s' : Repo} (hmanifests : s'.store.manifests = s.store.manifests)
    (hhistory : s'.history = s.history) (hputs : s'.putManifests = s.putManifests) (j : Nat) :
    Grows s s' j := by
  refine ⟨fun d m hm => ?_, ?_, [], hhistory, nofun⟩
  · rw [hmanifests]
    exact hm
  · rw [hputs]
    exact List.Subset.refl _

/-- Only pushers, packs and puts changed. -/
theorem of_same {s' : Repo} (h : Chained strict etag s)
    (hpointer : s'.store.pointer = s.store.pointer)
    (hmanifests : s'.store.manifests = s.store.manifests)
    (hhistory : s'.history = s.history) (hputs : s'.putManifests = s.putManifests)
    (hlength : s.pushers.length ≤ s'.pushers.length)
    (hpushers : AllPushers (PusherOk strict etag) s') : Chained strict etag s' := by
  have hdigests : s'.digests = s.digests := by rw [Repo.digests, hhistory, Repo.digests]
  refine ⟨?_, ?_, ?_, ?_, ?_, ?_, hpushers⟩
  · rw [hmanifests, hputs]
    exact h.objects
  · rw [hpointer, hdigests]
    exact h.pointer
  · rw [hpointer]
    exact h.etags
  · rw [hmanifests, hdigests]
    exact h.installed
  · rw [hdigests]
    refine h.linked.congr fun d _ => ?_
    rw [Repo.parentOf, hmanifests, Repo.parentOf]
  · rw [hhistory]
    exact fun e he => Nat.lt_of_lt_of_le (h.installers e he) hlength

section

variable (h : Chained strict etag s)
include h

theorem begin (updates : List RefUpdate) :
    Chained strict etag
      { s with pushers := s.pushers ++ [{ updates := updates, began := s.history.length }] } := by
  refine h.of_same rfl rfl rfl rfl ?_ (h.pushers.begin updates ?_ ⟨Nat.le_refl _, ?_⟩ rfl)
  · rw [List.length_append]
    exact Nat.le_add_right _ _
  · exact fun j p hp => ⟨hp.1, (grows_of_same rfl rfl rfl j).phaseOk hp.2⟩
  · exact fun e he heq => Nat.lt_irrefl _ (heq ▸ h.installers e he)

omit h in
theorem length_goto (s : Repo) (i : Nat) (ph : Phase) :
    (s.goto i ph).pushers.length = s.pushers.length :=
  List.length_modify _ _ _

omit h in
/-- One push goes on while manifests and history stay. -/
theorem goto (s' : Repo) (h : Chained strict etag s)
    (hpointer : s'.store.pointer = s.store.pointer)
    (hmanifests : s'.store.manifests = s.store.manifests)
    (hhistory : s'.history = s.history) (hputs : s'.putManifests = s.putManifests)
    (hpushers : s'.pushers = s.pushers) {i : Nat} {ph ph' : Phase} (hph : s.phaseAt i = some ph)
    (hnext : ∀ began, PhaseOk strict etag s i began ph → PhaseOk strict etag s i began ph') :
    Chained strict etag (s'.goto i ph') := by
  have hgrows : ∀ j, Grows s (s'.goto i ph') j := grows_of_same hmanifests hhistory hputs
  have hlength : s.history.length = s'.history.length := by rw [hhistory]
  refine h.of_same hpointer hmanifests hhistory hputs ?_ (h.pushers.goto hph hpushers ?_ ?_)
  · rw [length_goto, hpushers]
  · exact fun j p _ hp => ⟨hp.1.trans hlength.le, (hgrows j).phaseOk hp.2⟩
  · intro q _ hphase hq
    subst hphase
    exact ⟨hq.1.trans hlength.le, (hgrows i).phaseOk (hnext q.began hq.2)⟩

theorem putManifest {i : Nat} {work : Work} (answered : Bool)
    (hph : s.phaseAt i = some (.composed work after)) :
    Chained strict etag ((s.putManifestObject after).goto i
      (if answered then .stored work after else .answered [] (.error .backend))) := by
  have hgrows : ∀ j, Grows s ((s.putManifestObject after).goto i
      (if answered then .stored work after else .answered [] (.error .backend))) j := by
    intro j
    refine ⟨fun d m hm => putImmutable_keeps hm, ?_, [], rfl, nofun⟩
    exact List.subset_cons_self after s.putManifests
  refine ⟨?_, h.pointer, h.etags, ?_, ?_, ?_, h.pushers.goto hph rfl ?_ ?_⟩
  · intro d m hm
    rcases putImmutable_cases hm with hold | ⟨rfl, rfl⟩
    · obtain ⟨m₀, hm₀, heq⟩ := h.objects d m hold
      exact ⟨m₀, List.mem_cons_of_mem after hm₀, heq⟩
    · exact ⟨after, List.mem_cons_self, rfl, rfl⟩
  · intro d hd
    obtain ⟨m, hm⟩ := h.installed d hd
    exact ⟨m, putImmutable_keeps hm⟩
  · refine h.linked.congr fun d hd => ?_
    obtain ⟨m, hm⟩ := h.installed d hd
    rw [Repo.parentOf, Repo.parentOf, hm]
    show (putImmutable s.store.manifests after.digest after.canonical).lookup d >>= _ = _
    rw [putImmutable_keeps hm]
    rfl
  · rw [length_goto]
    exact h.installers
  · exact fun j p _ hp => ⟨hp.1, (hgrows j).phaseOk hp.2⟩
  · intro q _ hphase hq
    obtain ⟨hbegan, hok⟩ := hq
    rw [hphase] at hok
    refine ⟨hbegan, ?_⟩
    cases answered with
    | false => exact fun _ => (hgrows i).silent hok.1.1
    | true =>
        refine ⟨⟨(hgrows i).workOk hok.1, hok.2⟩, List.mem_cons_self, ?_⟩
        exact putImmutable_present s.store.manifests after.digest after.canonical

/-- The manifest under a digest is the one that was to be installed. -/
theorem lookup_stored
    (hfree : CollisionFree (s.putManifests.map Manifest.canonicalBytes))
    {m : Manifest} (hput : after ∈ s.putManifests)
    (hm : s.store.manifests.lookup after.digest = some m) :
    m = after.canonical := by
  obtain ⟨m₀, hm₀, hdigest, rfl⟩ := h.objects _ _ hm
  exact hfree.canonical_eq hm₀ hput hdigest

/-- The precondition holds only over the manifest the push was derived from. -/
theorem head_of_precond (hdiffer : ∀ n n' d d', etag n d = etag n' d' → d = d')
    {p : ParentState} (hp : ParentOk etag s p)
    (hholds : p.precond.holds s.store.pointer = true) :
    p.parentDigest = s.digests.head? := by
  rw [← h.pointer]
  rcases hp with rfl | ⟨n, d, m, rfl, -⟩
  · cases hpointer : s.store.pointer with
    | none => rfl
    | some current =>
        rw [hpointer] at hholds
        cases hholds
  · cases hpointer : s.store.pointer with
    | none =>
        rw [hpointer] at hholds
        cases hholds
    | some current =>
        rw [hpointer] at hholds
        obtain ⟨n', hn'⟩ := h.etags current hpointer
        have heq : etag n d = current.etag := of_decide_eq_true hholds
        rw [hn'] at heq
        exact congrArg some (hdiffer n n' d current.body heq)

theorem putPointer (hdiffer : ∀ n n' d d', etag n d = etag n' d' → d = d')
    (hfree : CollisionFree (s.putManifests.map Manifest.canonicalBytes))
    {i : Nat} {work : Work} {answered : Bool} (hlost : strict → answered = true)
    (hph : s.phaseAt i = some (.stored work after))
    (hholds : work.parentState.precond.holds s.store.pointer = true) :
    Chained strict etag ((s.install etag i after.digest).goto i
      (if answered then .won work after else .answered [] (.error .backend))) := by
  obtain ⟨q, hq, hphase⟩ := Option.map_eq_some_iff.1 hph
  have hok := (h.pushers i q hq).2
  rw [hphase] at hok
  obtain ⟨⟨⟨-, hparentOk⟩, hafter⟩, hput, m, hm⟩ := hok
  have hhead := h.head_of_precond hdiffer hparentOk hholds
  have hstored := h.lookup_stored hfree hput hm
  have hothers : ∀ j, j ≠ i → Grows s ((s.install etag i after.digest).goto i
      (if answered then .won work after else .answered [] (.error .backend))) j := by
    intro j hj
    refine ⟨fun d m hm => hm, List.Subset.refl _, [⟨after.digest, i⟩], rfl, ?_⟩
    intro e he
    rw [List.mem_singleton.1 he]
    exact hj.symm
  refine ⟨h.objects, rfl, ?_, ?_, ⟨?_, h.linked⟩, ?_, h.pushers.goto hph rfl ?_ ?_⟩
  · intro p hp
    cases hp
    exact ⟨_, rfl⟩
  · intro d hd
    rcases List.mem_cons.1 hd with rfl | hd
    · exact ⟨m, hm⟩
    · exact h.installed d hd
  · show s.parentOf after.digest = s.digests.head?
    rw [Repo.parentOf, hm, ← hhead, ← hafter, hstored]
    rfl
  · rw [length_goto]
    intro e he
    rcases List.mem_cons.1 he with rfl | he
    · exact (List.getElem?_eq_some_iff.1 hq).1
    · exact h.installers e he
  · exact fun j p hj hp => ⟨hp.1.trans (Nat.le_succ _), (hothers j hj).phaseOk hp.2⟩
  · intro q' hq' _ hok'
    refine ⟨hok'.1.trans (Nat.le_succ _), ?_⟩
    cases answered with
    | false => exact fun hstrict => nomatch hlost hstrict
    | true =>
        refine ⟨⟨after.digest, i⟩, ?_, rfl⟩
        show _ ∈ List.take (s.history.length + 1 - q'.began) (_ :: s.history)
        rw [Nat.succ_sub hok'.1, List.take_succ_cons]
        exact List.mem_cons_self

theorem step (hdiffer : ∀ n n' d d', etag n d = etag n' d' → d = d')
    (hfree : CollisionFree (s.putManifests.map Manifest.canonicalBytes))
    {m : Move} {s' : Repo} (hlost : strict → answerArrives s m = true)
    (hstep : Step limits etag s m s') :
    Chained strict etag s' := by
  cases hstep with
  | stay => exact h
  | begin => exact h.begin _
  | advance hph hadvance =>
      exact h.goto s rfl rfl rfl rfl rfl hph fun began hok => hadvance.phaseOk h.etags hok
  | pack hph hpacks =>
      exact h.goto (s.putPackObject _) rfl rfl rfl rfl rfl hph fun began hok => hpacks.phaseOk hok
  | manifest hph => exact h.putManifest _ hph
  | @pointer i answered work after hph hholds =>
      refine h.putPointer hdiffer hfree (fun hstrict => ?_) hph hholds
      have harrives := hlost hstrict
      unfold answerArrives at harrives
      cases hanswered : answered with
      | true => rfl
      | false =>
          rw [hanswered] at harrives
          dsimp only at harrives
          rw [hph] at harrives
          dsimp only at harrives
          rw [hholds] at harrives
          cases harrives

end

theorem init : Chained strict etag {} :=
  ⟨nofun, rfl, nofun, nofun, trivial, nofun, .empty⟩

end Chained

/-! ## Runs -/

theorem putManifests_step {s s' : Repo} {m : Move} (h : Step limits etag s m s') :
    s.putManifests ⊆ s'.putManifests := by
  cases h with
  | manifest hph => exact List.subset_cons_self _ _
  | _ => exact List.Subset.refl _

/-- What is said of a run is said of the objects it put. -/
theorem collisionFree_of_step {s s' : Repo} {m : Move} (h : Step limits etag s m s')
    (hfree : CollisionFree (s'.putManifests.map Manifest.canonicalBytes)) :
    CollisionFree (s.putManifests.map Manifest.canonicalBytes) :=
  hfree.subset (List.map_subset _ (putManifests_step h))

theorem chained_run (limits : PublishLimits)
    (hdiffer : ∀ n n' d d', etag n d = etag n' d' → d = d') {ms : List Move}
    (hlost : (gitRepo limits etag).Meets (fun s m => strict → answerArrives s m = true)
      (gitRepo limits etag).init ms)
    (hfree : CollisionFree
      (((gitRepo limits etag).run ms).putManifests.map Manifest.canonicalBytes)) :
    Chained strict etag ((gitRepo limits etag).run ms) := by
  refine (gitRepo limits etag).inv_run
    (I := fun s => CollisionFree (s.putManifests.map Manifest.canonicalBytes) →
      Chained strict etag s) (fun _ => Chained.init) ?_ hlost hfree
  intro s m hs hm hfree'
  have hstep := step_spec limits etag s m
  have hbefore := collisionFree_of_step hstep hfree'
  exact (hs hbefore).step hdiffer hbefore hm hstep

/-- What concurrent pushes leave behind. -/
structure ForkFree (s : Repo) : Prop where
  /-- The parent of an installed manifest is what the pointer held before it; the
  first has none. -/
  chain : ∀ (k : Nat) (e : Install), s.history[k]? = some e →
    ∃ m : Manifest, m.digest = e.digest ∧ s.store.manifests.lookup e.digest = some m.canonical ∧
      m.parent = (s.history[k + 1]?).map Install.digest
  current : s.store.pointer.map Pointer.body = s.history.head?.map Install.digest
  noReturn : (s.history.map Install.digest).Nodup
  /-- What was reported as published was the pointer since the push began. -/
  published : ∀ (i : Nat) (p : Pusher) (stdout : List UInt8) (digest : Digest),
    s.pushers[i]? = some p → p.phase = .answered stdout (.success (some digest)) →
      ∃ e ∈ s.history.take (s.history.length - p.began), e.digest = digest
  conflict : ∀ (i : Nat) (p : Pusher) (stdout : List UInt8) (m : Manifest) (digest : Digest),
    s.pushers[i]? = some p → p.phase = .answered stdout (.conflict m digest) →
      ∀ e ∈ s.history, e.pusher ≠ i

/-- Pushes publish one history without a fork, however their steps are
interleaved and whatever fails in between. -/
theorem pushes_publish_one_history (limits : PublishLimits) (etag : Nat → Digest → ETag)
    (hdiffer : ∀ n n' d d', etag n d = etag n' d' → d = d') (ms : List Move)
    (hfree : CollisionFree
      (((gitRepo limits etag).run ms).putManifests.map Manifest.canonicalBytes)) :
    ForkFree ((gitRepo limits etag).run ms) := by
  have hmeets : (gitRepo limits etag).Meets
      (fun s m => False → answerArrives s m = true) (gitRepo limits etag).init ms :=
    (gitRepo limits etag).meets_of_forall fun _ _ hfalse => hfalse.elim
  have h := chained_run limits hdiffer hmeets hfree
  refine ⟨?_, ?_, h.linked.nodup, ?_, ?_⟩
  · intro k e he
    have hk : ((gitRepo limits etag).run ms).digests[k]? = some e.digest := by
      rw [Repo.digests, List.getElem?_map, he]
      rfl
    obtain ⟨m, hm⟩ := h.installed e.digest (List.mem_of_getElem? hk)
    obtain ⟨m₀, -, hdigest, rfl⟩ := h.objects e.digest m hm
    refine ⟨m₀, hdigest, hm, ?_⟩
    have hparent := h.linked.getElem? hk
    rw [Repo.parentOf, hm, Repo.digests, List.getElem?_map] at hparent
    exact hparent
  · rw [h.pointer, Repo.digests, List.head?_map]
  · intro i p stdout digest hp hphase
    have hok := (h.pushers i p hp).2
    rw [hphase] at hok
    exact hok
  · intro i p stdout m digest hp hphase
    have hok := (h.pushers i p hp).2
    rw [hphase] at hok
    exact hok

/-! ## Two pushes at once -/

/-- A push up to the write of the pointer. -/
def pushMain (i : Nat) (oid : Oid) (pack : List UInt8) : List Move :=
  [.getPointer i, .getManifest i, .materialize i, .receivePack i true [] (mainWorkspace oid),
    .snapshotWorkspaceState i, .capturePack i pack, .putPack i true, .putManifest i true]

/-- Two pushes start from the empty repository and one of them wins. -/
def race : List Move :=
  [.begin [⟨mainRef, some (List.replicate 40 'a')⟩],
    .begin [⟨mainRef, some (List.replicate 40 'b')⟩]] ++
    pushMain 0 (List.replicate 40 'a') [1] ++ pushMain 1 (List.replicate 40 'b') [2] ++
    [.putPointer 0 true, .putPointer 1 true, .finish 0 none, .getWinner 1, .getWinnerManifest 1]

theorem pushes_publish_one_history_race : ForkFree ((gitRepo wideLimits bodyTag).run race) := by
  refine pushes_publish_one_history wideLimits bodyTag ?_ race ?_
  · intro n n' d d' h
    exact Bytes32.ext (hexEncode_injective h)
  · unfold CollisionFree
    decide +kernel

end Buzz.Git
