import Buzz.Proofs.PushStore
import Mathlib.Logic.Relation

/-!
# The packs of a manifest cover its refs

A delta pack leaves out what is reachable from the refs of the parent, so it is
only of use next to the packs of the parent; compacted packs leave out nothing,
and replace them. Either way everything reachable from the new refs is in the
packs the new manifest lists, if it was in those of the parent.

What git does is an assumption here: which objects refer to which, what is in a
pack, and that `pack-objects` writes what it is asked for.
-/

namespace Buzz.Git

open Buzz.Lib (HMap)

/-- The objects of a repository and the packs they are in. -/
structure GitObjects where
  links : Oid → List Oid
  objectsIn : List UInt8 → List Oid
  /-- An empty file is no pack. -/
  objectsIn_nil : objectsIn [] = []

namespace GitObjects

variable (git : GitObjects)

def Reaches : Oid → Oid → Prop := Relation.ReflTransGen fun a b => b ∈ git.links a

/-- Reachable from one of these tips. -/
def FromTips (tips : List Oid) (o : Oid) : Prop := ∃ tip ∈ tips, git.Reaches tip o

/-- The packs under these keys hold an object. -/
def InPacks (packs : HMap Digest (List UInt8)) (keys : List Digest) (o : Oid) : Prop :=
  ∃ key ∈ keys, ∃ pack, packs.lookup key = some pack ∧ o ∈ git.objectsIn pack

/-- Everything reachable from the refs is in the packs. -/
def Covers (packs : HMap Digest (List UInt8)) (m : Manifest) : Prop :=
  ∀ o, git.FromTips m.refs.values o → git.InPacks packs m.packs o

/-- `pack-objects` writes what is reachable from the new refs and, for a delta
pack, not from those of the parent. -/
def PacksExactly (s : Repo) : Move → Prop
  | .capturePack i output =>
      ∀ work failure, s.phaseAt i = some (.capturing work failure) →
        work.refsAfter.entries ≠ [] → ∀ o, o ∈ git.objectsIn output ↔
          git.FromTips work.refsAfter.values o ∧
            ¬ git.FromTips work.parentState.parent.refs.values o
  | .prepareCompaction i (.ok packs) =>
      ∀ work, s.phaseAt i = some (.compactable work) → work.refsAfter.entries ≠ [] →
        ∀ o, (∃ pack ∈ packs, o ∈ git.objectsIn pack) ↔ git.FromTips work.refsAfter.values o
  | _ => True

end GitObjects

variable {git : GitObjects} {limits : PublishLimits} {etag : Nat → Digest → ETag}
  {refs : RefMap}

theorem GitObjects.InPacks.mono {packs packs' : HMap Digest (List UInt8)} {keys keys' : List Digest}
    {o : Oid} (h : git.InPacks packs keys o)
    (hpacks : ∀ key pack, packs.lookup key = some pack → packs'.lookup key = some pack)
    (hkeys : keys ⊆ keys') : git.InPacks packs' keys' o := by
  obtain ⟨key, hkey, pack, hpack, ho⟩ := h
  exact ⟨key, hkeys hkey, pack, hpacks key pack hpack, ho⟩

theorem not_fromTips_nil {tips : List Oid} (h : tips = []) (o : Oid) : ¬ git.FromTips tips o := by
  rintro ⟨tip, htip, -⟩
  rw [h] at htip
  cases htip

/-! ## The four ways to a pack set -/

section Compose

variable {packs : HMap Digest (List UInt8)} {work : Work}

/-- No new pack: nothing is reachable that was not. -/
theorem covers_noPack (hparent : git.Covers packs work.parentState.parent)
    (hold : ∀ o, git.FromTips work.refsAfter.values o →
      git.FromTips work.parentState.parent.refs.values o) :
    git.Covers packs (work.composeAfter none) := by
  intro o ho
  refine (hparent o (hold o ho)).mono (fun _ _ h => h) fun key hkey => ?_
  exact mem_composeAfter.2 (.inl hkey)

/-- A delta pack next to the packs of the parent. -/
theorem covers_delta {pack : List UInt8} (hparent : git.Covers packs work.parentState.parent)
    (hpack : packs.lookup (contentKey pack) = some pack)
    (hnew : ∀ o, git.FromTips work.refsAfter.values o →
      o ∈ git.objectsIn pack ∨ git.FromTips work.parentState.parent.refs.values o) :
    git.Covers packs (work.composeAfter (some (contentKey pack))) := by
  intro o ho
  rcases hnew o ho with hin | hold
  · exact ⟨contentKey pack, mem_composeAfter.2 (.inr rfl), pack, hpack, hin⟩
  · refine (hparent o hold).mono (fun _ _ h => h) fun key hkey => ?_
    exact mem_composeAfter.2 (.inl hkey)

/-- Compacted packs alone. -/
theorem covers_compacted {keys : List Digest}
    (h : ∀ o, git.FromTips work.refsAfter.values o → git.InPacks packs keys o) :
    git.Covers packs
      (composeCompactedAfter work.parentState.parentDigest work.head work.refsAfter keys) := by
  intro o ho
  exact (h o ho).mono (fun _ _ h => h) fun key hkey => mem_sortPacks.2 hkey

theorem covers_canonical {m : Manifest} (h : git.Covers packs m) :
    git.Covers packs m.canonical := by
  intro o ho
  exact (h o ho).mono (fun _ _ h => h) fun key hkey => mem_sortPacks.2 hkey

end Compose

/-! ## Phase by phase -/

/-- What a push has of the packs of its parent and of those it is making. -/
def ClosedPhase (git : GitObjects) (s : Repo) : Phase → Prop
  | .manifestRead parentState => git.Covers s.store.packs parentState.parent
  | .hydrated parentState _ => git.Covers s.store.packs parentState.parent
  | .received parentState _ _ _ => git.Covers s.store.packs parentState.parent
  | .compactable work => git.Covers s.store.packs work.parentState.parent
  | .compacting work todo keys =>
      git.Covers s.store.packs work.parentState.parent ∧
        ∀ o, git.FromTips work.refsAfter.values o →
          (∃ pack ∈ todo, o ∈ git.objectsIn pack) ∨ git.InPacks s.store.packs keys o
  | .capturing work _ => git.Covers s.store.packs work.parentState.parent
  | .captured work pack =>
      git.Covers s.store.packs work.parentState.parent ∧
        ∀ o, git.FromTips work.refsAfter.values o →
          o ∈ git.objectsIn pack ∨ git.FromTips work.parentState.parent.refs.values o
  | .composed _ after => git.Covers s.store.packs after
  | _ => True

namespace Keeps

variable {s s' : Repo}

theorem covers (h : Keeps s s') {m : Manifest} (hm : git.Covers s.store.packs m) :
    git.Covers s'.store.packs m :=
  fun o ho => (hm o ho).mono h.packs (List.Subset.refl _)

theorem closedPhase (h : Keeps s s') {ph : Phase} (hph : ClosedPhase git s ph) :
    ClosedPhase git s' ph := by
  cases ph with
  | manifestRead parentState => exact h.covers hph
  | hydrated parentState bytes => exact h.covers hph
  | received parentState bytes stdout workspace => exact h.covers hph
  | compactable work => exact h.covers hph
  | compacting work todo keys =>
      refine ⟨h.covers hph.1, fun o ho => ?_⟩
      rcases hph.2 o ho with htodo | hkeys
      · exact .inl htodo
      · exact .inr (hkeys.mono h.packs (List.Subset.refl _))
  | capturing work failure => exact h.covers hph
  | captured work pack => exact ⟨h.covers hph.1, hph.2⟩
  | composed work after => exact h.covers hph
  | _ => exact trivial

end Keeps

theorem closedPhase_publishPhase {s : Repo} {work : Work} {after : Manifest}
    (h : git.Covers s.store.packs after) : ClosedPhase git s (publishPhase work after) := by
  unfold publishPhase
  split
  · exact trivial
  · exact h

theorem closedPhase_continueCompaction {s : Repo} {work : Work} {todo : List (List UInt8)}
    {keys : List Digest} (hparent : git.Covers s.store.packs work.parentState.parent)
    (h : ∀ o, git.FromTips work.refsAfter.values o →
      (∃ pack ∈ todo, o ∈ git.objectsIn pack) ∨ git.InPacks s.store.packs keys o) :
    ClosedPhase git s (continueCompaction work todo keys) := by
  unfold continueCompaction
  split
  · refine closedPhase_publishPhase (covers_compacted fun o ho => ?_)
    exact (h o ho).resolve_left nofun
  · exact ⟨hparent, h⟩

/-- Without refs nothing is reachable. -/
theorem not_fromTips_of_isEmpty (h : refs.entries = []) (o : Oid) :
    ¬ git.FromTips refs.values o :=
  not_fromTips_nil (congrArg (List.map Prod.snd) h) o

theorem captureCompactedPacks_ok {result : Except PushError (List (List UInt8))}
    {packs : List (List UInt8)}
    (h : captureCompactedPacks limits refs result = .ok packs)
    (hne : refs.entries ≠ []) : result = .ok packs := by
  unfold captureCompactedPacks at h
  rw [if_neg fun hempty => hne (List.isEmpty_iff.1 hempty)] at h
  split at h
  · cases h
  · split at h
    · cases h
    · split at h
      · cases h
      · split at h
        · cases h
        · cases h
          rfl

theorem captureOutput_none {output : List UInt8}
    (h : captureOutput limits refs output = .ok none) (hne : refs.entries ≠ []) :
    output = [] := by
  unfold captureOutput at h
  rw [if_neg fun hempty => hne (List.isEmpty_iff.1 hempty)] at h
  split at h
  · cases h
  · split at h
    · next hempty => exact List.isEmpty_iff.1 hempty
    · cases h

theorem Advance.closedPhase {s : Repo} {i : Nat} {m : Move} {ph ph' : Phase}
    (h : Advance limits s.store i m ph ph') (hat : s.phaseAt i = some ph)
    (hgit : git.PacksExactly s m)
    (hmanifests : ∀ d m, s.store.manifests.lookup d = some m → git.Covers s.store.packs m)
    (hph : ClosedPhase git s ph) : ClosedPhase git s ph' := by
  cases h with
  | refuse _ _ => exact trivial
  | pointerAbsent _ => exact fun o ho => (not_fromTips_of_isEmpty rfl o ho).elim
  | pointer _ => exact trivial
  | manifest hm => exact hmanifests _ _ hm
  | materialized => exact hph
  | received => exact hph
  | rejected _ => exact trivial
  | snapshot hparent _ _ _ hnext =>
      subst hparent
      rcases hnext with rfl | rfl
      · exact hph
      · exact hph
  | @compacted work packs result hpacks =>
      refine closedPhase_continueCompaction hph fun o ho => .inl ?_
      have hne : work.refsAfter.entries ≠ [] := fun hempty => not_fromTips_of_isEmpty hempty o ho
      rw [captureCompactedPacks_ok hpacks hne] at hgit
      exact (hgit work hat hne o).2 ho
  | fallback hfrom =>
      rcases hfrom with rfl | ⟨todo, keys, rfl⟩
      · exact hph
      · exact hph.1
  | @noPack work failure output hnone =>
      refine closedPhase_publishPhase (covers_noPack hph fun o ho => ?_)
      have hne : work.refsAfter.entries ≠ [] := fun hempty => not_fromTips_of_isEmpty hempty o ho
      -- nothing was written, so nothing is new
      by_contra hnew
      have hin := (hgit work failure hat hne o).2 ⟨ho, hnew⟩
      rw [captureOutput_none hnone hne, git.objectsIn_nil] at hin
      cases hin
  | @captured work failure output =>
      refine ⟨hph, fun o ho => ?_⟩
      have hne : work.refsAfter.entries ≠ [] := fun hempty => not_fromTips_of_isEmpty hempty o ho
      by_cases hold : git.FromTips work.parentState.parent.refs.values o
      · exact .inr hold
      · exact .inl ((hgit work failure hat hne o).2 ⟨ho, hold⟩)
  | lostRace => exact trivial
  | winner => exact trivial
  | conflict => exact trivial
  | success => exact trivial
  | unannounced => exact trivial

/-- A pack that is in the store makes its objects found. -/
theorem Packs.closedPhase {s : Repo} {pack : List UInt8} {ph ph' : Phase} (h : Packs ph pack ph')
    (hpack : s.store.packs.lookup (contentKey pack) = some pack) (hph : ClosedPhase git s ph) :
    ClosedPhase git s ph' := by
  cases h with
  | @compacted work pack todo keys =>
      refine closedPhase_continueCompaction hph.1 fun o ho => ?_
      rcases hph.2 o ho with ⟨b, hb, hin⟩ | hkeys
      · rcases List.mem_cons.1 hb with rfl | hb
        · exact .inr ⟨contentKey b, List.mem_append_right _ List.mem_cons_self, b, hpack, hin⟩
        · exact .inl ⟨b, hb, hin⟩
      · exact .inr (hkeys.mono (fun _ _ h => h) (List.subset_append_left _ _))
  | fallback => exact hph.1
  | delta => exact closedPhase_publishPhase (covers_delta hph.1 hpack hph.2)
  | lost => exact trivial

/-! ## Runs -/

/-- The packs of every manifest in the store hold what its refs reach. -/
def closedFact (git : GitObjects) : StoreFact where
  manifest s := git.Covers s.store.packs
  phase := ClosedPhase git
  manifest_kept h hm := h.covers hm
  phase_kept h hph := h.closedPhase hph
  composed := covers_canonical
  begun _ := trivial
  stored _ _ _ := trivial
  won _ _ _ := trivial
  answered _ _ _ := trivial

theorem closed_step {s s' : Repo} {m : Move} (h : Kept (closedFact git) s)
    (hgit : git.PacksExactly s m) (hstep : Step limits etag s m s')
    (hfree : CollisionFree s'.putPacks) : Kept (closedFact git) s' := by
  refine h.step hstep (fun hph hadvance => ?_) fun hs' hpacks => ?_
  · exact hadvance.closedPhase hph hgit h.manifests
  · subst hs'
    exact hpacks.closedPhase (h.lookup_putPack hfree)

/-- Every manifest that was ever published lists packs that hold everything
reachable from its refs. -/
theorem published_manifests_closed (git : GitObjects) (limits : PublishLimits)
    (etag : Nat → Digest → ETag) (ms : List Move)
    (hgit : (gitRepo limits etag).Meets git.PacksExactly (gitRepo limits etag).init ms)
    (hfree : CollisionFree ((gitRepo limits etag).run ms).putPacks) :
    ∀ e ∈ ((gitRepo limits etag).run ms).history,
      ∃ m, ((gitRepo limits etag).run ms).store.manifests.lookup e.digest = some m ∧
        ∀ oid ∈ m.refs.values, ∀ o, git.Reaches oid o →
          ∃ key ∈ m.packs, ∃ pack,
            ((gitRepo limits etag).run ms).store.packs.lookup key = some pack ∧
              o ∈ git.objectsIn pack := by
  have hclosed : Kept (closedFact git) ((gitRepo limits etag).run ms) := by
    refine (gitRepo limits etag).inv_run
      (I := fun s => CollisionFree s.putPacks → Kept (closedFact git) s)
      (fun _ => .init) ?_ hgit hfree
    intro s m hs hm hfree'
    have hstep := step_spec limits etag s m
    exact closed_step (hs (hfree'.subset (putPacks_step hstep))) hm hstep hfree'
  intro e he
  obtain ⟨m, hm⟩ := hclosed.installed e he
  refine ⟨m, hm, fun oid hoid o ho => ?_⟩
  exact hclosed.manifests e.digest m hm o ⟨oid, hoid, ho⟩

/-! ## A first push -/

def firstCommit : Oid := List.replicate 40 'a'
def firstTree : Oid := List.replicate 40 'c'

/-- A commit, its tree, and the pack of both. -/
def firstObjects : GitObjects where
  links o := if o = firstCommit then [firstTree] else []
  objectsIn pack := if pack = [1] then [firstCommit, firstTree] else []
  objectsIn_nil := by decide

theorem firstObjects_reaches {o : Oid} :
    firstObjects.Reaches firstCommit o ↔ o ∈ [firstCommit, firstTree] := by
  have hlink : firstTree ∈ firstObjects.links firstCommit := by decide
  constructor
  · intro h
    induction h with
    | refl => exact List.mem_cons_self
    | tail _ hstep ih =>
        rcases List.mem_cons.1 ih with rfl | ih
        · exact List.mem_cons_of_mem _ hstep
        · rw [List.mem_singleton.1 ih] at hstep
          cases hstep
  · intro h
    rcases List.mem_cons.1 h with rfl | h
    · exact .refl
    · rw [List.mem_singleton.1 h]
      exact .single hlink

def firstPush : List Move :=
  [.begin [⟨mainRef, some firstCommit⟩], .getPointer 0,
    .receivePack 0 true [] (mainWorkspace firstCommit), .snapshotWorkspaceState 0,
    .capturePack 0 [1], .putPack 0 true, .putManifest 0 true, .putPointer 0 true, .finish 0 none]

/-- What `pack-objects` is asked for: the new tips and the old ones. -/
def capturingTips : Phase → List Oid × List Oid
  | .capturing work _ => (work.refsAfter.values, work.parentState.parent.refs.values)
  | _ => ([], [])

theorem firstPush_tips {work : Work} {failure : Option PushError}
    (h : ((gitRepo wideLimits bodyTag).run (firstPush.take 4)).phaseAt 0 =
      some (.capturing work failure)) :
    work.refsAfter.values = [firstCommit] ∧ work.parentState.parent.refs.values = [] := by
  have htips : (((gitRepo wideLimits bodyTag).run (firstPush.take 4)).phaseAt 0).map
      capturingTips = some ([firstCommit], []) := by decide +kernel
  rw [h] at htips
  exact Prod.mk.inj (Option.some.inj htips)

theorem published_manifests_closed_first :
    ((gitRepo wideLimits bodyTag).run firstPush).history.length = 1 ∧
      ∀ e ∈ ((gitRepo wideLimits bodyTag).run firstPush).history,
        ∃ m, ((gitRepo wideLimits bodyTag).run firstPush).store.manifests.lookup e.digest =
            some m ∧
          ∀ oid ∈ m.refs.values, ∀ o, firstObjects.Reaches oid o →
            ∃ key ∈ m.packs, ∃ pack,
              ((gitRepo wideLimits bodyTag).run firstPush).store.packs.lookup key = some pack ∧
                o ∈ firstObjects.objectsIn pack := by
  refine ⟨by decide +kernel, ?_⟩
  refine published_manifests_closed firstObjects wideLimits bodyTag firstPush ?_ ?_
  · refine ⟨trivial, trivial, trivial, trivial, ?_, trivial, trivial, trivial, trivial, trivial⟩
    intro work failure hph hne o
    obtain ⟨hafter, hbefore⟩ := firstPush_tips hph
    rw [hafter, hbefore]
    constructor
    · intro ho
      exact ⟨⟨firstCommit, List.mem_cons_self, firstObjects_reaches.2 ho⟩, not_fromTips_nil rfl o⟩
    · rintro ⟨⟨tip, htip, hreach⟩, -⟩
      rw [List.mem_singleton.1 htip] at hreach
      exact firstObjects_reaches.1 hreach
  · unfold CollisionFree
    decide +kernel

end Buzz.Git
