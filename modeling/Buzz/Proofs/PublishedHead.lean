import Buzz.Proofs.PushChain

/-!
# The published HEAD

`receive-pack` updates refs and leaves HEAD alone, so what a push finds in HEAD
after it is what hydration wrote there: the head of the parent, or `main` in a
repository that had nothing published. That head is published again as long as
its branch is. Where the branch is gone another one takes its place, and where
there are no branches left the head stays as it was, for a branch to come.
-/

namespace Buzz.Git

variable {limits : PublishLimits} {etag : Nat → Digest → ETag} {work : Work}

/-! ## The choice of a head -/

theorem RefMap.containsKey_iff {m : RefMap} {name : RefName} :
    m.containsKey name = true ↔ name ∈ m.keys := by
  unfold RefMap.containsKey RefMap.get RefMap.keys
  rw [Option.isSome_map, List.find?_isSome, List.mem_map]
  constructor
  · rintro ⟨e, he, hname⟩
    exact ⟨e, he, of_decide_eq_true hname⟩
  · rintro ⟨e, he, rfl⟩
    exact ⟨e, he, decide_eq_true rfl⟩

section Resolve

variable {refs : RefMap} {observed parent : RefName}

/-- The branch HEAD names is preferred to all others. -/
theorem resolvePublishedHead_observed (hbranch : isBranch observed = true)
    (hmem : observed ∈ refs.keys) : resolvePublishedHead refs observed parent = observed := by
  unfold resolvePublishedHead
  exact if_pos (Bool.and_eq_true_iff.2 ⟨hbranch, RefMap.containsKey_iff.2 hmem⟩)

/-- What comes out is a published branch, or it is what HEAD names and no branch
is published. -/
theorem resolvePublishedHead_cases (refs : RefMap) (parent : RefName)
    (hbranch : isBranch observed = true) :
    (resolvePublishedHead refs observed parent ∈ refs.keys ∧
        isBranch (resolvePublishedHead refs observed parent) = true) ∨
      (resolvePublishedHead refs observed parent = observed ∧
        ∀ name ∈ refs.keys, isBranch name = false) := by
  unfold resolvePublishedHead
  dsimp only
  split
  · next h =>
      obtain ⟨-, hmem⟩ := Bool.and_eq_true_iff.1 h
      exact .inl ⟨RefMap.containsKey_iff.1 hmem, hbranch⟩
  · split
    · next h =>
        obtain ⟨hparent, hmem⟩ := Bool.and_eq_true_iff.1 h
        exact .inl ⟨RefMap.containsKey_iff.1 hmem, hparent⟩
    · split
      · next preferred h =>
          have hmem := RefMap.containsKey_iff.1 (List.find?_some h)
          have hname := List.mem_of_find?_eq_some h
          refine .inl ⟨hmem, ?_⟩
          rcases List.mem_cons.1 hname with rfl | hname
          · decide
          · rw [List.mem_singleton.1 hname]
            decide
      · split
        · next branch h =>
            exact .inl ⟨List.mem_of_find?_eq_some h, List.find?_some h⟩
        · next h =>
            have hne : observed.isEmpty = false := by
              cases observed with
              | nil => exact absurd hbranch (by decide)
              | cons c l => rfl
            rw [hne]
            refine .inr ⟨rfl, fun name hname => ?_⟩
            exact Bool.eq_false_iff.2 (List.find?_eq_none.1 h name hname)

theorem isBranch_resolvePublishedHead (hbranch : isBranch observed = true) :
    isBranch (resolvePublishedHead refs observed parent) = true := by
  rcases resolvePublishedHead_cases refs parent hbranch with h | h
  · exact h.2
  · rw [h.1]
    exact hbranch

end Resolve

/-! ## Hydration -/

/-- HEAD of the working repository before `receive-pack`: `materialize_manifest`
writes the head of the manifest, and `init_bare_repo` sets `main`. -/
def ParentState.hydratedHead (p : ParentState) : RefName :=
  match p.parentDigest with
  | some _ => p.parent.head
  | none => mainRef

/-- `receive-pack` does not move HEAD. -/
def headStays (s : Repo) : Move → Prop
  | .receivePack i _ _ workspace =>
      ∀ parentState bytes, s.phaseAt i = some (.hydrated parentState bytes) →
        workspace.head = parentState.hydratedHead
  | _ => True

/-! ## Phase by phase -/

/-- The head of the work is the one resolved for its refs. -/
def WorkHead (work : Work) : Prop :=
  work.head = resolvePublishedHead work.refsAfter work.parentState.hydratedHead
    work.parentState.parent.head

/-- What a push's phase says about the head it will publish. -/
def HeadPhase : Phase → Prop
  | .received parentState _ _ workspace => workspace.head = parentState.hydratedHead
  | .compactable work => WorkHead work
  | .compacting work _ _ => WorkHead work
  | .capturing work _ => WorkHead work
  | .captured work _ => WorkHead work
  | .composed work after =>
      WorkHead work ∧ after.head = work.head ∧ after.refs = work.refsAfter
  | _ => True

theorem headPhase_publishPhase {after : Manifest} (h : WorkHead work)
    (hhead : after.head = work.head) (hrefs : after.refs = work.refsAfter) :
    HeadPhase (publishPhase work after) := by
  unfold publishPhase
  split
  · exact trivial
  · exact ⟨h, hhead, hrefs⟩

theorem headPhase_continueCompaction (h : WorkHead work)
    (todo : List (List UInt8)) (keys : List Digest) :
    HeadPhase (continueCompaction work todo keys) := by
  unfold continueCompaction
  split
  · exact headPhase_publishPhase h rfl rfl
  · exact h

theorem Advance.headPhase {s : Repo} {i : Nat} {m : Move} {ph ph' : Phase}
    (h : Advance limits s.store i m ph ph') (hat : s.phaseAt i = some ph)
    (hstays : headStays s m) (hph : HeadPhase ph) : HeadPhase ph' := by
  cases h with
  | received => exact hstays _ _ hat
  | snapshot hparent _ _ hhead hnext =>
      subst hparent
      have hobserved : _ = _ := hph
      rw [hobserved] at hhead
      rcases hnext with rfl | rfl
      · exact hhead
      · exact hhead
  | compacted _ => exact headPhase_continueCompaction hph _ _
  | fallback hfrom =>
      rcases hfrom with rfl | ⟨todo, keys, rfl⟩
      · exact hph
      · exact hph
  | noPack _ => exact headPhase_publishPhase hph rfl rfl
  | captured => exact hph
  | _ => exact trivial

theorem Packs.headPhase {pack : List UInt8} {ph ph' : Phase} (h : Packs ph pack ph')
    (hph : HeadPhase ph) : HeadPhase ph' := by
  cases h with
  | compacted => exact headPhase_continueCompaction hph _ _
  | fallback => exact hph
  | delta => exact headPhase_publishPhase hph rfl rfl
  | lost => exact trivial

/-! ## Stored manifests -/

/-- There is a branch to be HEAD of. -/
def Manifest.hasBranch (m : Manifest) : Prop := ∃ name ∈ m.refs.keys, isBranch name = true

/-- The head is published whenever a branch is. -/
def Manifest.headPublished (m : Manifest) : Prop :=
  m.hasBranch → m.head ∈ m.refs.keys ∧ isBranch m.head = true

/-- The head of the parent is given up only where its branch is gone. -/
def Manifest.keepsHead (m parent : Manifest) : Prop :=
  m.head ≠ parent.head → parent.head ∉ m.refs.keys

/-- The head of a manifest is a branch it has, or its parent's head where that
branch is still there. -/
structure HeadOk (s : Repo) (m : Manifest) : Prop where
  branch : isBranch m.head = true
  published : m.headPublished
  kept : ∀ d, m.parent = some d →
    ∃ parent, s.store.manifests.lookup d = some parent ∧ m.keepsHead parent

theorem HeadOk.mono {s s' : Repo} {m : Manifest} (h : HeadOk s m)
    (hkeeps : ∀ d m, s.store.manifests.lookup d = some m →
      s'.store.manifests.lookup d = some m) : HeadOk s' m := by
  refine ⟨h.branch, h.published, fun d hd => ?_⟩
  obtain ⟨parent, hparent, hkept⟩ := h.kept d hd
  exact ⟨parent, hkeeps d parent hparent, hkept⟩

/-- What a push composes has a head that is chosen well, if the manifests that
are already there have. -/
theorem headOk_composed {s : Repo} {after : Manifest}
    (hstored : ∀ d m, s.store.manifests.lookup d = some m → HeadOk s m)
    (hparent : ParentOk etag s work.parentState)
    (hafter : after.parent = work.parentState.parentDigest)
    (hwork : WorkHead work) (hhead : after.head = work.head)
    (hrefs : after.refs = work.refsAfter) : HeadOk s after := by
  have hobserved : isBranch work.parentState.hydratedHead = true := by
    rcases hparent with hfresh | ⟨n, d, m, hloaded, hm⟩
    · rw [hfresh]
      decide
    · rw [hloaded]
      exact (hstored d m hm).branch
  have heq : after.head = resolvePublishedHead after.refs work.parentState.hydratedHead
      work.parentState.parent.head := by
    rw [hhead, hrefs]
    exact hwork
  refine ⟨?_, ?_, ?_⟩
  · rw [heq]
    exact isBranch_resolvePublishedHead hobserved
  · rintro ⟨name, hname, hbranch⟩
    rw [heq]
    refine (resolvePublishedHead_cases _ _ hobserved).resolve_right fun h => ?_
    rw [h.2 name hname] at hbranch
    cases hbranch
  · intro d hd
    rw [hafter] at hd
    rcases hparent with hfresh | ⟨n, d', m, hloaded, hm⟩
    · rw [hfresh] at hd
      cases hd
    · rw [hloaded] at hd heq hobserved
      cases hd
      refine ⟨m, hm, fun hne hmem => hne ?_⟩
      rw [heq]
      exact resolvePublishedHead_observed hobserved hmem

/-! ## Runs -/

/-- Every stored manifest and every push has such a head. -/
structure Headed (s : Repo) : Prop where
  manifests : ∀ d m, s.store.manifests.lookup d = some m → HeadOk s m
  pushers : AllPushers (fun _ _ p => HeadPhase p.phase) s

namespace Headed

variable {s : Repo}

/-- One push goes on while the manifests stay. -/
theorem goto (s' : Repo) (h : Headed s) (hmanifests : s'.store.manifests = s.store.manifests)
    (hpushers : s'.pushers = s.pushers) {i : Nat} {ph ph' : Phase} (hph : s.phaseAt i = some ph)
    (hnext : HeadPhase ph → HeadPhase ph') : Headed (s'.goto i ph') := by
  refine ⟨fun d m hm => ?_, h.pushers.goto hph hpushers ?_ ?_⟩
  · refine (h.manifests d m (hmanifests ▸ hm)).mono fun d' m' hm' => ?_
    exact hmanifests ▸ hm'
  · exact fun j p _ hp => hp
  · intro q _ hphase hq
    subst hphase
    exact hnext hq

theorem putManifest (h : Headed s) (hchained : Chained False etag s) {i : Nat} {work : Work}
    {after : Manifest} (answered : Bool) (hph : s.phaseAt i = some (.composed work after)) :
    Headed ((s.putManifestObject after).goto i
      (if answered then .stored work after else .answered [] (.error .backend))) := by
  obtain ⟨q, hq, hphase⟩ := Option.map_eq_some_iff.1 hph
  have hok := (hchained.pushers i q hq).2
  have hhead : HeadPhase q.phase := h.pushers i q hq
  rw [hphase] at hok hhead
  obtain ⟨⟨-, hparent⟩, hafter⟩ := hok
  have hnew := headOk_composed h.manifests hparent hafter hhead.1 hhead.2.1 hhead.2.2
  refine ⟨fun d m hm => ?_, h.pushers.goto hph rfl (fun j p _ hp => hp) ?_⟩
  · rcases putImmutable_cases hm with hold | ⟨-, rfl⟩
    · exact (h.manifests d m hold).mono fun _ _ hm => putImmutable_keeps hm
    · have hcanonical : HeadOk s after.canonical := ⟨hnew.branch, hnew.published, hnew.kept⟩
      exact hcanonical.mono fun _ _ hm => putImmutable_keeps hm
  · intro q' _ _ _
    cases answered with
    | false => exact trivial
    | true => exact trivial

theorem step (h : Headed s) (hchained : Chained False etag s) {m : Move} {s' : Repo}
    (hstays : headStays s m) (hstep : Step limits etag s m s') : Headed s' := by
  cases hstep with
  | stay => exact h
  | @begin updates =>
      refine ⟨fun d m hm => (h.manifests d m hm).mono fun _ _ hm => hm, ?_⟩
      exact h.pushers.begin updates (fun j p hp => hp) trivial rfl
  | advance hph hadvance =>
      exact h.goto s rfl rfl hph (hadvance.headPhase hph hstays)
  | pack hph hpacks => exact h.goto (s.putPackObject _) rfl rfl hph hpacks.headPhase
  | manifest hph => exact h.putManifest hchained _ hph
  | @pointer i answered work after hph _ =>
      refine h.goto (s.install etag i after.digest) rfl rfl hph fun _ => ?_
      cases answered with
      | false => exact trivial
      | true => exact trivial

theorem init : Headed {} := ⟨nofun, nofun⟩

end Headed

theorem headed_run (limits : PublishLimits)
    (hdiffer : ∀ n n' d d', etag n d = etag n' d' → d = d') {ms : List Move}
    (hstays : (gitRepo limits etag).Meets headStays (gitRepo limits etag).init ms)
    (hfree : CollisionFree
      (((gitRepo limits etag).run ms).putManifests.map Manifest.canonicalBytes)) :
    Chained False etag ((gitRepo limits etag).run ms) ∧ Headed ((gitRepo limits etag).run ms) := by
  refine (gitRepo limits etag).inv_run
    (I := fun s => CollisionFree (s.putManifests.map Manifest.canonicalBytes) →
      Chained False etag s ∧ Headed s) (fun _ => ⟨Chained.init, Headed.init⟩) ?_ hstays hfree
  intro s m hs hm hfree'
  have hstep := step_spec limits etag s m
  have hbefore := collisionFree_of_step hstep hfree'
  obtain ⟨hchained, hheaded⟩ := hs hbefore
  exact ⟨hchained.step hdiffer hbefore (fun hfalse => hfalse.elim) hstep,
    hheaded.step hchained hm hstep⟩

/-- HEAD along the history of a repository. -/
structure HeadStable (s : Repo) : Prop where
  /-- In every published manifest. -/
  published : ∀ e ∈ s.history, ∃ m, s.store.manifests.lookup e.digest = some m ∧ m.headPublished
  /-- From one published manifest to the next. -/
  stable : ∀ (k : Nat) (older newer : Install), s.history[k + 1]? = some older →
    s.history[k]? = some newer →
      ∃ m m', s.store.manifests.lookup older.digest = some m ∧
        s.store.manifests.lookup newer.digest = some m' ∧ m'.keepsHead m

/-- HEAD is a published branch whenever there is one, and it changes only where
its branch is gone. -/
theorem published_head_is_stable (limits : PublishLimits) (etag : Nat → Digest → ETag)
    (hdiffer : ∀ n n' d d', etag n d = etag n' d' → d = d') (ms : List Move)
    (hstays : (gitRepo limits etag).Meets headStays (gitRepo limits etag).init ms)
    (hfree : CollisionFree
      (((gitRepo limits etag).run ms).putManifests.map Manifest.canonicalBytes)) :
    HeadStable ((gitRepo limits etag).run ms) := by
  obtain ⟨hchained, hheaded⟩ := headed_run limits hdiffer hstays hfree
  refine ⟨fun e he => ?_, fun k older newer holder hnewer => ?_⟩
  · obtain ⟨m, hm⟩ := hchained.installed e.digest (List.mem_map_of_mem he)
    exact ⟨m, hm, (hheaded.manifests e.digest m hm).published⟩
  · have hdigest : ((gitRepo limits etag).run ms).digests[k]? = some newer.digest := by
      rw [Repo.digests, List.getElem?_map, hnewer]
      rfl
    have hlinked := hchained.linked.getElem? hdigest
    obtain ⟨m', hm'⟩ := hchained.installed newer.digest (List.mem_of_getElem? hdigest)
    rw [Repo.parentOf, hm', Repo.digests, List.getElem?_map, holder] at hlinked
    obtain ⟨m, hm, hkept⟩ := (hheaded.manifests newer.digest m' hm').kept older.digest hlinked
    exact ⟨m, m', hm, hm', hkept⟩

/-! ## A branch that goes away -/

def devRef : RefName := "refs/heads/dev".toList

/-- `dev` takes the place of `main`, which HEAD still names. -/
def renamedWorkspace : Workspace :=
  ⟨RefMap.empty.insert devRef (List.replicate 40 'a'), mainRef⟩

def rename : List Move :=
  .begin [⟨mainRef, some (List.replicate 40 'a')⟩] :: pushMain 0 (List.replicate 40 'a') [1] ++
    [.putPointer 0 true,
      .begin [⟨devRef, some (List.replicate 40 'a')⟩, ⟨mainRef, none⟩],
      .getPointer 1, .getManifest 1, .materialize 1, .receivePack 1 true [] renamedWorkspace,
      .snapshotWorkspaceState 1, .capturePack 1 [], .putManifest 1 true, .putPointer 1 true]

/-- The heads that were published, newest first. -/
def Repo.heads (s : Repo) : List RefName :=
  s.history.filterMap fun e => (s.store.manifests.lookup e.digest).map Manifest.head

def Phase.hydratedHead : Phase → Option RefName
  | .hydrated parentState _ => some parentState.hydratedHead
  | _ => none

theorem headStays_receivePack {s : Repo} {i : Nat} {stdout : List UInt8} {workspace : Workspace}
    (h : (s.phaseAt i).bind Phase.hydratedHead = some workspace.head) :
    headStays s (.receivePack i true stdout workspace) := by
  intro parentState bytes hph
  rw [hph] at h
  exact (Option.some.inj h).symm

theorem published_head_is_stable_renamed :
    ((gitRepo wideLimits bodyTag).run rename).heads = [devRef, mainRef] ∧
      HeadStable ((gitRepo wideLimits bodyTag).run rename) := by
  refine ⟨by decide +kernel, ?_⟩
  refine published_head_is_stable wideLimits bodyTag ?_ rename ?_ ?_
  · intro n n' d d' h
    exact Bytes32.ext (hexEncode_injective h)
  · refine ⟨trivial, trivial, trivial, trivial, headStays_receivePack ?_, trivial, trivial,
      trivial, trivial, trivial, trivial, trivial, trivial, trivial, headStays_receivePack ?_,
      trivial, trivial, trivial, trivial, trivial⟩
    · decide +kernel
    · decide +kernel
  · unfold CollisionFree
    decide +kernel

end Buzz.Git
