import Buzz.Git.Hook
import Buzz.Proofs.ManifestReads
import Buzz.Proofs.PublishedHead
import Buzz.Proofs.PushClosure
import Mathlib.Algebra.Order.BigOperators.Group.List

/-!
# Published manifests and their readers

Over every run: what is in the store under a digest that was ever published is a
valid manifest of the version the reader knows, with refs that can be files, and
a reader takes it. That it is not too large for one is the hook's doing. Git
asks the hook about every ref it is to write, the hook asks the policy endpoint,
and that one refuses a name of more than 256 bytes; a manifest has no more than
10,000 refs.
-/

namespace Buzz.Git

open Buzz.Audit (utf8)

variable {limits : PublishLimits} {etag : Nat → Digest → ETag} {m : Manifest}
  {name : RefName} {work : Work} {p : ParentState}

/-! ## Canonical manifests -/

theorem sortPacks_sortPacks (packs : List Digest) :
    sortPacks (sortPacks packs) = sortPacks packs := by
  refine List.map_injective_iff.2 packKeyText_injective ?_
  rw [map_sortPacks, map_sortPacks, ManifestDoc.sortPacks_eq_iff]
  exact fun key => ManifestDoc.mem_sortPacks

theorem canonical_canonical (m : Manifest) : m.canonical.canonical = m.canonical := by
  unfold Manifest.canonical
  rw [sortPacks_sortPacks]

theorem dedup_sublist {α : Type} [DecidableEq α] (l : List α) :
    (dedup l).Sublist l := by
  induction l with
  | nil => exact List.Sublist.refl _
  | cons a l ih =>
      rw [dedup]
      split
      · exact ih.cons a
      · exact ih.cons_cons a

theorem length_sortPacks (packs : List Digest) :
    (sortPacks packs).length ≤ packs.length := by
  have hsub := (dedup_sublist
    (packs.insertionSort fun a b => a.bytes ≤ b.bytes)).length_le
  rw [List.length_insertionSort] at hsub
  exact hsub

/-! ## Names the hook lets through -/

/-- As long as the policy endpoint takes a name. -/
def ShortName (name : RefName) : Prop := (utf8 name).length ≤ 256

/-- No ref has a longer name. -/
def ShortNames (refs : RefMap) : Prop := ∀ name ∈ refs.keys, ShortName name

theorem shortName_of_check {r : HookRefUpdate} (h : checkRefUpdate r = none) :
    ShortName r.refName := by
  unfold checkRefUpdate at h
  split at h
  · cases h
  · split at h
    · cases h
    · split at h
      · cases h
      · next hname =>
          refine Nat.le_of_not_lt fun hlong => hname ?_
          simp only [hlong, decide_true, Bool.or_true, Bool.true_or]

theorem shortName_of_structuralCheck {req : HookCallbackRequest}
    (h : structuralCheck req = none) : ∀ r ∈ req.refUpdates, ShortName r.refName := by
  have hrefs : req.refUpdates.findSome? checkRefUpdate = none := by
    unfold structuralCheck at h
    split at h
    · cases h
    · split at h
      · cases h
      · split at h
        · cases h
        · split at h
          · cases h
          · split at h
            · cases h
            · exact h
  rw [List.findSome?_eq_none_iff] at hrefs
  exact fun r hr => shortName_of_check (hrefs r hr)

/-- What `receive-pack` leaves: HEAD where it was, and refs that are kept as
files. Each was there before or is that of a command which the hook asked about
and the policy endpoint let through. -/
structure Received (parentState : ParentState) (workspace : Workspace) : Prop where
  head : workspace.head = parentState.hydratedHead
  files : KeptAsFiles workspace.refs
  names : ∀ name ∈ workspace.refs.keys,
    name ∈ parentState.parent.refs.keys ∨
      ∃ env commands timestamp,
        structuralCheck (hookRequest env commands timestamp) = none ∧
          ∃ c ∈ commands, c.refName = name

/-- Git runs the hook before it takes a push. -/
def hookRuns (s : Repo) : Move → Prop
  | .receivePack i _ _ workspace =>
      ∀ parentState bytes, s.phaseAt i = some (.hydrated parentState bytes) →
        Received parentState workspace
  | _ => True

/-! ## What is published -/

/-- What is in the store for the readers. -/
structure Manifest.Published (m : Manifest) : Prop where
  wf : m.Wf
  version : m.version = manifestVersion
  files : KeptAsFiles m.refs
  names : ShortNames m.refs
  head : ShortName m.head

theorem Manifest.Published.canonical (h : m.Published) :
    m.canonical.Published where
  wf := ⟨(length_sortPacks m.packs).trans h.wf.packs, h.wf.count, h.wf.head,
    h.wf.names, h.wf.oids⟩
  version := h.version
  files := h.files
  names := h.names
  head := h.head

theorem listedLength_le (lengths : List Nat) (n : Nat) (h : ∀ k ∈ lengths, k ≤ n) :
    listedLength lengths ≤ lengths.length * (n + 1) := by
  have hsum : lengths.sum ≤ lengths.length * n := by
    have hcard := List.sum_le_card_nsmul lengths n h
    rw [Nat.nsmul_eq_mul] at hcard
    exact hcard
  unfold listedLength
  rw [Nat.mul_succ]
  omega

theorem ShortName.length_le (h : ShortName name)
    (hsafe : isSafeRefname name = true) : name.length ≤ 256 := by
  rw [← length_utf8_ascii (refname_ascii hsafe)]
  exact h

theorem length_le_of_isHexOid {oid : Oid} (h : isHexOid oid = true) :
    oid.length ≤ 64 := by
  unfold isHexOid at h
  rw [Bool.and_eq_true, Bool.or_eq_true, beq_iff_eq, beq_iff_eq] at h
  omega

/-- 10,000 refs with names of 256 bytes and oids of 64 digits, and 128 packs, are
less than 4 MiB. -/
theorem Manifest.Published.encodedSize_le (h : m.Published) :
    m.encodedSize ≤ maxManifestBytes := by
  have hrefs : listedLength (m.refs.entries.map fun e => e.1.length + e.2.length + 5) ≤
      m.refs.entries.length * 326 := by
    have hle := listedLength_le
      (m.refs.entries.map fun e => e.1.length + e.2.length + 5) 325 ?_
    · rw [List.length_map] at hle
      exact hle
    · intro k hk
      obtain ⟨e, he, rfl⟩ := List.mem_map.1 hk
      have hname := (h.names e.1 (List.mem_map_of_mem he)).length_le (h.wf.names e he)
      have hoid := length_le_of_isHexOid (h.wf.oids e he)
      omega
  have hpacks : listedLength (m.packs.map fun _ => 72) ≤ m.packs.length * 73 := by
    have hle := listedLength_le (m.packs.map fun _ => 72) 72 ?_
    · rw [List.length_map] at hle
      exact hle
    · intro k hk
      obtain ⟨d, -, rfl⟩ := List.mem_map.1 hk
      exact Nat.le_refl 72
  have hhead := h.head.length_le h.wf.head
  have hcount : m.refs.entries.length ≤ 10000 := h.wf.count
  have hfew : m.packs.length ≤ 128 := h.wf.packs
  have hparent : (if m.parent.isSome then 66 else 4) ≤ 66 := by
    split <;> omega
  have hbytes : maxManifestBytes = 4194304 := rfl
  unfold Manifest.encodedSize
  omega

/-- A reader takes the manifest and writes its refs. -/
def Manifest.ReadAccepts (m : Manifest) : Prop :=
  loadBytes m.canonicalBytes = .ok m.doc ∧
    ∃ t, installRefs m.doc = .ok t ∧ t.HoldsRefs m.refs

theorem Manifest.Published.readAccepts (h : m.Published)
    (hcanonical : m.canonical = m) : m.ReadAccepts := by
  unfold Manifest.ReadAccepts Manifest.canonicalBytes
  rw [hcanonical, h.wf.loadBytes_eq h.version]
  exact ⟨if_neg (Nat.not_lt_of_le h.encodedSize_le), installRefs_ok h.wf h.files⟩

/-! ## Phase by phase -/

/-- The parent has no longer names than the hook lets through. -/
structure ParentState.Short (p : ParentState) : Prop where
  names : ShortNames p.parent.refs
  head : ShortName p.parent.head

/-- The refs and the head that are to be published. -/
structure Work.Readable (work : Work) : Prop where
  files : KeptAsFiles work.refsAfter
  names : ShortNames work.refsAfter
  head : ShortName work.head

/-- What a push has of a manifest that can be read. -/
def ReadablePhase : Phase → Prop
  | .manifestRead parentState => parentState.Short
  | .hydrated parentState _ => parentState.Short
  | .received parentState _ _ workspace =>
      parentState.Short ∧ Received parentState workspace
  | .compactable work => work.Readable
  | .compacting work _ _ => work.Readable
  | .capturing work _ => work.Readable
  | .captured work _ => work.Readable
  | .composed _ after => after.Published
  | _ => True

theorem readablePhase_publishPhase {after : Manifest} (h : work.Readable)
    (hversion : after.version = manifestVersion)
    (hrefs : after.refs = work.refsAfter) (hhead : after.head = work.head) :
    ReadablePhase (publishPhase work after) := by
  unfold publishPhase
  split
  · exact trivial
  · next hvalid =>
      refine ⟨wf_of_validate hvalid, hversion, ?_, ?_, ?_⟩
      · rw [hrefs]
        exact h.files
      · rw [hrefs]
        exact h.names
      · rw [hhead]
        exact h.head

theorem readablePhase_continueCompaction (h : work.Readable)
    (todo : List (List UInt8)) (keys : List Digest) :
    ReadablePhase (continueCompaction work todo keys) := by
  unfold continueCompaction
  split
  · exact readablePhase_publishPhase h rfl rfl rfl
  · exact h

/-- The snapshot has no names that were not there. -/
theorem snapshotRefs_subset {l : List (RefName × Oid)} {refs r : RefMap}
    (h : snapshotRefs refs l = some r) : ∀ e ∈ r.entries, e ∈ l ∨ e ∈ refs.entries := by
  induction l generalizing refs with
  | nil =>
      cases h
      exact fun e he => .inr he
  | cons entry rest ih =>
      obtain ⟨name, oid⟩ := entry
      unfold snapshotRefs at h
      intro e he
      split at h
      · rcases ih h e he with hmem | hmem
        · exact .inl (List.mem_cons_of_mem _ hmem)
        · exact .inr hmem
      · split at h
        · cases h
        · rcases ih h e he with hmem | hmem
          · exact .inl (List.mem_cons_of_mem _ hmem)
          · rcases RefMap.mem_insert.1 hmem with rfl | ⟨hmem, -⟩
            · exact .inl List.mem_cons_self
            · exact .inr hmem

theorem keys_snapshotRefs {refs r : RefMap}
    (h : snapshotRefs .empty refs.entries = some r) : r.keys ⊆ refs.keys := by
  intro name hname
  obtain ⟨e, he, rfl⟩ := List.mem_map.1 hname
  rcases snapshotRefs_subset h e he with hmem | hmem
  · exact List.mem_map_of_mem hmem
  · cases hmem

theorem resolvePublishedHead_mem (refs : RefMap) (observed parent : RefName) :
    resolvePublishedHead refs observed parent ∈ refs.keys ∨
      resolvePublishedHead refs observed parent = observed ∨
      resolvePublishedHead refs observed parent = parent := by
  unfold resolvePublishedHead
  dsimp only
  split
  · exact .inr (.inl rfl)
  · split
    · exact .inr (.inr rfl)
    · split
      · next h => exact .inl (RefMap.containsKey_iff.1 (List.find?_some h))
      · split
        · next h => exact .inl (List.mem_of_find?_eq_some h)
        · split
          · exact .inr (.inr rfl)
          · exact .inr (.inl rfl)

theorem ParentState.Short.hydratedHead (h : p.Short) :
    ShortName p.hydratedHead := by
  unfold ParentState.hydratedHead
  split
  · exact h.head
  · show (utf8 mainRef).length ≤ 256
    decide

/-- Names that were there, and names the hook let through. -/
theorem Received.shortNames {workspace : Workspace} (h : Received p workspace)
    (hp : p.Short) : ShortNames workspace.refs := by
  intro name hname
  rcases h.names name hname with hold | ⟨env, commands, timestamp, hcheck, c, hc, rfl⟩
  · exact hp.names name hold
  · exact shortName_of_structuralCheck hcheck c.refUpdate (List.mem_map_of_mem hc)

theorem Received.readable {workspace : Workspace} (h : Received p workspace)
    (hp : p.Short)
    (hrefs : snapshotRefs .empty workspace.refs.entries = some work.refsAfter)
    (hhead : work.head =
      resolvePublishedHead work.refsAfter workspace.head p.parent.head) :
    work.Readable := by
  have hkeys := keys_snapshotRefs hrefs
  have hnames : ShortNames work.refsAfter :=
    fun name hname => h.shortNames hp name (hkeys hname)
  refine ⟨h.files.mono hkeys, hnames, ?_⟩
  rw [hhead]
  rcases resolvePublishedHead_mem work.refsAfter workspace.head p.parent.head with
    hmem | heq | heq
  · exact hnames _ hmem
  · rw [heq, h.head]
    exact hp.hydratedHead
  · rw [heq]
    exact hp.head

theorem Advance.readablePhase {s : Repo} {i : Nat} {m : Move} {ph ph' : Phase}
    (h : Advance limits s.store i m ph ph') (hat : s.phaseAt i = some ph)
    (hgit : hookRuns s m)
    (hmanifests : ∀ d m, s.store.manifests.lookup d = some m → m.Published)
    (hph : ReadablePhase ph) : ReadablePhase ph' := by
  cases h with
  | pointerAbsent _ => exact ⟨nofun, Nat.zero_le _⟩
  | manifest hm =>
      have hpublished := hmanifests _ _ hm
      exact ⟨hpublished.names, hpublished.head⟩
  | materialized _ => exact hph
  | received => exact ⟨hph, hgit _ _ hat⟩
  | snapshot hparent _ hrefs hhead hnext =>
      have hreadable := hph.2.readable hph.1 hrefs hhead
      rcases hnext with rfl | rfl
      · exact hreadable
      · exact hreadable
  | compacted _ => exact readablePhase_continueCompaction hph _ _
  | fallback hfrom =>
      rcases hfrom with rfl | ⟨todo, keys, rfl⟩
      · exact hph
      · exact hph
  | noPack _ => exact readablePhase_publishPhase hph rfl rfl rfl
  | captured _ _ => exact hph
  | _ => exact trivial

theorem Packs.readablePhase {pack : List UInt8} {ph ph' : Phase} (h : Packs ph pack ph')
    (hph : ReadablePhase ph) : ReadablePhase ph' := by
  cases h with
  | compacted => exact readablePhase_continueCompaction hph _ _
  | fallback => exact hph
  | delta => exact readablePhase_publishPhase hph rfl rfl rfl
  | lost => exact trivial

/-! ## Runs -/

/-- Every manifest in the store can be read. -/
def readableFact : StoreFact where
  manifest _ m := m.Published ∧ m.canonical = m
  phase _ := ReadablePhase
  manifest_kept _ h := h
  phase_kept _ h := h
  composed h := ⟨Manifest.Published.canonical h, canonical_canonical _⟩
  begun _ := trivial
  stored _ _ _ := trivial
  won _ _ _ := trivial
  answered _ _ _ := trivial

theorem readable_run (limits : PublishLimits) (etag : Nat → Digest → ETag) {ms : List Move}
    (hgit : (gitRepo limits etag).Meets hookRuns (gitRepo limits etag).init ms) :
    Kept readableFact ((gitRepo limits etag).run ms) := by
  refine (gitRepo limits etag).inv_run Kept.init ?_ hgit
  intro s m hs hm
  refine hs.step (step_spec limits etag s m) (fun hph hadvance => ?_) fun _ hpacks => ?_
  · exact hadvance.readablePhase hph hm fun d m hm => (hs.manifests d m hm).1
  · exact hpacks.readablePhase

/-- Manifests of the version the reader knows are read back, the bytes say
everything but the order of the packs, and what is published can be read. -/
theorem manifests_read_back (limits : PublishLimits) (etag : Nat → Digest → ETag)
    (ms : List Move) :
    (∀ m : ManifestDoc, m.validate = none →
        (m.ReadsBack ↔ m.version.toNat = manifestVersion)) ∧
      (∀ m m' : ManifestDoc, m.canonicalBytes = m'.canonicalBytes ↔ m.SamePublished m') ∧
      ((gitRepo limits etag).Meets hookRuns (gitRepo limits etag).init ms →
        ∀ e ∈ ((gitRepo limits etag).run ms).history,
          ∃ m, ((gitRepo limits etag).run ms).store.manifests.lookup e.digest = some m ∧
            m.ReadAccepts) := by
  refine ⟨fun m _ => m.readsBack_iff, fun m m' => ManifestDoc.canonicalBytes_eq_iff, ?_⟩
  intro hgit e he
  have h := readable_run limits etag hgit
  obtain ⟨m, hm⟩ := h.installed e he
  obtain ⟨hpublished, hcanonical⟩ := h.manifests e.digest m hm
  exact ⟨m, hm, hpublished.readAccepts hcanonical⟩

/-- A manifest with its one ref. -/
def firstDoc : ManifestDoc :=
  ⟨1, mainRef, RefMap.empty.insert mainRef firstCommit, [], none⟩

theorem keptAsFiles_one {oid : Oid} (h : refPath name ∉ bareRepo.dirs) :
    KeptAsFiles (RefMap.empty.insert name oid) := by
  have hkeys : (RefMap.empty.insert name oid).keys = [name] := rfl
  refine ⟨fun a ha b hb hne => ?_, fun a ha => ?_⟩
  · rw [hkeys, List.mem_singleton] at ha hb
    exact absurd (ha.trans hb.symm) hne
  · rw [hkeys, List.mem_singleton] at ha
    rw [ha]
    exact h

/-- Someone's hook. -/
def someEnv : HookEnv where
  repoId := "repo".toList
  repoOwner := List.replicate 64 'a'
  communityId := "00000000-0000-0000-0000-000000000001".toList
  pusherPubkey := List.replicate 64 'b'

/-- A new branch that is the only one afterwards. -/
def createRef (name : RefName) : RefCommand :=
  ⟨List.replicate 40 '0', firstCommit, name, false⟩

theorem hookRuns_one {s : Repo} {i : Nat} {stdout : List UInt8} {head : RefName}
    (hhead : (s.phaseAt i).bind Phase.hydratedHead = some head)
    (hdir : refPath name ∉ bareRepo.dirs)
    (hcheck : structuralCheck (hookRequest someEnv [createRef name] 0) = none) :
    hookRuns s (.receivePack i true stdout
      ⟨RefMap.empty.insert name firstCommit, head⟩) := by
  intro parentState bytes hph
  have hobserved : headStays s (.receivePack i true stdout
      ⟨RefMap.empty.insert name firstCommit, head⟩) := headStays_receivePack hhead
  refine ⟨hobserved _ _ hph, keptAsFiles_one hdir, fun other hother => .inr ?_⟩
  have hname : other = name := List.mem_singleton.1 hother
  exact ⟨someEnv, [createRef name], 0, hcheck, _, List.mem_cons_self, hname.symm⟩

theorem rename_hookRuns :
    (gitRepo wideLimits bodyTag).Meets hookRuns (gitRepo wideLimits bodyTag).init
      rename := by
  refine ⟨trivial, trivial, trivial, trivial, hookRuns_one ?_ ?_ ?_, trivial,
    trivial, trivial, trivial, trivial, trivial, trivial, trivial, trivial,
    hookRuns_one ?_ ?_ ?_, trivial, trivial, trivial, trivial, trivial⟩
  all_goals decide +kernel

theorem manifests_read_back_renamed :
    (firstDoc.validate = none ∧
        (firstDoc.ReadsBack ↔ firstDoc.version.toNat = manifestVersion)) ∧
      ((gitRepo wideLimits bodyTag).run rename).history.length = 2 ∧
      ∀ e ∈ ((gitRepo wideLimits bodyTag).run rename).history,
        ∃ m, ((gitRepo wideLimits bodyTag).run rename).store.manifests.lookup e.digest =
            some m ∧ m.ReadAccepts := by
  have hvalid : firstDoc.validate = none := by decide +kernel
  obtain ⟨hreads, -, hpublished⟩ := manifests_read_back wideLimits bodyTag rename
  exact ⟨⟨hvalid, hreads firstDoc hvalid⟩, by decide +kernel, hpublished rename_hookRuns⟩

/-- A manifest of another version. -/
def laterVersion : ManifestDoc := ⟨2, mainRef, .empty, [], none⟩

/-- It is valid and not read back. -/
theorem later_version_not_read_back :
    laterVersion.validate = none ∧ ¬ laterVersion.ReadsBack := by
  have hvalid : laterVersion.validate = none := by decide +kernel
  refine ⟨hvalid, ?_⟩
  rw [ManifestDoc.readsBack_iff]
  decide

end Buzz.Git
