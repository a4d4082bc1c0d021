import Buzz.Proofs.PublishedReads

/-!
# What is published can be hydrated

A push ends with `materialize_manifest` of the one before it, which refuses a
pack above `git_max_pack_bytes` and packs above `git_max_repo_bytes` in all. A
manifest that it refused could never be pushed to again. The limits are
therefore tested before a manifest is published: on the pack that is added to
those the push hydrated, and on the packs of a compaction, which replace them.

The two sums are not of the same lists. What is published is sorted and without
repetition, and a pack that is already listed is not listed again; both make the
sum smaller.
-/

namespace Buzz.Git

open Buzz.Lib (HMap)

/-! ## Materializing -/

/-- The bytes of a stored pack. -/
def packBytes (packs : HMap Digest (List UInt8)) (key : Digest) : Nat :=
  ((packs.lookup key).map List.length).getD 0

def totalBytes (packs : HMap Digest (List UInt8)) (keys : List Digest) : Nat :=
  (keys.map (packBytes packs)).sum

/-- The packs are stored, and none is too large. -/
def Stocked (limits : PublishLimits) (packs : HMap Digest (List UInt8)) (keys : List Digest) :
    Prop :=
  ∀ key ∈ keys, ∃ pack, packs.lookup key = some pack ∧ pack.length ≤ limits.maxPackBytes

/-- The packs can be materialized. -/
structure Hydrates (limits : PublishLimits) (packs : HMap Digest (List UInt8))
    (keys : List Digest) : Prop where
  stocked : Stocked limits packs keys
  total : totalBytes packs keys ≤ limits.maxRepoBytes

section Materialize

variable {limits : PublishLimits} {packs packs' : HMap Digest (List UInt8)} {key : Digest}
  {keys keys' : List Digest} {pack : List UInt8} {bytes bytes' : Nat}

theorem packBytes_eq (h : packs.lookup key = some pack) : packBytes packs key = pack.length := by
  unfold packBytes
  rw [h]
  rfl

theorem totalBytes_cons (packs : HMap Digest (List UInt8)) (key : Digest) (keys : List Digest) :
    totalBytes packs (key :: keys) = packBytes packs key + totalBytes packs keys :=
  List.sum_cons

theorem totalBytes_snoc (packs : HMap Digest (List UInt8)) (keys : List Digest) (key : Digest) :
    totalBytes packs (keys ++ [key]) = totalBytes packs keys + packBytes packs key := by
  unfold totalBytes
  rw [List.map_append, List.sum_append, List.map_singleton, List.sum_singleton]

/-- The loop ends with the sum of the packs, if it ends. -/
theorem materializePacks_total (h : materializePacks limits packs bytes keys = .ok bytes')
    (hbytes : bytes ≤ limits.maxRepoBytes) :
    Stocked limits packs keys ∧ bytes' = bytes + totalBytes packs keys ∧
      bytes' ≤ limits.maxRepoBytes := by
  induction keys generalizing bytes with
  | nil =>
      cases h
      exact ⟨fun key hkey => absurd hkey List.not_mem_nil, rfl, hbytes⟩
  | cons key keys ih =>
      unfold materializePacks at h
      split at h
      · cases h
      · next pack hpack =>
          split at h
          · cases h
          · next hsmall =>
              split at h
              · cases h
              · next hroom =>
                  obtain ⟨hstocked, htotal, hle⟩ := ih h (Nat.not_lt.1 hroom)
                  refine ⟨fun k hk => ?_, ?_, hle⟩
                  · rcases List.mem_cons.1 hk with rfl | hk
                    · exact ⟨pack, hpack, Nat.not_lt.1 hsmall⟩
                    · exact hstocked k hk
                  · rw [totalBytes_cons, packBytes_eq hpack]
                    omega

theorem totalBytes_sortPacks (packs : HMap Digest (List UInt8)) (keys : List Digest) :
    totalBytes packs (sortPacks keys) ≤ totalBytes packs keys := by
  have hsub : ((sortPacks keys).map (packBytes packs)).Sublist
      ((keys.insertionSort fun a b => a.bytes ≤ b.bytes).map (packBytes packs)) :=
    (dedup_sublist _).map _
  have hperm := (List.perm_insertionSort (fun a b : Digest => a.bytes ≤ b.bytes) keys).map
    (packBytes packs)
  calc totalBytes packs (sortPacks keys)
      ≤ ((keys.insertionSort fun a b => a.bytes ≤ b.bytes).map (packBytes packs)).sum :=
        hsub.sum_le_sum fun _ _ => Nat.zero_le _
    _ = totalBytes packs keys := hperm.sum_eq

theorem Hydrates.sortPacks (h : Hydrates limits packs keys) :
    Hydrates limits packs (sortPacks keys) where
  stocked key hkey := h.stocked key (mem_sortPacks.1 hkey)
  total := Nat.le_trans (totalBytes_sortPacks packs keys) h.total

/-- Stored packs stay as they are. -/
theorem totalBytes_kept (hstocked : Stocked limits packs keys)
    (hkeep : ∀ key pack, packs.lookup key = some pack → packs'.lookup key = some pack) :
    totalBytes packs' keys = totalBytes packs keys := by
  unfold totalBytes
  refine congrArg List.sum (List.map_congr_left fun key hkey => ?_)
  obtain ⟨pack, hpack, -⟩ := hstocked key hkey
  rw [packBytes_eq hpack, packBytes_eq (hkeep key pack hpack)]

theorem Stocked.kept (h : Stocked limits packs keys)
    (hkeep : ∀ key pack, packs.lookup key = some pack → packs'.lookup key = some pack) :
    Stocked limits packs' keys := by
  intro key hkey
  obtain ⟨pack, hpack, hsmall⟩ := h key hkey
  exact ⟨pack, hkeep key pack hpack, hsmall⟩

theorem Hydrates.kept (h : Hydrates limits packs keys)
    (hkeep : ∀ key pack, packs.lookup key = some pack → packs'.lookup key = some pack) :
    Hydrates limits packs' keys :=
  ⟨h.stocked.kept hkeep, by rw [totalBytes_kept h.stocked hkeep]; exact h.total⟩

/-- A pack next to those that were hydrated. -/
theorem Stocked.snoc (h : Stocked limits packs keys) (hpack : packs.lookup key = some pack)
    (hsmall : pack.length ≤ limits.maxPackBytes) : Stocked limits packs (keys ++ [key]) := by
  intro k hk
  rcases List.mem_append.1 hk with hk | hk
  · exact h k hk
  · rw [List.mem_singleton.1 hk]
    exact ⟨pack, hpack, hsmall⟩

end Materialize

/-! ## What is published -/

theorem validate_canonical {m : Manifest} (h : m.validate = none) :
    m.canonical.validate = none := by
  unfold Manifest.validate at h ⊢
  split at h
  · cases h
  · next hpacks =>
      rw [if_neg]
      · exact h
      · have hfewer := length_sortPacks m.packs
        show ¬ maxManifestPacks < (sortPacks m.packs).length
        omega

/-- The next push can take the manifest and hydrate it. -/
structure Loadable (limits : PublishLimits) (packs : HMap Digest (List UInt8)) (m : Manifest) :
    Prop where
  version : m.version = manifestVersion
  valid : m.validate = none
  hydrates : Hydrates limits packs m.packs

/-- The push's parent is hydrated, to so many bytes. -/
structure Hydrated (limits : PublishLimits) (packs : HMap Digest (List UInt8)) (parent : Manifest)
    (bytes : Nat) : Prop where
  hydrates : Hydrates limits packs parent.packs
  bytes : bytes = totalBytes packs parent.packs

def Work.Fits (limits : PublishLimits) (packs : HMap Digest (List UInt8)) (work : Work) : Prop :=
  Hydrated limits packs work.parentState.parent work.hydratedBytes

/-- The limits a push has tested so far. -/
def FitsPhase (limits : PublishLimits) (store : GitStore) : Phase → Prop
  | .hydrated parentState bytes => Hydrated limits store.packs parentState.parent bytes
  | .received parentState bytes _ _ => Hydrated limits store.packs parentState.parent bytes
  | .compactable work => work.Fits limits store.packs
  | .compacting work todo keys =>
      work.Fits limits store.packs ∧ Stocked limits store.packs keys ∧
        (∀ pack ∈ todo, pack.length ≤ limits.maxPackBytes) ∧
        totalBytes store.packs keys + (todo.map List.length).sum ≤ limits.maxRepoBytes
  | .capturing work _ => work.Fits limits store.packs
  | .captured work pack =>
      work.Fits limits store.packs ∧ pack.length ≤ limits.maxPackBytes ∧
        work.hydratedBytes + pack.length ≤ limits.maxRepoBytes
  | .composed _ after => Loadable limits store.packs after
  | _ => True

section Phases

variable {limits : PublishLimits} {store store' : GitStore} {work : Work} {after : Manifest}
  {ph ph' : Phase}

theorem Loadable.canonical {packs : HMap Digest (List UInt8)} {m : Manifest}
    (h : Loadable limits packs m) : Loadable limits packs m.canonical :=
  ⟨h.version, validate_canonical h.valid, h.hydrates.sortPacks⟩

theorem fits_publishPhase (hversion : after.version = manifestVersion)
    (h : Hydrates limits store.packs after.packs) :
    FitsPhase limits store (publishPhase work after) := by
  unfold publishPhase
  split
  · exact trivial
  · next hvalid => exact ⟨hversion, hvalid, h⟩

theorem fits_continueCompaction {todo : List (List UInt8)} {keys : List Digest}
    (h : FitsPhase limits store (.compacting work todo keys)) :
    FitsPhase limits store (continueCompaction work todo keys) := by
  unfold continueCompaction
  split
  · obtain ⟨-, hstocked, -, htotal⟩ := h
    exact fits_publishPhase rfl (Hydrates.sortPacks ⟨hstocked, htotal⟩)
  · exact h

theorem captureCompactedPacks_fits {refs : RefMap} {packs : List (List UInt8)}
    {result : Except PushError (List (List UInt8))}
    (h : captureCompactedPacks limits refs result = .ok packs) :
    (∀ pack ∈ packs, pack.length ≤ limits.maxPackBytes) ∧
      (packs.map List.length).sum ≤ limits.maxRepoBytes := by
  unfold captureCompactedPacks at h
  split at h
  · cases h
    exact ⟨fun pack hpack => absurd hpack List.not_mem_nil, Nat.zero_le _⟩
  · split at h
    · cases h
    · split at h
      · cases h
      · split at h
        · cases h
        · next hsmall =>
            split at h
            · cases h
            · next htotal =>
                cases h
                refine ⟨fun pack hpack => ?_, Nat.not_lt.1 htotal⟩
                refine Nat.not_lt.1 fun hlarge => hsmall ?_
                exact List.any_eq_true.2 ⟨pack, hpack, decide_eq_true hlarge⟩

/-- The packs of the parent alone. -/
theorem fits_noPack (h : work.Fits limits store.packs) :
    FitsPhase limits store (publishPhase work (work.composeAfter none)) :=
  fits_publishPhase rfl h.hydrates.sortPacks

/-- The new pack next to them. -/
theorem fits_delta {pack : List UInt8} (h : FitsPhase limits store (.captured work pack))
    (hpack : store.packs.lookup (contentKey pack) = some pack) :
    FitsPhase limits store (publishPhase work (work.composeAfter (some (contentKey pack)))) := by
  obtain ⟨hwork, hsmall, htotal⟩ := h
  refine fits_publishPhase rfl (Hydrates.sortPacks ?_)
  dsimp only
  split
  · exact hwork.hydrates
  · refine ⟨hwork.hydrates.stocked.snoc hpack hsmall, ?_⟩
    rw [totalBytes_snoc, packBytes_eq hpack, ← hwork.bytes]
    exact htotal

theorem Hydrated.kept {packs packs' : HMap Digest (List UInt8)} {parent : Manifest}
    {bytes : Nat} (h : Hydrated limits packs parent bytes)
    (hkeep : ∀ key pack, packs.lookup key = some pack → packs'.lookup key = some pack) :
    Hydrated limits packs' parent bytes := by
  refine ⟨h.hydrates.kept hkeep, ?_⟩
  rw [totalBytes_kept h.hydrates.stocked hkeep]
  exact h.bytes

theorem Keeps.fits {s s' : Repo} (hkeep : Keeps s s') (h : FitsPhase limits s.store ph) :
    FitsPhase limits s'.store ph := by
  cases ph with
  | hydrated | received | compactable | capturing => exact Hydrated.kept h hkeep.packs
  | compacting work todo keys =>
      obtain ⟨hwork, hstocked, hsmall, htotal⟩ := h
      refine ⟨Hydrated.kept hwork hkeep.packs, hstocked.kept hkeep.packs, hsmall, ?_⟩
      rw [totalBytes_kept hstocked hkeep.packs]
      exact htotal
  | captured => exact ⟨Hydrated.kept h.1 hkeep.packs, h.2⟩
  | composed => exact ⟨h.version, h.valid, h.hydrates.kept hkeep.packs⟩
  | begun | pointerRead | manifestRead | stored | lostRace | winnerRead | won
  | answered => exact trivial

end Phases

/-! ## Steps -/

theorem captureOutput_small {limits : PublishLimits} {refs : RefMap}
    {output pack : List UInt8} (h : captureOutput limits refs output = .ok (some pack)) :
    pack.length ≤ limits.maxPackBytes := by
  unfold captureOutput at h
  split at h
  · cases h
  · split at h
    · cases h
    · next hsmall =>
        split at h
        · cases h
        · cases h
          exact Nat.not_lt.1 hsmall

theorem Advance.fits {limits : PublishLimits} {store : GitStore} {i : Nat} {m : Move}
    {ph ph' : Phase} (h : Advance limits store i m ph ph')
    (hph : FitsPhase limits store ph) : FitsPhase limits store ph' := by
  cases h with
  | materialized hok =>
      obtain ⟨hstocked, htotal, hle⟩ := materializePacks_total hok (Nat.zero_le _)
      rw [Nat.zero_add] at htotal
      exact ⟨⟨hstocked, htotal ▸ hle⟩, htotal⟩
  | snapshot hparent _ _ _ hnext hbytes =>
      subst hparent
      subst hbytes
      rcases hnext with rfl | rfl
      · exact hph
      · exact hph
  | noPack _ => exact fits_noPack hph
  | captured hpack hroom => exact ⟨hph, captureOutput_small hpack, hroom⟩
  | pointerAbsent =>
      refine ⟨⟨fun key hkey => absurd hkey List.not_mem_nil, Nat.zero_le _⟩, rfl⟩
  | received => exact hph
  | compacted hpacks =>
      obtain ⟨hsmall, htotal⟩ := captureCompactedPacks_fits hpacks
      refine fits_continueCompaction
        ⟨hph, fun key hkey => absurd hkey List.not_mem_nil, hsmall, ?_⟩
      rw [show totalBytes store.packs [] = 0 from rfl, Nat.zero_add]
      exact htotal
  | fallback hfrom =>
      rcases hfrom with rfl | ⟨todo, keys, rfl⟩
      · exact hph
      · exact hph.1
  | refuse | pointer | manifest | rejected | lostRace | winner | conflict | success
  | unannounced => exact trivial

theorem Packs.fits {limits : PublishLimits} {store : GitStore} {pack : List UInt8}
    {ph ph' : Phase} (h : Packs ph pack ph')
    (hpack : store.packs.lookup (contentKey pack) = some pack)
    (hph : FitsPhase limits store ph) : FitsPhase limits store ph' := by
  cases h with
  | compacted =>
      obtain ⟨hwork, hstocked, hsmall, htotal⟩ := hph
      refine fits_continueCompaction ⟨hwork, hstocked.snoc hpack (hsmall pack List.mem_cons_self),
        fun p hp => hsmall p (List.mem_cons_of_mem pack hp), ?_⟩
      rw [totalBytes_snoc, packBytes_eq hpack]
      rw [List.map_cons, List.sum_cons] at htotal
      omega
  | fallback => exact hph.1
  | delta => exact fits_delta hph hpack
  | lost => exact trivial

end Buzz.Git
