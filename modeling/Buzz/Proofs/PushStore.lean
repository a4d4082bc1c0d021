import Buzz.Proofs.Manifest
import Buzz.Proofs.PushSteps

/-!
# Objects in the store and the pushes that put them

Several facts about runs have one shape: something holds of every manifest in
the store, and it holds because of what each push found out, phase by phase, on
its way to a manifest. `StoreFact` is such a pair, with what makes it fit to be an
invariant: objects are only added, and a push that has composed a manifest has
shown what is to hold of it. `Kept.step` does the rest for all of them; what is
left for each is how a push goes on and what it has when a pack is put.
-/

namespace Buzz.Git

open Buzz.Lib (HMap)

variable {limits : PublishLimits} {etag : Nat → Digest → ETag} {s s' : Repo}
  {ph : Phase}

/-- Objects are only added. -/
structure Keeps (s s' : Repo) : Prop where
  packs : ∀ key pack, s.store.packs.lookup key = some pack →
    s'.store.packs.lookup key = some pack
  manifests : ∀ d m, s.store.manifests.lookup d = some m →
    s'.store.manifests.lookup d = some m

/-- What holds of the manifests in the store, and of a push on its way. -/
structure StoreFact where
  manifest : Repo → Manifest → Prop
  phase : Repo → Phase → Prop
  manifest_kept : ∀ {s s' m}, Keeps s s' → manifest s m → manifest s' m
  phase_kept : ∀ {s s' ph}, Keeps s s' → phase s ph → phase s' ph
  composed : ∀ {s work after}, phase s (.composed work after) →
    manifest s after.canonical
  begun : ∀ s, phase s .begun
  stored : ∀ s work after, phase s (.stored work after)
  won : ∀ s work after, phase s (.won work after)
  answered : ∀ s stdout response, phase s (.answered stdout response)

/-- A manifest that was put is there. -/
def StoredPhase (s : Repo) : Phase → Prop
  | .stored _ after => ∃ m, s.store.manifests.lookup after.digest = some m
  | _ => True

theorem Keeps.storedPhase (h : Keeps s s') (hph : StoredPhase s ph) :
    StoredPhase s' ph := by
  cases ph with
  | stored work after =>
      obtain ⟨m, hm⟩ := hph
      exact ⟨m, h.manifests _ m hm⟩
  | _ => exact trivial

theorem storedPhase_publishPhase {work : Work} {after : Manifest} :
    StoredPhase s (publishPhase work after) := by
  unfold publishPhase
  split <;> exact trivial

theorem storedPhase_continueCompaction {work : Work} {todo : List (List UInt8)}
    {keys : List Digest} : StoredPhase s (continueCompaction work todo keys) := by
  unfold continueCompaction
  split
  · exact storedPhase_publishPhase
  · exact trivial

/-- No push has a manifest stored without putting it. -/
theorem Advance.storedPhase {i : Nat} {m : Move} {ph' : Phase}
    (h : Advance limits s.store i m ph ph') : StoredPhase s ph' := by
  cases h with
  | snapshot _ _ _ _ hnext =>
      rcases hnext with rfl | rfl
      · exact trivial
      · exact trivial
  | compacted => exact storedPhase_continueCompaction
  | noPack => exact storedPhase_publishPhase
  | _ => exact trivial

theorem Packs.storedPhase {pack : List UInt8} {ph' : Phase}
    (h : Packs ph pack ph') :
    StoredPhase s ph' := by
  cases h with
  | compacted => exact storedPhase_continueCompaction
  | delta => exact storedPhase_publishPhase
  | _ => exact trivial

/-- The store and every push keep the fact, what is published is in the store
and every pack is under its own key. -/
structure Kept (p : StoreFact) (s : Repo) : Prop where
  objects : ∀ key pack, s.store.packs.lookup key = some pack →
    contentKey pack = key ∧ pack ∈ s.putPacks
  manifests : ∀ d m, s.store.manifests.lookup d = some m → p.manifest s m
  installed : ∀ e ∈ s.history, ∃ m, s.store.manifests.lookup e.digest = some m
  pushers : AllPushers (fun s _ q => p.phase s q.phase ∧ StoredPhase s q.phase) s

namespace Kept

variable {p : StoreFact} {i : Nat} {ph : Phase}

theorem init : Kept p {} := ⟨nofun, nofun, nofun, .empty⟩

/-- One push goes on, and objects are only added to the store. -/
theorem goto (s' : Repo) (h : Kept p s) (hkeeps : Keeps s s')
    (hobjects : ∀ key pack, s'.store.packs.lookup key = some pack →
      contentKey pack = key ∧ pack ∈ s'.putPacks)
    (hmanifests : ∀ d m, s'.store.manifests.lookup d = some m → p.manifest s' m)
    (hinstalled : ∀ e ∈ s'.history, ∃ m, s'.store.manifests.lookup e.digest = some m)
    (hpushers : s'.pushers = s.pushers) {ph' : Phase}
    (hph : s.phaseAt i = some ph)
    (hnext : p.phase s' ph → p.phase s' ph' ∧ StoredPhase s' ph') :
    Kept p (s'.goto i ph') := by
  have hgoto : Keeps s' (s'.goto i ph') := ⟨fun _ _ h => h, fun _ _ h => h⟩
  refine ⟨hobjects, fun d m hm => p.manifest_kept hgoto (hmanifests d m hm),
    hinstalled, h.pushers.goto hph hpushers ?_ ?_⟩
  · intro j q _ hq
    exact ⟨p.phase_kept hgoto (p.phase_kept hkeeps hq.1),
      hgoto.storedPhase (hkeeps.storedPhase hq.2)⟩
  · intro q _ hphase hq
    rw [hphase] at hq
    obtain ⟨hnew, hstored⟩ := hnext (p.phase_kept hkeeps hq.1)
    exact ⟨p.phase_kept hgoto hnew, hgoto.storedPhase hstored⟩

/-- The phase of a push, from the outside. -/
theorem at_phase (h : Kept p s) (hph : s.phaseAt i = some ph) :
    p.phase s ph ∧ StoredPhase s ph := by
  obtain ⟨q, hq, rfl⟩ := Option.map_eq_some_iff.1 hph
  exact h.pushers i q hq

/-- A pack is found under its key, whatever was there before. -/
theorem lookup_putPack (h : Kept p s) {pack : List UInt8}
    (hfree : CollisionFree (pack :: s.putPacks)) :
    (s.putPackObject pack).store.packs.lookup (contentKey pack) = some pack := by
  obtain ⟨b, hb⟩ := putImmutable_present s.store.packs (contentKey pack) pack
  rcases putImmutable_cases hb with hold | ⟨-, rfl⟩
  · obtain ⟨hkey, hput⟩ := h.objects _ b hold
    have hsame := hfree b (List.mem_cons_of_mem pack hput) pack
      List.mem_cons_self hkey
    rw [hsame] at hb
    exact hb
  · exact hb

theorem putPack (h : Kept p s) {ph' : Phase} {pack : List UInt8}
    (hph : s.phaseAt i = some ph) (hpacks : Packs ph pack ph')
    (hnext : p.phase (s.putPackObject pack) ph → p.phase (s.putPackObject pack) ph') :
    Kept p ((s.putPackObject pack).goto i ph') := by
  have hkeeps : Keeps s (s.putPackObject pack) :=
    ⟨fun _ _ h => putImmutable_keeps h, fun _ _ h => h⟩
  refine h.goto _ hkeeps ?_ ?_ h.installed rfl hph fun hold =>
    ⟨hnext hold, hpacks.storedPhase⟩
  · intro key b hb
    rcases putImmutable_cases hb with hold | ⟨rfl, rfl⟩
    · obtain ⟨hkey, hput⟩ := h.objects key b hold
      exact ⟨hkey, List.mem_cons_of_mem pack hput⟩
    · exact ⟨rfl, List.mem_cons_self⟩
  · exact fun d m hm => p.manifest_kept hkeeps (h.manifests d m hm)

theorem putManifest (h : Kept p s) {work : Work} {after : Manifest}
    (answered : Bool) (hph : s.phaseAt i = some (.composed work after)) :
    Kept p ((s.putManifestObject after).goto i
      (if answered then .stored work after else .answered [] (.error .backend))) := by
  have hkeeps : Keeps s (s.putManifestObject after) :=
    ⟨fun _ _ h => h, fun _ _ h => putImmutable_keeps h⟩
  refine h.goto _ hkeeps h.objects ?_ ?_ rfl hph fun _ => ?_
  · intro d m hm
    rcases putImmutable_cases hm with hold | ⟨-, rfl⟩
    · exact p.manifest_kept hkeeps (h.manifests d m hold)
    · exact p.manifest_kept hkeeps (p.composed (h.at_phase hph).1)
  · intro e he
    obtain ⟨m, hm⟩ := h.installed e he
    exact ⟨m, putImmutable_keeps hm⟩
  · cases answered with
    | false => exact ⟨p.answered _ _ _, trivial⟩
    | true =>
        exact ⟨p.stored _ _ _,
          putImmutable_present s.store.manifests after.digest after.canonical⟩

theorem putPointer (h : Kept p s) {work : Work} {after : Manifest}
    (answered : Bool) (hph : s.phaseAt i = some (.stored work after)) :
    Kept p ((s.install etag i after.digest).goto i
      (if answered then .won work after else .answered [] (.error .backend))) := by
  have hkeeps : Keeps s (s.install etag i after.digest) :=
    ⟨fun _ _ h => h, fun _ _ h => h⟩
  refine h.goto _ hkeeps h.objects ?_ ?_ rfl hph fun _ => ?_
  · exact fun d m hm => p.manifest_kept hkeeps (h.manifests d m hm)
  · intro e he
    rcases List.mem_cons.1 he with rfl | he
    · exact (h.at_phase hph).2
    · exact h.installed e he
  · cases answered with
    | false => exact ⟨p.answered _ _ _, trivial⟩
    | true => exact ⟨p.won _ _ _, trivial⟩

/-- A step keeps the fact, if the pushes do that go on by themselves or put a
pack. -/
theorem step (h : Kept p s) {m : Move} (hstep : Step limits etag s m s')
    (hadvance : ∀ {i ph ph'}, s.phaseAt i = some ph →
      Advance limits s.store i m ph ph' → p.phase s ph → p.phase s ph')
    (hpack : ∀ {i ph ph' pack}, s' = (s.putPackObject pack).goto i ph' →
      Packs ph pack ph' → p.phase (s.putPackObject pack) ph →
      p.phase (s.putPackObject pack) ph') :
    Kept p s' := by
  cases hstep with
  | stay => exact h
  | @begin updates =>
      have hkeeps : Keeps s { s with pushers := s.pushers ++
          [{ updates := updates, began := s.history.length }] } :=
        ⟨fun _ _ h => h, fun _ _ h => h⟩
      refine ⟨h.objects, fun d m hm => p.manifest_kept hkeeps (h.manifests d m hm),
        h.installed, h.pushers.begin updates ?_ ⟨p.begun _, trivial⟩ rfl⟩
      exact fun j q hq => ⟨p.phase_kept hkeeps hq.1, hkeeps.storedPhase hq.2⟩
  | advance hph hadv =>
      refine h.goto s ⟨fun _ _ h => h, fun _ _ h => h⟩ h.objects h.manifests
        h.installed rfl hph fun hold => ?_
      exact ⟨hadvance hph hadv hold, hadv.storedPhase⟩
  | pack hph hpacks => exact h.putPack hph hpacks (hpack rfl hpacks)
  | manifest hph => exact h.putManifest _ hph
  | pointer hph _ => exact h.putPointer _ hph

end Kept

theorem putPacks_step {m : Move} (h : Step limits etag s m s') :
    s.putPacks ⊆ s'.putPacks := by
  cases h with
  | pack hph hpacks => exact List.subset_cons_self _ _
  | _ => exact List.Subset.refl _

end Buzz.Git
