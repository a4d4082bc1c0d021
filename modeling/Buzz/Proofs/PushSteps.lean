import Buzz.Git.Push

/-!
# What a step of a push can do

Every step is one of a few kinds: nothing, a new push, a push that goes on
without touching the store, a pack that is put, a manifest that is put, and a
write of the pointer. How a push can go on is said once, in `Advance`; what is
proved about runs is proved along these.
-/

namespace Buzz.Git

open Buzz.Lib (HMap)

/-! ## Immutable objects -/

section Immutable

variable {ν : Type} {m : HMap Digest ν} {key d : Digest} {object v : ν}

theorem putImmutable_keeps (h : m.lookup d = some v) :
    (putImmutable m key object).lookup d = some v := by
  unfold putImmutable
  split
  · exact h
  · next habsent =>
      rw [HMap.lookup_insert_ite, if_neg, h]
      intro heq
      rw [← heq, h] at habsent
      exact habsent rfl

theorem putImmutable_cases (h : (putImmutable m key object).lookup d = some v) :
    m.lookup d = some v ∨ (d = key ∧ v = object) := by
  unfold putImmutable at h
  split at h
  · exact .inl h
  · rcases HMap.lookup_insert_cases h with hnew | ⟨-, hold⟩
    · exact .inr hnew
    · exact .inl hold

theorem putImmutable_present (m : HMap Digest ν) (key : Digest) (object : ν) :
    ∃ v, (putImmutable m key object).lookup key = some v := by
  unfold putImmutable
  split
  · next h => exact Option.isSome_iff_exists.1 h
  · exact ⟨object, AList.lookup_insert _⟩

end Immutable

/-! ## Transitions -/

/-- How a push goes on from one phase to the next while the store stays as it is. -/
inductive Advance (limits : PublishLimits) (store : GitStore) (i : Nat) :
    Move → Phase → Phase → Prop where
  /-- Before the pointer is written, every step can end in an error. -/
  | refuse {m : Move} {ph : Phase} {error : PushError} (hopen : ∀ w m, ph ≠ .won w m)
      (hpending : ∀ out r, ph ≠ .answered out r) :
      Advance limits store i m ph (.answered [] (.error error))
  | pointerAbsent (h : store.pointer = none) :
      Advance limits store i (.getPointer i) .begun (.hydrated .fresh 0)
  | pointer {pointer : Pointer} (h : store.pointer = some pointer) :
      Advance limits store i (.getPointer i) .begun (.pointerRead pointer.etag pointer.body)
  | manifest {etag : ETag} {digest : Digest} {m : Manifest}
      (h : store.manifests.lookup digest = some m) :
      Advance limits store i (.getManifest i) (.pointerRead etag digest)
        (.manifestRead (.fromLoaded etag digest m))
  | materialized {parentState : ParentState} {bytes : Nat}
      (h : materializePacks limits store.packs 0 parentState.parent.packs = .ok bytes) :
      Advance limits store i (.materialize i) (.manifestRead parentState)
        (.hydrated parentState bytes)
  | received {parentState : ParentState} {bytes : Nat} {stdout : List UInt8}
      {workspace : Workspace} :
      Advance limits store i (.receivePack i true stdout workspace) (.hydrated parentState bytes)
        (.received parentState bytes stdout workspace)
  | rejected {exitOk : Bool} {parentState : ParentState} {bytes : Nat}
      {stdout : List UInt8} {workspace : Workspace}
      (h : (exitOk && !receivePackReportRejected stdout) = false) :
      Advance limits store i (.receivePack i exitOk stdout workspace) (.hydrated parentState bytes)
        (.answered stdout (.success none))
  | snapshot {parentState : ParentState} {bytes : Nat} {stdout : List UInt8}
      {workspace : Workspace} {work : Work} {ph : Phase}
      (hparent : work.parentState = parentState) (hstdout : work.stdout = stdout)
      (hrefs : snapshotRefs .empty workspace.refs.entries = some work.refsAfter)
      (hhead : work.head =
        resolvePublishedHead work.refsAfter workspace.head parentState.parent.head)
      (hph : ph = .compactable work ∨ ph = .capturing work none)
      (hbytes : work.hydratedBytes = bytes) :
      Advance limits store i (.snapshotWorkspaceState i)
        (.received parentState bytes stdout workspace) ph
  | compacted {work : Work} {packs : List (List UInt8)}
      {result : Except PushError (List (List UInt8))}
      (h : captureCompactedPacks limits work.refsAfter result = .ok packs) :
      Advance limits store i (.prepareCompaction i result) (.compactable work)
        (continueCompaction work packs [])
  | fallback {m : Move} {work : Work} {ph : Phase} {failure : Option PushError}
      (h : ph = .compactable work ∨ ∃ todo keys, ph = .compacting work todo keys) :
      Advance limits store i m ph (.capturing work failure)
  | noPack {work : Work} {failure : Option PushError} {output : List UInt8}
      (h : captureOutput limits work.refsAfter output = .ok none) :
      Advance limits store i (.capturePack i output) (.capturing work failure)
        (publishPhase work (work.composeAfter none))
  | captured {work : Work} {failure : Option PushError} {output : List UInt8}
      (h : captureOutput limits work.refsAfter output = .ok (some output))
      (hroom : work.hydratedBytes + output.length ≤ limits.maxRepoBytes) :
      Advance limits store i (.capturePack i output) (.capturing work failure)
        (.captured work output)
  | lostRace {work : Work} {after : Manifest} :
      Advance limits store i (.putPointer i true) (.stored work after) (.lostRace work)
  | winner {work : Work} {digest : Digest} :
      Advance limits store i (.getWinner i) (.lostRace work) (.winnerRead work digest)
  | conflict {work : Work} {digest : Digest} {m : Manifest} :
      Advance limits store i (.getWinnerManifest i) (.winnerRead work digest)
        (.answered [] (.conflict m digest))
  | success {work : Work} {after : Manifest} :
      Advance limits store i (.finish i none) (.won work after)
        (.answered work.stdout (.success (some after.digest)))
  | unannounced {status : Nat} {work : Work} {after : Manifest} :
      Advance limits store i (.finish i (some status)) (.won work after)
        (.answered [] (.unannounced after.digest status))

/-- The push after one of its packs was put. -/
inductive Packs : Phase → List UInt8 → Phase → Prop where
  | compacted {work : Work} {pack : List UInt8} {todo : List (List UInt8)} {keys : List Digest} :
      Packs (.compacting work (pack :: todo) keys) pack
        (continueCompaction work todo (keys ++ [contentKey pack]))
  | fallback {work : Work} {pack : List UInt8} {todo : List (List UInt8)} {keys : List Digest} :
      Packs (.compacting work (pack :: todo) keys) pack (.capturing work (some .backend))
  | delta {work : Work} {pack : List UInt8} :
      Packs (.captured work pack) pack
        (publishPhase work (work.composeAfter (some (contentKey pack))))
  | lost {work : Work} {pack : List UInt8} :
      Packs (.captured work pack) pack (.answered [] (.error .backend))

def Repo.putManifestObject (s : Repo) (m : Manifest) : Repo :=
  { s with
    store := { s.store with manifests := putImmutable s.store.manifests m.digest m.canonical }
    putManifests := m :: s.putManifests }

/-- The pointer after a push won. -/
def Repo.install (etag : Nat → Digest → ETag) (s : Repo) (i : Nat) (digest : Digest) : Repo :=
  { s with
    store := { s.store with pointer := some ⟨etag s.history.length digest, digest⟩ }
    history := ⟨digest, i⟩ :: s.history }

/-- What one move can do to the repository. -/
inductive Step (limits : PublishLimits) (etag : Nat → Digest → ETag) (s : Repo) :
    Move → Repo → Prop where
  | stay {m : Move} : Step limits etag s m s
  | begin {updates : List RefUpdate} :
      Step limits etag s (.begin updates)
        { s with pushers := s.pushers ++ [{ updates := updates, began := s.history.length }] }
  | advance {m : Move} {i : Nat} {ph ph' : Phase} (hph : s.phaseAt i = some ph)
      (h : Advance limits s.store i m ph ph') : Step limits etag s m (s.goto i ph')
  | pack {m : Move} {i : Nat} {ph ph' : Phase} {pack : List UInt8} (hph : s.phaseAt i = some ph)
      (h : Packs ph pack ph') : Step limits etag s m ((s.putPackObject pack).goto i ph')
  | manifest {i : Nat} {answered : Bool} {work : Work} {after : Manifest}
      (hph : s.phaseAt i = some (.composed work after)) :
      Step limits etag s (.putManifest i answered)
        ((s.putManifestObject after).goto i
          (if answered then .stored work after else .answered [] (.error .backend)))
  | pointer {i : Nat} {answered : Bool} {work : Work} {after : Manifest}
      (hph : s.phaseAt i = some (.stored work after))
      (h : work.parentState.precond.holds s.store.pointer = true) :
      Step limits etag s (.putPointer i answered)
        ((s.install etag i after.digest).goto i
          (if answered then .won work after else .answered [] (.error .backend)))

/-- A push that is neither over nor past the write of the pointer ends in an error. -/
theorem Step.refuse {limits : PublishLimits} {etag : Nat → Digest → ETag} {s : Repo} {m : Move}
    {i : Nat} {ph : Phase} (hph : s.phaseAt i = some ph) (error : PushError)
    (hopen : ∀ w a, ph ≠ .won w a) (hpending : ∀ out r, ph ≠ .answered out r) :
    Step limits etag s m (s.failWith i error) :=
  .advance hph (.refuse hopen hpending)

/-- Every step is one of these. -/
theorem step_spec (limits : PublishLimits) (etag : Nat → Digest → ETag) (s : Repo) (m : Move) :
    Step limits etag s m (s.step limits etag m) := by
  cases m with
  | begin updates => exact .begin
  | fail i error =>
      show Step limits etag s _ (s.fail i error)
      unfold Repo.fail
      split
      · exact .stay
      · exact .stay
      · next ph hans hwon hph =>
          exact .refuse hph error hwon hans
      · exact .stay
  | getPointer i =>
      show Step limits etag s _ (s.getPointer i)
      unfold Repo.getPointer
      split
      · next hph =>
          split
          · next hnone => exact .advance hph (.pointerAbsent hnone)
          · next hsome => exact .advance hph (.pointer hsome)
      · exact .stay
  | getManifest i =>
      show Step limits etag s _ (s.getManifest i)
      unfold Repo.getManifest
      split
      · next hph =>
          split
          · exact .refuse hph _ nofun nofun
          · next hlookup =>
              split
              · exact .refuse hph _ nofun nofun
              · exact .advance hph (.manifest hlookup)
      · exact .stay
  | materialize i =>
      show Step limits etag s _ (s.materialize limits i)
      unfold Repo.materialize
      split
      · next hph =>
          split
          · exact .refuse hph _ nofun nofun
          · next hbytes => exact .advance hph (.materialized hbytes)
      · exact .stay
  | receivePack i exitOk stdout workspace =>
      show Step limits etag s _ (s.receivePack i exitOk stdout workspace)
      unfold Repo.receivePack
      split
      · next hph =>
          split
          · next hok =>
              rw [Bool.and_eq_true] at hok
              rw [hok.1]
              exact .advance hph .received
          · next hno => exact .advance hph (.rejected (Bool.eq_false_of_not_eq_true hno))
      · exact .stay
  | snapshotWorkspaceState i =>
      show Step limits etag s _ (s.snapshotWorkspaceState i)
      unfold Repo.snapshotWorkspaceState
      split
      · next hph =>
          split
          · exact .refuse hph _ nofun nofun
          · split
            · exact .refuse hph _ nofun nofun
            · next refsAfter hrefs =>
                dsimp only
                split
                · exact .advance hph (.snapshot rfl rfl hrefs rfl (.inl rfl) rfl)
                · exact .advance hph (.snapshot rfl rfl hrefs rfl (.inr rfl) rfl)
      · exact .stay
  | prepareCompaction i packs =>
      show Step limits etag s _ (s.prepareCompaction limits i packs)
      unfold Repo.prepareCompaction
      split
      · next hph =>
          split
          · exact .advance hph (.fallback (.inl rfl))
          · next hpacks =>
              split
              · exact .advance hph (.compacted hpacks)
              · exact .advance hph (.fallback (.inl rfl))
      · exact .stay
  | uploadCompactedPack i answered =>
      show Step limits etag s _ (s.uploadCompactedPack i answered)
      unfold Repo.uploadCompactedPack
      split
      · next hph =>
          dsimp only
          split
          · exact .pack hph .compacted
          · exact .pack hph .fallback
      · exact .stay
  | abandonCompaction i error =>
      show Step limits etag s _ (s.abandonCompaction i error)
      unfold Repo.abandonCompaction
      split
      · next hph => exact .advance hph (.fallback (.inr ⟨_, _, rfl⟩))
      · exact .stay
  | capturePack i output =>
      show Step limits etag s _ (s.capturePack limits i output)
      unfold Repo.capturePack
      split
      · next hph =>
          split
          · exact .refuse hph _ nofun nofun
          · next hnone => exact .advance hph (.noPack hnone)
          · next pack hpack =>
              have houtput : pack = output := by
                unfold captureOutput at hpack
                split at hpack
                · cases hpack
                · split at hpack
                  · cases hpack
                  · split at hpack <;> cases hpack
                    rfl
              rw [houtput] at hpack ⊢
              split
              · exact .refuse hph _ nofun nofun
              · split
                · exact .refuse hph _ nofun nofun
                · next hroom =>
                    exact .advance hph (.captured hpack (Nat.not_lt.1 hroom))
      · exact .stay
  | putPack i answered =>
      show Step limits etag s _ (s.putPack i answered)
      unfold Repo.putPack
      split
      · next hph =>
          dsimp only
          split
          · exact .pack hph .delta
          · exact .pack hph .lost
      · exact .stay
  | putManifest i answered =>
      show Step limits etag s _ (s.putManifest i answered)
      unfold Repo.putManifest
      split
      · next hph =>
          have hstep := @Step.manifest limits etag s i answered _ _ hph
          cases answered <;> exact hstep
      · exact .stay
  | putPointer i answered =>
      show Step limits etag s _ (s.putPointer etag i answered)
      unfold Repo.putPointer
      split
      · next hph =>
          split
          · next hholds =>
              have hstep := @Step.pointer limits etag s i answered _ _ hph hholds
              cases answered <;> exact hstep
          · split
            · next hanswered =>
                rw [hanswered]
                exact .advance hph .lostRace
            · exact .refuse hph _ nofun nofun
      · exact .stay
  | getWinner i =>
      show Step limits etag s _ (s.getWinner i)
      unfold Repo.getWinner
      split
      · next hph =>
          split
          · exact .refuse hph _ nofun nofun
          · exact .advance hph .winner
      · exact .stay
  | getWinnerManifest i =>
      show Step limits etag s _ (s.getWinnerManifest i)
      unfold Repo.getWinnerManifest
      split
      · next hph =>
          split
          · exact .refuse hph _ nofun nofun
          · split
            · exact .refuse hph _ nofun nofun
            · exact .advance hph .conflict
      · exact .stay
  | finish i failure =>
      show Step limits etag s _ (s.finish i failure)
      unfold Repo.finish
      split
      · next hph =>
          split
          · exact .advance hph .success
          · exact .advance hph .unannounced
      · exact .stay

/-! ## Every push -/

theorem pushers_goto {s : Repo} {i j : Nat} {ph : Phase} {p : Pusher}
    (h : (s.goto i ph).pushers[j]? = some p) :
    (j = i ∧ ∃ q, s.pushers[i]? = some q ∧ p = { q with phase := ph }) ∨
      (j ≠ i ∧ s.pushers[j]? = some p) := by
  have hmodify : (s.pushers.modify i fun p => { p with phase := ph })[j]? = some p := h
  rw [List.getElem?_modify] at hmodify
  obtain ⟨q, hq, hp⟩ := Option.map_eq_some_iff.1 hmodify
  by_cases hij : i = j
  · subst hij
    rw [if_pos rfl] at hp
    exact .inl ⟨rfl, q, hq, hp.symm⟩
  · rw [if_neg hij] at hp
    subst hp
    exact .inr ⟨fun heq => hij heq.symm, hq⟩

theorem phaseAt_eq {s : Repo} {i : Nat} {ph : Phase} {q : Pusher} (hph : s.phaseAt i = some ph)
    (hq : s.pushers[i]? = some q) : q.phase = ph := by
  unfold Repo.phaseAt at hph
  rw [hq] at hph
  exact Option.some.inj hph

/-- What holds of every push, by its number. -/
def AllPushers (P : Repo → Nat → Pusher → Prop) (s : Repo) : Prop :=
  ∀ i p, s.pushers[i]? = some p → P s i p

namespace AllPushers

theorem empty {P : Repo → Nat → Pusher → Prop} : AllPushers P {} := by
  intro i p hp
  rw [show ({} : Repo).pushers[i]? = none from List.getElem?_nil] at hp
  exact absurd hp.symm (Option.some_ne_none p)

variable {P : Repo → Nat → Pusher → Prop} {s s' : Repo}

/-- One push goes on; the others see what it did to the store. -/
theorem goto (h : AllPushers P s) {i : Nat} {ph ph' : Phase} (hph : s.phaseAt i = some ph)
    (hpushers : s'.pushers = s.pushers) (hkeep : ∀ j p, j ≠ i → P s j p → P (s'.goto i ph') j p)
    (hnew : ∀ q, s.pushers[i]? = some q → q.phase = ph → P s i q →
      P (s'.goto i ph') i { q with phase := ph' }) :
    AllPushers P (s'.goto i ph') := by
  intro j p hj
  rcases pushers_goto hj with ⟨rfl, q, hq, rfl⟩ | ⟨hne, hold⟩
  · rw [hpushers] at hq
    exact hnew q hq (phaseAt_eq hph hq) (h j q hq)
  · rw [hpushers] at hold
    exact hkeep j p hne (h j p hold)

theorem begin (h : AllPushers P s) (updates : List RefUpdate)
    (hkeep : ∀ j p, P s j p → P s' j p)
    (hnew : P s' s.pushers.length { updates := updates, began := s.history.length })
    (hpushers : s'.pushers = s.pushers ++ [{ updates := updates, began := s.history.length }]) :
    AllPushers P s' := by
  intro j p hj
  rw [hpushers] at hj
  rcases Lib.getElem?_snoc_cases hj with ⟨rfl, rfl⟩ | ⟨-, hold⟩
  · exact hnew
  · exact hkeep j p (h j p hold)

end AllPushers

end Buzz.Git
