import Buzz.Lib.PktLine
import Buzz.Proofs.PushChain

/-!
# What a client is told

The response of a push is git's own report, and git says `ok` of a ref once it
is written in the working repository. Whether that was published is for the
relay to know: it publishes the working repository as a whole, or nothing where
git rejected any of the refs. So the report is true where everything went
through and where nothing did. In between, what git says `ok` of is thrown away
with the rest.
-/

namespace Buzz.Git

open Buzz.Lib (pktGroup)

variable {limits : PublishLimits} {etag : Nat → Digest → ETag}

/-! ## The snapshot -/

theorem RefMap.mem_insert {m : RefMap} {name : RefName} {oid : Oid} {e : RefName × Oid} :
    e ∈ (m.insert name oid).entries ↔ e = (name, oid) ∨ (e ∈ m.entries ∧ e.1 ≠ name) := by
  unfold RefMap.insert
  rw [List.mem_orderedInsert, List.mem_filter, decide_eq_true_iff]

/-- An object id as `for-each-ref` prints it. -/
def isSha1 (oid : Oid) : Bool := oid.length == 40 && oid.all isAsciiHexdigit

theorem RefMap.nodup_keys (m : RefMap) : (m.entries.map Prod.fst).Nodup :=
  List.pairwise_map.2 (m.sorted.imp fun hlt => hlt.ne)

/-- The entries of a map, put into another one. -/
theorem RefMap.mem_foldl_insert {l : List (RefName × Oid)} (hnames : (l.map Prod.fst).Nodup)
    (m : RefMap) (e : RefName × Oid) :
    e ∈ (l.foldl (fun m e => m.insert e.1 e.2) m).entries ↔
      e ∈ l ∨ (e ∈ m.entries ∧ e.1 ∉ l.map Prod.fst) := by
  induction l generalizing m with
  | nil => simp
  | cons a l ih =>
      obtain ⟨hfresh, hrest⟩ := List.nodup_cons.1 hnames
      rw [List.foldl_cons, ih hrest, RefMap.mem_insert, List.mem_cons, List.map_cons,
        List.mem_cons, not_or]
      constructor
      · rintro (hmem | ⟨rfl | ⟨hmem, hne⟩, hnot⟩)
        · exact .inl (.inr hmem)
        · exact .inl (.inl rfl)
        · exact .inr ⟨hmem, hne, hnot⟩
      · rintro ((rfl | hmem) | ⟨hmem, hne, hnot⟩)
        · exact .inr ⟨.inl rfl, hfresh⟩
        · exact .inl hmem
        · exact .inr ⟨.inr ⟨hmem, hne⟩, hnot⟩

theorem RefMap.foldl_insert_entries (m : RefMap) :
    m.entries.foldl (fun m e => m.insert e.1 e.2) .empty = m := by
  refine RefMap.ext ((RefMap.sorted _).ext m.sorted fun e => ?_)
  rw [RefMap.mem_foldl_insert m.nodup_keys]
  exact or_iff_left fun h => nomatch h.1

/-- Where every id is one, no line is passed over. -/
theorem snapshotRefs_foldl {l : List (RefName × Oid)} {refs r : RefMap}
    (hoids : ∀ e ∈ l, isSha1 e.2 = true) (h : snapshotRefs refs l = some r) :
    r = l.foldl (fun m e => m.insert e.1 e.2) refs := by
  induction l generalizing refs with
  | nil =>
      cases h
      rfl
  | cons entry rest ih =>
      obtain ⟨name, oid⟩ := entry
      have hoid : isSha1 oid = true := hoids _ List.mem_cons_self
      unfold snapshotRefs at h
      rw [if_neg (by simpa [isSha1] using hoid)] at h
      split at h
      · cases h
      · exact ih (fun e he => hoids e (List.mem_cons_of_mem _ he)) h

/-- What is published is what is in the working repository. -/
theorem snapshotRefs_eq {m r : RefMap} (hoids : ∀ e ∈ m.entries, isSha1 e.2 = true)
    (h : snapshotRefs .empty m.entries = some r) : r = m := by
  rw [snapshotRefs_foldl hoids h, RefMap.foldl_insert_entries]

/-! ## Reports -/

/-- Git's side: an object id has forty hex digits, and a ref is `ok` where it was
updated as the client asked. -/
def reportsTruly (sideBand : Nat → Bool) (s : Repo) : Move → Bool
  | .receivePack i _ stdout workspace =>
      workspace.refs.entries.all (fun e => isSha1 e.2) &&
        (s.pushers[i]?).all fun p =>
          p.updates.all fun u =>
            !reportsOk (sideBand i) stdout u.name || workspace.refs.get u.name = u.target
  | _ => true

/-- A report that is taken for a rejection says `ok` of nothing the client asked
for. -/
def rejectsWhole (sideBand : Nat → Bool) (s : Repo) : Move → Bool
  | .receivePack i exitOk stdout _ =>
      (exitOk && !receivePackReportRejected stdout) ||
        (s.pushers[i]?).all fun p =>
          p.updates.all fun u => !reportsOk (sideBand i) stdout u.name
  | _ => true

/-- The response is of a push that is said to have published nothing. -/
def Response.unpublished : Response → Bool
  | .success none => true
  | .conflict _ _ => true
  | .error _ => true
  | .success (some _) => false
  | .unannounced _ _ => false

/-- What clients were told is so. -/
structure Honest (sideBand : Nat → Bool) (s : Repo) : Prop where
  /-- A ref that is `ok` is in a manifest this push made the pointer. -/
  told : ∀ (i : Nat) (p : Pusher) (stdout : List UInt8) (published : Option Digest)
    (u : RefUpdate), s.pushers[i]? = some p → p.phase = .answered stdout (.success published) →
      u ∈ p.updates → reportsOk (sideBand i) stdout u.name = true →
        ∃ e ∈ s.history, e.pusher = i ∧
          ∃ m, s.store.manifests.lookup e.digest = some m ∧ m.refs.get u.name = u.target
  untouched : ∀ (i : Nat) (p : Pusher) (stdout : List UInt8) (response : Response),
    s.pushers[i]? = some p → p.phase = .answered stdout response →
      response.unpublished = true → ∀ e ∈ s.history, e.pusher ≠ i

/-! ## What a push has promised -/

/-- The updates the report says `ok` of are in these refs. -/
def Covered (sideBand : Bool) (updates : List RefUpdate) (stdout : List UInt8) (refs : RefMap) :
    Prop :=
  ∀ u ∈ updates, reportsOk sideBand stdout u.name = true → refs.get u.name = u.target

/-- The push made a manifest with such refs the pointer. -/
def Published (s : Repo) (i : Nat) (digest : Digest) (good : RefMap → Prop) : Prop :=
  ⟨digest, i⟩ ∈ s.history ∧ ∃ m, s.store.manifests.lookup digest = some m ∧ good m.refs

def Promise (sideBand : Bool) (updates : List RefUpdate) (s : Repo) (i : Nat) : Phase → Prop
  | .received _ _ stdout workspace =>
      (∀ e ∈ workspace.refs.entries, isSha1 e.2 = true) ∧
        Covered sideBand updates stdout workspace.refs
  | .compactable work => Covered sideBand updates work.stdout work.refsAfter
  | .compacting work _ _ => Covered sideBand updates work.stdout work.refsAfter
  | .capturing work _ => Covered sideBand updates work.stdout work.refsAfter
  | .captured work _ => Covered sideBand updates work.stdout work.refsAfter
  | .composed work after => Covered sideBand updates work.stdout after.refs
  | .stored work after => Covered sideBand updates work.stdout after.refs
  | .won work after => Published s i after.digest (Covered sideBand updates work.stdout)
  | .answered stdout (.success none) =>
      ∀ u ∈ updates, reportsOk sideBand stdout u.name = false
  | .answered stdout (.success (some digest)) =>
      Published s i digest (Covered sideBand updates stdout)
  | _ => True

/-- Nothing that was published is taken back. -/
theorem Step.published {s s' : Repo} {m : Move} (h : Step limits etag s m s') {i : Nat}
    {digest : Digest} {good : RefMap → Prop} (hs : Published s i digest good) :
    Published s' i digest good := by
  cases h with
  | manifest hph =>
      obtain ⟨hmem, m, hm, hgood⟩ := hs
      exact ⟨hmem, m, putImmutable_keeps hm, hgood⟩
  | pointer hph hholds => exact ⟨List.mem_cons_of_mem _ hs.1, hs.2⟩
  | _ => exact hs

section Promise

variable {sideBand : Bool} {updates : List RefUpdate} {s : Repo} {i : Nat}

theorem Step.promise {s' : Repo} {m : Move} (h : Step limits etag s m s') {ph : Phase}
    (hph : Promise sideBand updates s i ph) : Promise sideBand updates s' i ph := by
  cases ph with
  | won work after => exact h.published hph
  | answered stdout response =>
      cases response with
      | success published =>
          cases published with
          | none => exact hph
          | some digest => exact h.published hph
      | _ => exact trivial
  | _ => exact hph

theorem promise_publishPhase {work : Work} {after : Manifest}
    (h : Covered sideBand updates work.stdout after.refs) :
    Promise sideBand updates s i (publishPhase work after) := by
  unfold publishPhase
  split
  · exact trivial
  · exact h

theorem promise_continueCompaction {work : Work} (todo : List (List UInt8)) (keys : List Digest)
    (h : Covered sideBand updates work.stdout work.refsAfter) :
    Promise sideBand updates s i (continueCompaction work todo keys) := by
  unfold continueCompaction
  split
  · exact promise_publishPhase h
  · exact h

theorem Packs.promise {pack : List UInt8} {ph ph' : Phase} (h : Packs ph pack ph')
    (hph : Promise sideBand updates s i ph) : Promise sideBand updates s i ph' := by
  cases h with
  | compacted => exact promise_continueCompaction _ _ hph
  | fallback => exact hph
  | delta => exact promise_publishPhase hph
  | lost => exact trivial

end Promise

/-- Going on without the store keeps the promise, if git reports truly and a
rejection is one of everything. -/
theorem Advance.promise {sideBand : Nat → Bool} {s : Repo} {i : Nat} {m : Move} {p : Pusher}
    {ph ph' : Phase} (h : Advance limits s.store i m ph ph') (hp : s.pushers[i]? = some p)
    (htruly : reportsTruly sideBand s m = true) (hwhole : rejectsWhole sideBand s m = true)
    (hph : Promise (sideBand i) p.updates s i ph) :
    Promise (sideBand i) p.updates s i ph' := by
  cases h with
  | received =>
      unfold reportsTruly at htruly
      dsimp only at htruly
      rw [hp, Bool.and_eq_true, List.all_eq_true, Option.all_some, List.all_eq_true] at htruly
      refine ⟨htruly.1, fun u hu hok => ?_⟩
      have hu := htruly.2 u hu
      rw [hok] at hu
      exact of_decide_eq_true hu
  | rejected hno =>
      unfold rejectsWhole at hwhole
      dsimp only at hwhole
      rw [hp, hno, Bool.false_or, Option.all_some, List.all_eq_true] at hwhole
      intro u hu
      exact Bool.not_eq_true' _ ▸ hwhole u hu
  | snapshot _ hstdout hrefs _ hnext =>
      obtain ⟨hoids, hcovered⟩ := hph
      rw [← snapshotRefs_eq hoids hrefs, ← hstdout] at hcovered
      rcases hnext with rfl | rfl
      · exact hcovered
      · exact hcovered
  | compacted _ => exact promise_continueCompaction _ _ hph
  | fallback hfrom =>
      rcases hfrom with rfl | ⟨todo, keys, rfl⟩
      · exact hph
      · exact hph
  | noPack _ => exact promise_publishPhase hph
  | captured => exact hph
  | success => exact hph
  | refuse _ _ => exact trivial
  | pointerAbsent _ => exact trivial
  | pointer _ => exact trivial
  | manifest _ => exact trivial
  | materialized => exact trivial
  | lostRace => exact trivial
  | winner => exact trivial
  | conflict => exact trivial
  | unannounced => exact trivial

/-! ## Runs -/

def Promised (sideBand : Nat → Bool) (s : Repo) (i : Nat) (p : Pusher) : Prop :=
  Promise (sideBand i) p.updates s i p.phase

theorem promised_step {sideBand : Nat → Bool} {s s' : Repo} {m : Move}
    (hchained : Chained True etag s)
    (hfree : CollisionFree (s.putManifests.map Manifest.canonicalBytes))
    (h : AllPushers (Promised sideBand) s) (htruly : reportsTruly sideBand s m = true)
    (hwhole : rejectsWhole sideBand s m = true) (hstep : Step limits etag s m s') :
    AllPushers (Promised sideBand) s' := by
  have hkeep : ∀ j p, Promised sideBand s j p → Promised sideBand s' j p :=
    fun j p hp => hstep.promise hp
  cases hstep with
  | stay => exact h
  | begin => exact h.begin _ hkeep trivial rfl
  | advance hph hadvance =>
      refine h.goto hph rfl (fun j p _ => hkeep j p) fun q hq hphase hp => ?_
      rw [Promised, hphase] at hp
      have hnext := hadvance.promise hq htruly hwhole hp
      exact hkeep _ { q with phase := _ } hnext
  | pack hph hpacks =>
      refine h.goto hph rfl (fun j p _ => hkeep j p) fun q hq hphase hp => ?_
      rw [Promised, hphase] at hp
      exact hkeep _ { q with phase := _ } (hpacks.promise hp)
  | @manifest i answered work after hph =>
      refine h.goto hph rfl (fun j p _ => hkeep j p) fun q hq hphase hp => ?_
      rw [Promised, hphase] at hp
      cases answered with
      | false => exact trivial
      | true => exact hp
  | @pointer i answered work after hph hholds =>
      refine h.goto hph rfl (fun j p _ => hkeep j p) fun q hq hphase hp => ?_
      rw [Promised, hphase] at hp
      have hok := (hchained.pushers i q hq).2
      rw [hphase] at hok
      obtain ⟨-, hput, stored, hstored⟩ := hok
      have heq := hchained.lookup_stored hfree hput hstored
      cases answered with
      | false => exact trivial
      | true =>
          refine ⟨List.mem_cons_self, stored, hstored, ?_⟩
          rw [heq]
          exact hp

/-- The conditions on a step. -/
def ReportsWell (sideBand : Nat → Bool) (s : Repo) (m : Move) : Prop :=
  rejectsWhole sideBand s m = true ∧ answerArrives s m = true

theorem promised_run (limits : PublishLimits) {sideBand : Nat → Bool}
    (hdiffer : ∀ n n' d d', etag n d = etag n' d' → d = d') {ms : List Move}
    (htruly : (gitRepo limits etag).Meets (fun s m => reportsTruly sideBand s m = true)
      (gitRepo limits etag).init ms)
    (hwell : (gitRepo limits etag).Meets (ReportsWell sideBand) (gitRepo limits etag).init ms)
    (hfree : CollisionFree
      (((gitRepo limits etag).run ms).putManifests.map Manifest.canonicalBytes)) :
    Chained True etag ((gitRepo limits etag).run ms) ∧
      AllPushers (Promised sideBand) ((gitRepo limits etag).run ms) := by
  refine (gitRepo limits etag).inv_run
    (I := fun s => CollisionFree (s.putManifests.map Manifest.canonicalBytes) →
      Chained True etag s ∧ AllPushers (Promised sideBand) s)
    (fun _ => ⟨Chained.init, .empty⟩) ?_ ((gitRepo limits etag).meets_and htruly hwell) hfree
  rintro s m hs ⟨htruly, hwhole, harrives⟩ hfree'
  have hstep := step_spec limits etag s m
  have hbefore := collisionFree_of_step hstep hfree'
  obtain ⟨hchained, hpromised⟩ := hs hbefore
  exact ⟨hchained.step hdiffer hbefore (fun _ => harrives) hstep,
    promised_step hchained hbefore hpromised htruly hwhole hstep⟩

/-- Clients are told what is so, where a report that is taken for a rejection has
no `ok` in it and no answer to a write of the pointer is lost. -/
theorem clients_told_truly (limits : PublishLimits) (etag : Nat → Digest → ETag)
    (hdiffer : ∀ n n' d d', etag n d = etag n' d' → d = d') (sideBand : Nat → Bool)
    (ms : List Move)
    (htruly : (gitRepo limits etag).Meets (fun s m => reportsTruly sideBand s m = true)
      (gitRepo limits etag).init ms)
    (hwell : (gitRepo limits etag).Meets (ReportsWell sideBand) (gitRepo limits etag).init ms)
    (hfree : CollisionFree
      (((gitRepo limits etag).run ms).putManifests.map Manifest.canonicalBytes)) :
    Honest sideBand ((gitRepo limits etag).run ms) := by
  obtain ⟨hchained, hpromised⟩ := promised_run limits hdiffer htruly hwell hfree
  constructor
  · intro i p stdout published u hp hphase hu hok
    have hpromise := hpromised i p hp
    rw [Promised, hphase] at hpromise
    cases published with
    | none =>
        rw [hpromise u hu] at hok
        cases hok
    | some digest =>
        obtain ⟨hmem, m, hm, hcovered⟩ := hpromise
        exact ⟨_, hmem, rfl, m, hm, hcovered u hu hok⟩
  · intro i p stdout response hp hphase hunpublished
    have hok := (hchained.pushers i p hp).2
    rw [hphase] at hok
    cases response with
    | success published =>
        cases published with
        | none => exact hok
        | some digest => cases hunpublished
    | conflict m digest => exact hok
    | error e => exact hok trivial
    | unannounced digest status => cases hunpublished

/-! ## Two refs in one push -/

/-- A report on the side band, in one packet. -/
def sideBandReport (lines : List String) : List UInt8 :=
  pktGroup [1 :: pktGroup (lines.map fun line => Audit.utf8 line.toList)]

def topicRef : RefName := "refs/heads/main/topic".toList

/-- Two new refs, of which git can make only one: the name of the other would
need the first as a directory. -/
def partialPush : List Move :=
  [.begin [⟨mainRef, some (List.replicate 40 'a')⟩, ⟨topicRef, some (List.replicate 40 'b')⟩],
    .getPointer 0,
    .receivePack 0 true
      (sideBandReport
        ["unpack ok\n", "ok refs/heads/main\n",
          "ng refs/heads/main/topic failed to update ref\n"])
      (mainWorkspace (List.replicate 40 'a'))]

/-- One ref, published; `answered` says whether the answer to the write of the
pointer came back. -/
def wholePush (answered : Bool) : List Move :=
  [.begin [⟨mainRef, some (List.replicate 40 'a')⟩],
    .getPointer 0,
    .receivePack 0 true (sideBandReport ["unpack ok\n", "ok refs/heads/main\n"])
      (mainWorkspace (List.replicate 40 'a')),
    .snapshotWorkspaceState 0, .capturePack 0 [1], .putPack 0 true, .putManifest 0 true,
    .putPointer 0 answered, .finish 0 none]

/-- Of the ref that git made the client is told `ok`, and nothing is published.
And a push whose answer is lost is told to have failed, and is published. -/
theorem partial_rejection_told_ok :
    ((gitRepo wideLimits bodyTag).Meets (fun s m => reportsTruly (fun _ => true) s m = true)
        (gitRepo wideLimits bodyTag).init partialPush ∧
      ¬ Honest (fun _ => true) ((gitRepo wideLimits bodyTag).run partialPush)) ∧
    (gitRepo wideLimits bodyTag).Meets (fun s m => reportsTruly (fun _ => true) s m = true)
        (gitRepo wideLimits bodyTag).init (wholePush false) ∧
      ¬ Honest (fun _ => true) ((gitRepo wideLimits bodyTag).run (wholePush false)) := by
  refine ⟨⟨by decide +kernel, fun h => ?_⟩, by decide +kernel, fun h => ?_⟩
  · have htold := h.told 0
      ⟨[⟨mainRef, some (List.replicate 40 'a')⟩, ⟨topicRef, some (List.replicate 40 'b')⟩], 0,
        .answered
          (sideBandReport
            ["unpack ok\n", "ok refs/heads/main\n",
              "ng refs/heads/main/topic failed to update ref\n"])
          (.success none)⟩
      _ none ⟨mainRef, some (List.replicate 40 'a')⟩ (by decide +kernel) rfl List.mem_cons_self
      (by decide +kernel)
    obtain ⟨e, he, -⟩ := htold
    have hhistory : ((gitRepo wideLimits bodyTag).run partialPush).history = [] := by
      decide +kernel
    rw [hhistory] at he
    cases he
  · have hsilent := h.untouched 0
      ⟨[⟨mainRef, some (List.replicate 40 'a')⟩], 0, .answered [] (.error .backend)⟩ _ _
      (by decide +kernel) rfl rfl
    have hhistory : ∃ e ∈ ((gitRepo wideLimits bodyTag).run (wholePush false)).history,
        e.pusher = 0 := by decide +kernel
    obtain ⟨e, he, hpusher⟩ := hhistory
    exact hsilent e he hpusher

theorem clients_told_truly_whole :
    ((gitRepo wideLimits bodyTag).run (wholePush true)).history.map Install.pusher = [0] ∧
      Honest (fun _ => true) ((gitRepo wideLimits bodyTag).run (wholePush true)) := by
  refine ⟨by decide +kernel, ?_⟩
  refine clients_told_truly wideLimits bodyTag ?_ (fun _ => true) (wholePush true) ?_ ?_ ?_
  · intro n n' d d' h
    exact Bytes32.ext (hexEncode_injective h)
  · decide +kernel
  · unfold ReportsWell
    decide +kernel
  · unfold CollisionFree
    decide +kernel

end Buzz.Git
