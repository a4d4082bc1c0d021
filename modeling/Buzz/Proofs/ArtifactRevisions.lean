import Buzz.Db.Artifact
import Buzz.Lib.Machine

/-!
# The revisions of an artifact are one chain

A submission is validated and then compared with the head inside one transaction, under the
lock of its artifact. What a run accepts of one artifact is therefore a chain: it starts with
a create, and each revision names the one accepted just before it. The head row is the newest
revision's, whatever is redacted meanwhile, and of two submissions that name the same
revision at most one is accepted.
-/

namespace Buzz.Db.ArtifactDb

open Buzz.Core Buzz.Lib

/-! ## Runs -/

/-- An accepted revision. -/
structure Revision where
  id : EventId
  env : ArtifactEnvelope

/-- The tables with what was accepted into them. -/
structure ArtifactRun where
  db : ArtifactDb := {}
  /-- The revisions accepted so far, newest first. -/
  accepted : List Revision := []

/-- What can happen to the tables of the artifacts. -/
inductive ArtifactMove where
  | submit (event : Event) (content : String) (authorizedSource : Option Uuid) (signing : Signing)
  /-- An event of another kind is stored. -/
  | store (event : Event) (channelId : Option Uuid)
  | redact (channel : Uuid) (target : EventId)

/-- What the answer adds to the accepted revisions. -/
def ArtifactRun.record (s : ArtifactRun) (id : EventId) (env : ArtifactEnvelope) :
    ArtifactOutcome × ArtifactDb → ArtifactRun
  | (.accepted _, db) => ⟨db, ⟨id, env⟩ :: s.accepted⟩
  | (_, db) => ⟨db, s.accepted⟩

def ArtifactRun.step (codec : Codec) (s : ArtifactRun) : ArtifactMove → ArtifactRun
  | .submit event content authorizedSource signing =>
      match validate codec event content with
      | .error _ => s
      | .ok env => s.record event.id env (s.db.acceptArtifact event env authorizedSource signing)
  | .store event channelId => { s with db := s.db.insertEvent event channelId }
  | .redact channel target => { s with db := s.db.redact channel target }

def artifacts (codec : Codec) : Machine ArtifactRun ArtifactMove := ⟨{}, .step codec⟩

/-! ## Chains -/

/-- The head row a revision leaves. -/
def Revision.head (rev : Revision) : ArtifactHead where
  eventId := rev.id
  channelId := rev.env.home
  artifactType := rev.env.artifactType
  root := rev.env.root
  deleted := decide (rev.env.op = .delete)

/-- What a revision keeps of the one before it. -/
structure Follows (next last : Revision) : Prop where
  prev : next.env.prev = some last.id
  artifactType : next.env.artifactType = last.env.artifactType
  restores : next.env.op = .restore ↔ last.env.op = .delete
  moves : next.env.op = .move ↔ last.env.home ≠ next.env.home
  root : next.env.op = .delete → next.env.root = last.env.root

/-- One create and what followed it, newest first. -/
def IsChain : List Revision → Prop
  | [] => True
  | [first] => first.env.op = .create ∧ first.env.prev = none
  | next :: last :: rest => (next.env.op ≠ .create ∧ Follows next last) ∧ IsChain (last :: rest)

variable {l : List Revision}

theorem IsChain.prev_eq (h : IsChain l) {i : Nat} {rev : Revision}
    (hi : l[i]? = some rev) : rev.env.prev = (l[i + 1]?).map Revision.id := by
  induction l generalizing i with
  | nil => cases hi
  | cons next l ih =>
      cases l with
      | nil =>
          cases i with
          | zero =>
              cases hi
              exact h.2
          | succ i => cases hi
      | cons last rest =>
          cases i with
          | zero =>
              cases hi
              exact h.1.2.prev
          | succ i => exact ih h.2 hi

/-- No two revisions of a chain follow the same one. -/
theorem IsChain.noFork (h : IsChain l) (hnodup : (l.map Revision.id).Nodup)
    {a b : Revision} (ha : a ∈ l) (hb : b ∈ l) (hprev : a.env.prev = b.env.prev) :
    a = b := by
  obtain ⟨i, hi⟩ := List.getElem?_of_mem ha
  obtain ⟨j, hj⟩ := List.getElem?_of_mem hb
  have hil : i < l.length := (List.getElem?_eq_some_iff.1 hi).1
  have hjl : j < l.length := (List.getElem?_eq_some_iff.1 hj).1
  have hnext : (l.map Revision.id)[i + 1]? = (l.map Revision.id)[j + 1]? := by
    rw [List.getElem?_map, List.getElem?_map, ← h.prev_eq hi, ← h.prev_eq hj, hprev]
  have hij : i = j := by
    by_cases hlast : i + 1 < l.length
    · have heq := (List.getElem?_inj (by rwa [List.length_map]) hnodup).1 hnext
      omega
    · rw [List.getElem?_eq_none (by rw [List.length_map]; omega)] at hnext
      have hnone := List.getElem?_eq_none_iff.1 hnext.symm
      rw [List.length_map] at hnone
      omega
  rw [hij, hj] at hi
  exact (Option.some.inj hi).symm

/-! ## Submissions -/

variable {codec : Codec} {event : Event} {content : String} {env : ArtifactEnvelope}
  {db : ArtifactDb} {current : Option ArtifactHead} {source : Option Uuid} {signing : Signing}

/-- Only a create follows nothing. -/
theorem prev_of_validate (h : validate codec event content = .ok env) :
    env.op = .create ↔ env.prev = none := by
  unfold validate at h
  split at h
  · cases h
  · split at h
    · cases h
    · split at h
      · cases h
      · split at h
        · cases h
        · next scan _ _ =>
            unfold EnvelopeScan.envelope at h
            simp only [bind, Except.bind, pure, Except.pure] at h
            repeat' (split at h)
            all_goals cases h
            rename_i hprev _ _ _ _ _ _
            rw [ne_eq, not_not] at hprev
            dsimp only
            rw [← Option.isNone_iff_eq_none, ← hprev, decide_eq_true_eq]

/-- A revision that follows the head follows the revision the head is of. -/
theorem checkHead_eq_none (h : checkHead current env source = none) :
    (current = none ∧ env.op = .create) ∨
      ∃ old, current = some old ∧ env.op ≠ .create ∧ env.prev = some old.eventId ∧
        env.artifactType = old.artifactType ∧ old.deleted = decide (env.op = .restore) ∧
        decide (env.op = .move) = decide (old.channelId ≠ env.home) ∧
        (env.op = .delete → env.root = old.root) := by
  unfold checkHead at h
  split at h
  · split at h
    · next hop => exact .inl ⟨rfl, hop⟩
    · cases h
  · next old =>
      split at h
      · cases h
      · next hop =>
          by_cases hsource :
              some old.channelId ≠ (if env.op = .move then source else some env.home)
          · rw [if_pos hsource] at h
            cases h
          · rw [if_neg hsource] at h
            repeat' (split at h)
            all_goals cases h
            next hprev htype hdeleted hmove hroot =>
              refine .inr ⟨old, rfl, hop, not_not.1 hprev, not_not.1 htype, not_not.1 hdeleted,
                not_not.1 hmove, fun hdelete => ?_⟩
              exact not_not.1 fun hne => hroot ⟨hdelete, hne⟩

theorem insertEvent_kept (event : Event) (channelId : Option Uuid) :
    (db.insertEvent event channelId).heads = db.heads ∧
      (db.insertEvent event channelId).revisions = db.revisions := by
  unfold insertEvent
  split <;> exact ⟨rfl, rfl⟩

theorem redact_kept (channel : Uuid) (target : EventId) :
    (db.redact channel target).heads = db.heads ∧
      (db.redact channel target).revisions = db.revisions := by
  unfold redact
  split
  · split <;> exact ⟨rfl, rfl⟩
  · exact ⟨rfl, rfl⟩

theorem writeRevision_kept :
    (db.writeRevision event env).heads =
        HMap.alter db.heads env.id (fun old => some (revisedHead event env old)) ∧
      (db.writeRevision event env).revisions = event.id :: db.revisions :=
  insertEvent_kept event (some env.home)

/-- A submission is accepted and written, or leaves the database as it was. -/
theorem acceptArtifact_cases {s : ArtifactRun} :
    (event.id ∉ s.db.revisions ∧ checkHead (s.db.heads.lookup env.id) env source = none ∧
      ∃ db', s.record event.id env (s.db.acceptArtifact event env source signing) =
          ⟨db', ⟨event.id, env⟩ :: s.accepted⟩ ∧
        db'.heads = HMap.alter s.db.heads env.id (fun old => some (revisedHead event env old)) ∧
        db'.revisions = event.id :: s.db.revisions) ∨
      s.record event.id env (s.db.acceptArtifact event env source signing) = s := by
  unfold acceptArtifact
  split
  · exact .inr rfl
  · next hnew =>
      dsimp only
      split
      · next outcome hrefused =>
          refine .inr ?_
          unfold checkHead at hrefused
          repeat' (split at hrefused)
          all_goals cases hrefused
          all_goals rfl
      · next hchecked =>
          split
          · exact .inr rfl
          · refine .inl ⟨hnew, hchecked, ?_⟩
            split
            · exact ⟨_, rfl, (insertEvent_kept _ _).1.trans writeRevision_kept.1,
                (insertEvent_kept _ _).2.trans writeRevision_kept.2⟩
            · exact ⟨_, rfl, writeRevision_kept⟩

/-- The upsert keeps the old type, which is the revision's own. -/
theorem revisedHead_eq (h : checkHead current env source = none) :
    revisedHead event env current = Revision.head ⟨event.id, env⟩ := by
  rcases checkHead_eq_none h with ⟨rfl, -⟩ | ⟨old, rfl, -, -, htype, -⟩
  · rfl
  · unfold revisedHead Revision.head
    rw [htype]
    rfl

/-- A revision that passes the check against the newest one makes the chain longer. -/
theorem IsChain.cons (h : IsChain l)
    (hchecked : checkHead (l.head?.map Revision.head) env source = none)
    (hprev : env.op = .create ↔ env.prev = none) (id : EventId) :
    IsChain (⟨id, env⟩ :: l) := by
  cases l with
  | nil =>
      rcases checkHead_eq_none hchecked with ⟨-, hop⟩ | ⟨old, hold, -⟩
      · exact ⟨hop, hprev.1 hop⟩
      · cases hold
  | cons last rest =>
      rcases checkHead_eq_none hchecked with
        ⟨hnone, -⟩ | ⟨old, hold, hop, hnext, htype, hdeleted, hmove, hroot⟩
      · cases hnone
      · cases hold
        exact ⟨⟨hop, hnext, htype, (decide_eq_decide.1 hdeleted).symm, decide_eq_decide.1 hmove,
          hroot⟩, h⟩

/-! ## The invariant -/

/-- The accepted revisions of one artifact, newest first. -/
def ArtifactRun.revisionsOf (s : ArtifactRun) (artifact : Uuid) : List Revision :=
  s.accepted.filter fun rev => rev.env.id = artifact

/-- The accepted revisions of each artifact are a chain, and the tables hold its
head and the ids of all of them. -/
structure Versioned (s : ArtifactRun) : Prop where
  chain : ∀ artifact, IsChain (s.revisionsOf artifact)
  head : ∀ artifact,
    s.db.heads.lookup artifact = (s.revisionsOf artifact).head?.map Revision.head
  ledger : s.db.revisions = s.accepted.map Revision.id
  once : (s.accepted.map Revision.id).Nodup

namespace Versioned

variable {s : ArtifactRun}

theorem start : Versioned {} where
  chain _ := trivial
  head _ := rfl
  ledger := rfl
  once := List.nodup_nil

/-- Only the heads and the ledger of the database count. -/
theorem congr (h : Versioned s)
    (hkept : db.heads = s.db.heads ∧ db.revisions = s.db.revisions) :
    Versioned { s with db := db } where
  chain := h.chain
  head artifact := by
    rw [hkept.1]
    exact h.head artifact
  ledger := hkept.2.trans h.ledger
  once := h.once

theorem submit (h : Versioned s) (hprev : env.op = .create ↔ env.prev = none) :
    Versioned (s.record event.id env (s.db.acceptArtifact event env source signing)) := by
  rcases acceptArtifact_cases (s := s) with ⟨hnew, hchecked, db', hrecord, hheads, hrevisions⟩ | hsame
  · rw [hrecord]
    have hfilter : ∀ artifact,
        ArtifactRun.revisionsOf ⟨db', ⟨event.id, env⟩ :: s.accepted⟩ artifact =
          if env.id = artifact then ⟨event.id, env⟩ :: s.revisionsOf artifact
          else s.revisionsOf artifact := by
      intro artifact
      unfold ArtifactRun.revisionsOf
      rw [List.filter_cons]
      simp only [decide_eq_true_eq]
    rw [h.head env.id] at hchecked
    refine ⟨fun artifact => ?_, fun artifact => ?_, ?_, ?_⟩
    · rw [hfilter artifact]
      split
      · next hid =>
          subst hid
          exact (h.chain env.id).cons hchecked hprev event.id
      · exact h.chain artifact
    · rw [hheads, HMap.lookup_alter, hfilter artifact]
      by_cases hid : env.id = artifact
      · subst hid
        rw [if_pos rfl, if_pos rfl, h.head env.id, revisedHead_eq hchecked]
        rfl
      · rw [if_neg (Ne.symm hid), if_neg hid]
        exact h.head artifact
    · rw [hrevisions, h.ledger]
      rfl
    · refine List.nodup_cons.2 ⟨?_, h.once⟩
      rw [← h.ledger]
      exact hnew
  · rw [hsame]
    exact h

theorem step (h : Versioned s) (m : ArtifactMove) : Versioned (s.step codec m) := by
  cases m with
  | submit event content authorizedSource signing =>
      unfold ArtifactRun.step
      dsimp only
      split
      · exact h
      · next env hvalid => exact h.submit (prev_of_validate hvalid)
  | store event channelId => exact h.congr (insertEvent_kept event channelId)
  | redact channel target => exact h.congr (redact_kept channel target)

end Versioned

/-- Whatever is submitted, stored and redacted, in whatever order: the accepted revisions of
an artifact are one chain without forks, and its head is the newest of them. -/
theorem artifact_revisions_chain (codec : Codec) (ms : List ArtifactMove) (artifact : Uuid) :
    IsChain (((artifacts codec).run ms).revisionsOf artifact) ∧
      (∀ a ∈ ((artifacts codec).run ms).revisionsOf artifact,
        ∀ b ∈ ((artifacts codec).run ms).revisionsOf artifact,
          a.env.prev = b.env.prev → a = b) ∧
      ((artifacts codec).run ms).db.heads.lookup artifact =
        (((artifacts codec).run ms).revisionsOf artifact).head?.map Revision.head ∧
      (((artifacts codec).run ms).accepted.map Revision.id).Nodup := by
  have h : Versioned ((artifacts codec).run ms) :=
    (artifacts codec).stable_runFrom (fun _ m hs => hs.step m) .start ms
  refine ⟨h.chain artifact, fun a ha b hb hprev => ?_, h.head artifact, h.once⟩
  refine (h.chain artifact).noFork ?_ ha hb hprev
  exact h.once.sublist (List.filter_sublist.map _)

end Buzz.Db.ArtifactDb
