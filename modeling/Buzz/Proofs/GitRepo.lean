import Buzz.Relay.GitRepo

/-!
# Who owns a repository name

An announcement is safe once it relies on a row of the name registry: the row
is there, it names the announcement's owner, and only the one attempt that
inserted it may still take it away. Two things break this. The rollback of a
fresh attempt deletes the row by name and owner, so it also deletes it under a
sibling of the same owner that found it there; and the pointer's key drops a
`.git` that the row's key keeps, so two names of one owner can mean one
pointer. The runs below stay clear of both.
-/

namespace Buzz.Relay

open Buzz.Lib

namespace Attempt

/-- The attempt has found or made its row and has not failed. -/
def relies (a : Attempt) : Bool :=
  match a.phase with
  | .lookup | .count | .reserve | .failed => false
  | _ => true

end Attempt

/-- The call may delete the row of the attempt's name. -/
def CallReply.mayApply : CallReply → Bool
  | .ok => true
  | .fail applied => applied

/-- A rollback finds no sibling of its owner that relies on the row, and an
announcement differs from its owner's others by more than a `.git`. -/
def GitState.steady (s : GitState) : GitMove → Bool
  | .call i reply =>
      match s.attempts[i]? with
      | some a =>
          !(a.phase = .release && reply.mayApply) ||
            (s.attempts.eraseIdx i).all fun b =>
              !(b.relies && b.nameKey = a.nameKey && b.owner = a.owner)
      | none => true
  | .announce community event =>
      match (extractTagValue event "d").filter validateRepoId with
      | some repoId =>
          s.attempts.all fun b =>
            b.phase = .failed || !(b.community = community && b.owner = event.pubkey &&
              stripGit b.repoId.toList = stripGit repoId.toList) || b.repoId = repoId
      | none => true
  | _ => true

/-- What an accepted announcement is promised. -/
structure GitState.Owned (s : GitState) : Prop where
  name : ∀ a ∈ s.attempts, a.phase = .accepted →
    s.repoNameOwner a.community a.repoId = some a.ownerHex
  pointer : ∀ a ∈ s.attempts, a.phase = .accepted → (s.pointers.lookup a.pointer).isSome
  oneOwner : ∀ a ∈ s.attempts, ∀ b ∈ s.attempts, a.phase = .accepted → b.phase = .accepted →
    a.nameKey = b.nameKey → a.owner = b.owner
  ownPointer : ∀ a ∈ s.attempts, ∀ b ∈ s.attempts, a.phase = .accepted → b.phase = .accepted →
    a.community = b.community → a.repoId ≠ b.repoId → a.pointer ≠ b.pointer

/-! ## The pointer key -/

/-- Within a community the key tells owners apart, and names up to `.git`. -/
theorem pointerKey_eq {community : CommunityId} {owner owner' : PublicKey} {repo repo' : String}
    (h : pointerKey community owner.toHex repo = pointerKey community owner'.toHex repo') :
    owner = owner' ∧ stripGit repo.toList = stripGit repo'.toList := by
  have hlist := congrArg String.toList h
  unfold pointerKey at hlist
  simp only [String.toList_append, String.toList_ofList, List.append_assoc] at hlist
  have hrest := List.append_cancel_left (List.append_cancel_left
    (List.append_cancel_left hlist))
  have hlen : owner.toHex.toList.length = owner'.toHex.toList.length := by
    unfold Bytes32.toHex
    rw [String.toList_ofList, String.toList_ofList, hexEncode_length, hexEncode_length,
      owner.size, owner'.size]
  obtain ⟨howner, hrepo⟩ := List.append_inj hrest hlen
  refine ⟨Bytes32.toHex_injective (String.toList_inj.1 howner), ?_⟩
  exact List.append_cancel_right (List.append_cancel_left hrepo)

/-! ## What one call can do -/

section Exec

variable {cfg : GitConfig} {g : GitStores} {a : Attempt} {r : CallReply}

/-- The identity of an attempt never changes. -/
structure Attempt.Same (a b : Attempt) : Prop where
  community : b.community = a.community
  repoId : b.repoId = a.repoId
  owner : b.owner = a.owner

/-- What a call leaves in the registry. -/
inductive RowChange (g g' : GitStores) (a a' : Attempt) (r : CallReply) : Prop where
  | keep (names : g'.names = g.names)
      (relies : a'.relies = true → a'.fresh = true → a.relies = true ∧ a.fresh = true)
      (held : a'.relies = true → a.relies = true ∨ g.names.lookup a.nameKey = some a.ownerHex)
  | insert (free : g.names.lookup a.nameKey = none)
      (names : g'.names = g.names.insert a.nameKey a.ownerHex)
  | delete (phase : a.phase = .release) (applied : r.mayApply = true)
      (names : g'.names = g.names.erase a.nameKey) (failed : a'.phase = .failed)

/-- What one database or store call of an attempt can change. -/
structure Attempt.ExecSpec (g g' : GitStores) (a a' : Attempt) (r : CallReply) : Prop where
  same : a.Same a'
  row : RowChange g g' a a' r
  pointers : ∀ key, (g.pointers.lookup key).isSome → (g'.pointers.lookup key).isSome
  pointer : a'.phase = .finishLease ∨ a'.phase = .accepted →
    a.phase = .finishLease ∨ a.phase = .accepted ∨ (g'.pointers.lookup a.pointer).isSome
  accepted : a.phase = .accepted → a' = a
  failed : a.phase = .failed → a'.phase = .failed

/-- The attempt ends without touching a store. -/
theorem Attempt.execSpec_failed (h : a.phase ≠ .accepted) :
    a.ExecSpec g g { a with phase := .failed } r where
  same := ⟨rfl, rfl, rfl⟩
  row := .keep rfl (fun h => (by cases h)) (fun h => (by cases h))
  pointers _ h := h
  pointer h := by rcases h with h | h <;> cases h
  accepted h' := absurd h' h
  failed _ := rfl

/-- The attempt goes on, over the row it relies on. -/
theorem Attempt.execSpec_next {p : AnnouncePhase} {g' : GitStores} (ha : a.relies = true)
    (hne : a.phase ≠ .accepted) (hnames : g'.names = g.names)
    (hpointers : ∀ key, (g.pointers.lookup key).isSome → (g'.pointers.lookup key).isSome)
    (hpointer : p = .finishLease ∨ p = .accepted →
      a.phase = .finishLease ∨ (g'.pointers.lookup a.pointer).isSome) :
    a.ExecSpec g g' { a with phase := p } r where
  same := ⟨rfl, rfl, rfl⟩
  row := .keep hnames (fun _ h => ⟨ha, h⟩) (fun _ => .inl ha)
  pointers := hpointers
  pointer h := by
    rcases hpointer h with h | h
    · exact .inl h
    · exact .inr (.inr h)
  accepted h := absurd h hne
  failed h := by
    unfold Attempt.relies at ha
    rw [h] at ha
    cases ha

/-- The pointer work failed: the rollback is next, or the end. -/
theorem Attempt.execSpec_pointerFailed {g' : GitStores} (ha : a.relies = true)
    (hne : a.phase ≠ .accepted) (hnames : g'.names = g.names)
    (hpointers : ∀ key, (g.pointers.lookup key).isSome → (g'.pointers.lookup key).isSome) :
    a.ExecSpec g g' a.pointerFailed r where
  same := ⟨rfl, rfl, rfl⟩
  row := .keep hnames (fun _ h => ⟨ha, h⟩) (fun _ => .inl ha)
  pointers := hpointers
  pointer h := by
    unfold Attempt.pointerFailed at h
    split at h <;> rcases h with h | h <;> cases h
  accepted h := absurd h hne
  failed h := by
    unfold Attempt.relies at ha
    rw [h] at ha
    cases ha

theorem GitStores.putPointer_pointers (key body k : String)
    (h : (g.pointers.lookup k).isSome) : ((g.putPointer key body).1.pointers.lookup k).isSome := by
  unfold GitStores.putPointer
  split
  · dsimp only
    rw [HMap.lookup_insert_ite]
    split
    · rfl
    · exact h
  · exact h

theorem GitStores.putPointer_names (key body : String) :
    (g.putPointer key body).1.names = g.names := by
  unfold GitStores.putPointer
  split <;> rfl

/-- The reservation, whatever comes of its answer. -/
theorem Attempt.execSpec_reserve {a' : Attempt} (hphase : a.phase = .reserve)
    (same : a.Same a') (hp : a'.phase = .acquireLease ∨ a'.phase = .failed)
    (hfree : a'.relies = true → a'.fresh = true → g.names.lookup a.nameKey = none)
    (hheld : a'.relies = true → g.names.lookup a.nameKey = none ∨
      g.names.lookup a.nameKey = some a.ownerHex) :
    a.ExecSpec g (g.reserveRepoName a.community a.repoId a.ownerHex).1 a' r where
  same := same
  row := by
    unfold GitStores.reserveRepoName
    split
    · next hnone => exact .insert hnone rfl
    · next holder hsome =>
        have hsome : g.names.lookup a.nameKey = some holder := hsome
        refine .keep rfl (fun h hf => ?_) (fun h => ?_)
        · have hnone := hfree h hf
          rw [hsome] at hnone
          cases hnone
        · rcases hheld h with hnone | hown
          · rw [hsome] at hnone
            cases hnone
          · exact .inr hown
  pointers key h := by
    unfold GitStores.reserveRepoName
    split <;> exact h
  pointer h := by rcases hp with hp | hp <;> rw [hp] at h <;> rcases h with h | h <;> cases h
  accepted h := by rw [hphase] at h; cases h
  failed h := by rw [hphase] at h; cases h

/-- The rollback. -/
theorem Attempt.execSpec_release (hphase : a.phase = .release) (hr : r.mayApply = true) :
    a.ExecSpec g (g.releaseRepoName a.community a.repoId a.ownerHex)
      { a with phase := .failed } r where
  same := ⟨rfl, rfl, rfl⟩
  row := by
    unfold GitStores.releaseRepoName
    split
    · exact .delete hphase hr rfl rfl
    · exact .keep rfl (fun h => (by cases h)) (fun h => (by cases h))
  pointers key h := by
    unfold GitStores.releaseRepoName
    split <;> exact h
  pointer h := by rcases h with h | h <;> cases h
  accepted h := by rw [hphase] at h; cases h
  failed _ := rfl

/-- A row of the owner is there: the attempt relies on it without having made it. -/
theorem Attempt.execSpec_found (hlive : a.phase ≠ .accepted ∧ a.phase ≠ .failed)
    (hrow : g.names.lookup a.nameKey = some a.ownerHex) :
    a.ExecSpec g g { a with phase := .acquireLease, fresh := false } r where
  same := ⟨rfl, rfl, rfl⟩
  row := .keep rfl (fun _ h => (by cases h)) (fun _ => .inr hrow)
  pointers _ h := h
  pointer h := by rcases h with h | h <;> cases h
  accepted h := absurd h hlive.1
  failed h := absurd h hlive.2

/-- No row yet: the attempt relies on nothing. -/
theorem Attempt.execSpec_absent {p : AnnouncePhase} (hp : p = .count ∨ p = .reserve)
    (hlive : a.phase ≠ .accepted ∧ a.phase ≠ .failed) :
    a.ExecSpec g g { a with phase := p } r where
  same := ⟨rfl, rfl, rfl⟩
  row := by
    rcases hp with rfl | rfl <;> exact .keep rfl (fun h => (by cases h)) (fun h => (by cases h))
  pointers _ h := h
  pointer h := by rcases hp with rfl | rfl <;> rcases h with h | h <;> cases h
  accepted h := absurd h hlive.1
  failed h := absurd h hlive.2

theorem Attempt.exec_spec (cfg : GitConfig) (g : GitStores) (a : Attempt) (r : CallReply) :
    a.ExecSpec g (a.exec cfg g r).1 (a.exec cfg g r).2 r := by
  have hpointers : ∀ key, (g.pointers.lookup key).isSome → (g.pointers.lookup key).isSome :=
    fun _ h => h
  obtain ⟨community, repoId, owner, phase, fresh⟩ := a
  cases phase with
  | lookup =>
      cases r with
      | fail => exact execSpec_failed (by simp)
      | ok =>
          unfold exec
          dsimp only
          split
          · next existing hrow =>
              split
              · exact execSpec_failed (by simp)
              · next hown => exact execSpec_found (by simp) (not_not.1 hown ▸ hrow)
          · exact execSpec_absent (.inl rfl) (by simp)
  | count =>
      cases r with
      | fail => exact execSpec_failed (by simp)
      | ok =>
          unfold exec
          dsimp only
          split
          · exact execSpec_failed (by simp)
          · exact execSpec_absent (.inr rfl) (by simp)
  | reserve =>
      cases r with
      | fail applied =>
          cases applied with
          | true =>
              exact @execSpec_reserve g _ _ ⟨community, repoId, owner, .failed, fresh⟩ rfl
                ⟨rfl, rfl, rfl⟩ (.inr rfl) (fun h => (by cases h)) (fun h => (by cases h))
          | false => exact execSpec_failed (by simp)
      | ok =>
          have hg := @execSpec_reserve g ⟨community, repoId, owner, .reserve, fresh⟩ .ok
          unfold exec
          generalize hres : g.reserveRepoName community repoId
            (ownerHex ⟨community, repoId, owner, .reserve, fresh⟩) = out at hg
          unfold GitStores.reserveRepoName at hres
          split at hres
          · next hnone =>
              subst hres
              exact hg rfl ⟨rfl, rfl, rfl⟩ (.inl rfl) (fun _ _ => hnone) (fun _ => .inl hnone)
          · next holder hsome =>
              subst hres
              by_cases hown : holder = ownerHex ⟨community, repoId, owner, .reserve, fresh⟩
              · rw [if_pos hown]
                exact hg rfl ⟨rfl, rfl, rfl⟩ (.inl rfl) (fun _ h => (by cases h))
                  (fun _ => .inr (hown ▸ hsome))
              · rw [if_neg hown]
                exact hg rfl ⟨rfl, rfl, rfl⟩ (.inr rfl) (fun h => (by cases h))
                  (fun h => (by cases h))
  | acquireLease =>
      cases r with
      | ok => exact execSpec_next rfl (by simp) rfl hpointers (by simp)
      | fail => exact execSpec_failed (by simp)
  | verifyLease =>
      cases r with
      | fail => exact execSpec_failed (by simp)
      | ok =>
          cases fresh with
          | true => exact execSpec_next rfl (by simp) rfl hpointers (by simp)
          | false => exact execSpec_next rfl (by simp) rfl hpointers (by simp)
  | getPointer =>
      cases r with
      | fail => exact execSpec_pointerFailed rfl (by simp) rfl hpointers
      | ok =>
          unfold exec
          dsimp only
          split
          · next body hbody =>
              exact execSpec_next rfl (by simp) rfl hpointers
                (fun _ => .inr (by rw [hbody]; rfl))
          · exact execSpec_next rfl (by simp) rfl hpointers (by simp)
  | putManifest =>
      cases r with
      | ok => exact execSpec_next rfl (by simp) rfl hpointers (by simp)
      | fail => exact execSpec_pointerFailed rfl (by simp) rfl hpointers
  | putPointer =>
      have hput := @GitStores.putPointer_pointers g
        (pointer ⟨community, repoId, owner, .putPointer, fresh⟩) cfg.emptyDigest
      have hnames := @GitStores.putPointer_names g
        (pointer ⟨community, repoId, owner, .putPointer, fresh⟩) cfg.emptyDigest
      cases r with
      | fail applied =>
          cases applied with
          | true => exact execSpec_pointerFailed rfl (by simp) hnames hput
          | false => exact execSpec_pointerFailed rfl (by simp) rfl hpointers
      | ok =>
          unfold exec
          dsimp only
          split
          · next g' hout =>
              rw [hout] at hput hnames
              refine execSpec_next rfl (by simp) hnames hput (fun _ => .inr ?_)
              unfold GitStores.putPointer at hout
              split at hout
              · cases hout
                rw [HMap.lookup_insert_ite, if_pos rfl]
                rfl
              · cases hout
          · next g' hout =>
              rw [hout] at hput hnames
              exact execSpec_next rfl (by simp) hnames hput (by simp)
  | rereadPointer =>
      cases r with
      | fail => exact execSpec_pointerFailed rfl (by simp) rfl hpointers
      | ok =>
          unfold exec
          dsimp only
          split
          · next body hbody =>
              split
              · exact execSpec_pointerFailed rfl (by simp) rfl hpointers
              · exact execSpec_next rfl (by simp) rfl hpointers
                  (fun _ => .inr (by rw [hbody]; rfl))
          · exact execSpec_pointerFailed rfl (by simp) rfl hpointers
  | release =>
      cases r with
      | ok => exact execSpec_release rfl rfl
      | fail applied =>
          cases applied with
          | true => exact execSpec_release rfl rfl
          | false => exact execSpec_failed (by simp)
  | finishLease =>
      cases r with
      | ok => exact execSpec_next rfl (by simp) rfl hpointers (fun _ => .inl rfl)
      | fail => exact execSpec_failed (by simp)
  | accepted =>
      exact ⟨⟨rfl, rfl, rfl⟩, .keep rfl (fun h hf => ⟨h, hf⟩) (fun h => .inl h), hpointers,
        fun _ => .inr (.inl rfl), fun _ => rfl, fun h => h⟩
  | failed => cases r <;> exact execSpec_failed (by simp)

end Exec

/-! ## Every announcement -/

/-- The rows and pointers the attempts count on. -/
structure GitState.Inv (s : GitState) : Prop where
  held : ∀ (i : Nat) (a : Attempt), s.attempts[i]? = some a → a.relies = true →
    s.names.lookup a.nameKey = some a.ownerHex
  one : ∀ (i j : Nat) (a b : Attempt), s.attempts[i]? = some a → s.attempts[j]? = some b →
    a.relies = true → b.relies = true → a.fresh = true → b.fresh = true →
      a.nameKey = b.nameKey → i = j
  pointer : ∀ (i : Nat) (a : Attempt), s.attempts[i]? = some a →
    a.phase = .finishLease ∨ a.phase = .accepted → (s.pointers.lookup a.pointer).isSome
  apart : ∀ (i j : Nat) (a b : Attempt), s.attempts[i]? = some a → s.attempts[j]? = some b →
    a.phase ≠ .failed → b.phase ≠ .failed → a.community = b.community → a.owner = b.owner →
    stripGit a.repoId.toList = stripGit b.repoId.toList → a.repoId = b.repoId

section Step

variable {cfg : GitConfig} {s : GitState} {i : Nat} {a : Attempt} {r : CallReply}
  {b a' : Attempt} {g' : GitStores}

theorem Attempt.Same.nameKey (h : a.Same b) : b.nameKey = a.nameKey := by
  unfold Attempt.nameKey
  rw [h.community, h.repoId]

theorem Attempt.Same.ownerHex (h : a.Same b) : b.ownerHex = a.ownerHex := by
  unfold Attempt.ownerHex
  rw [h.owner]

theorem Attempt.Same.pointer (h : a.Same b) : b.pointer = a.pointer := by
  unfold Attempt.pointer
  rw [h.community, h.repoId, h.ownerHex]

/-- A steady rollback finds nobody else on its row. -/
theorem GitState.steady_release (hsteady : s.steady (.call i r) = true)
    (ha : s.attempts[i]? = some a) (hphase : a.phase = .release)
    (hr : r.mayApply = true) {j : Nat} (hne : j ≠ i)
    (hb : s.attempts[j]? = some b) (hname : b.nameKey = a.nameKey)
    (howner : b.ownerHex = a.ownerHex) : b.relies = false := by
  unfold GitState.steady at hsteady
  dsimp only at hsteady
  rw [ha] at hsteady
  simp only [hphase, hr, decide_true, Bool.and_self, Bool.not_true, Bool.false_or,
    List.all_eq_true] at hsteady
  have hother := hsteady b (List.mem_eraseIdx_iff_getElem?.2 ⟨j, hne, hb⟩)
  have howner : b.owner = a.owner := Bytes32.toHex_injective howner
  simpa [hname, howner] using hother

/-- The row an attempt relies on, across a call of any attempt. -/
theorem GitState.Inv.held_call (hinv : s.Inv)
    (hsteady : s.steady (.call i r) = true) (ha : s.attempts[i]? = some a)
    (hspec : a.ExecSpec s.toGitStores g' a' r) {j : Nat}
    (hb : (s.attempts.set i a')[j]? = some b) (hrelies : b.relies = true) :
    g'.names.lookup b.nameKey = some b.ownerHex := by
  rcases getElem?_set_cases hb with ⟨-, rfl, -⟩ | ⟨hne, hb⟩
  · rw [hspec.same.nameKey, hspec.same.ownerHex]
    cases hspec.row with
    | keep names _ held =>
        rw [names]
        rcases held hrelies with h | h
        · exact hinv.held i a ha h
        · exact h
    | insert _ names => rw [names, HMap.lookup_insert_ite, if_pos rfl]
    | delete _ _ _ failed =>
        unfold Attempt.relies at hrelies
        rw [failed] at hrelies
        cases hrelies
  · have hrow := hinv.held j b hb hrelies
    cases hspec.row with
    | keep names => rw [names]; exact hrow
    | insert free names =>
        rw [names, HMap.lookup_insert_ite]
        split
        · next hkey => rw [hkey, free] at hrow; cases hrow
        · exact hrow
    | delete phase applied names failed =>
        rw [names, HMap.lookup_erase_ite]
        split
        · next hkey =>
            -- The row under both is one row, so both have its owner.
            have hfresh : a.relies = true := by
              unfold Attempt.relies
              rw [phase]
            have hrow' := hinv.held i a ha hfresh
            rw [← hkey, hrow] at hrow'
            have hno := GitState.steady_release hsteady ha phase applied hne hb hkey
              (Option.some.inj hrow')
            rw [hno] at hrelies
            cases hrelies
        · exact hrow

/-- At most one attempt made the row of a name. -/
theorem GitState.Inv.one_call (hinv : s.Inv) (ha : s.attempts[i]? = some a)
    (hspec : a.ExecSpec s.toGitStores g' a' r) {j : Nat} (hne : j ≠ i)
    (hb : s.attempts[j]? = some b) (hrelies : a'.relies = true)
    (hbrelies : b.relies = true) (hfresh : a'.fresh = true)
    (hbfresh : b.fresh = true) :
    a.nameKey ≠ b.nameKey := by
  intro hkey
  cases hspec.row with
  | keep _ relies =>
      obtain ⟨hr, hf⟩ := relies hrelies hfresh
      exact hne (hinv.one j i b a hb ha hbrelies hr hbfresh hf hkey.symm)
  | insert free =>
      have hrow := hinv.held j b hb hbrelies
      rw [← hkey, free] at hrow
      cases hrow
  | delete _ _ _ failed =>
      unfold Attempt.relies at hrelies
      rw [failed] at hrelies
      cases hrelies

theorem GitState.Inv.call (hinv : s.Inv) (hsteady : s.steady (.call i r) = true)
    (ha : s.attempts[i]? = some a) (hspec : a.ExecSpec s.toGitStores g' a' r) :
    GitState.Inv ⟨g', s.attempts.set i a'⟩ where
  held j b hb hrelies := hinv.held_call hsteady ha hspec hb hrelies
  one j k b c hb hc hbr hcr hbf hcf hkey := by
    rcases getElem?_set_cases hb with ⟨hj, rfl, -⟩ | ⟨hj, hb'⟩ <;>
      rcases getElem?_set_cases hc with ⟨hk, rfl, -⟩ | ⟨hk, hc'⟩
    · exact hj.trans hk.symm
    · exact absurd (hspec.same.nameKey.symm.trans hkey)
        (hinv.one_call ha hspec hk hc' hbr hcr hbf hcf)
    · exact absurd (hspec.same.nameKey.symm.trans hkey.symm)
        (hinv.one_call ha hspec hj hb' hcr hbr hcf hbf)
    · exact hinv.one j k b c hb' hc' hbr hcr hbf hcf hkey
  pointer j b hb hphase := by
    rcases getElem?_set_cases hb with ⟨-, rfl, -⟩ | ⟨-, hb⟩
    · rw [hspec.same.pointer]
      rcases hspec.pointer hphase with h | h | h
      · exact hspec.pointers _ (hinv.pointer i a ha (.inl h))
      · exact hspec.pointers _ (hinv.pointer i a ha (.inr h))
      · exact h
    · exact hspec.pointers _ (hinv.pointer j b hb hphase)
  apart j k b c hb hc hbf hcf hcom howner hstrip := by
    rcases getElem?_set_cases hb with ⟨-, rfl, -⟩ | ⟨-, hb'⟩ <;>
      rcases getElem?_set_cases hc with ⟨-, rfl, -⟩ | ⟨-, hc'⟩
    · rfl
    · rw [hspec.same.repoId] at hstrip ⊢
      exact hinv.apart i k a c ha hc' (fun h => hbf (hspec.failed h)) hcf
        (hspec.same.community.symm.trans hcom) (hspec.same.owner.symm.trans howner) hstrip
    · rw [hspec.same.repoId] at hstrip ⊢
      exact hinv.apart j i b a hb' ha hbf (fun h => hcf (hspec.failed h))
        (hcom.trans hspec.same.community) (howner.trans hspec.same.owner) hstrip
    · exact hinv.apart j k b c hb' hc' hbf hcf hcom howner hstrip

/-- A new announcement relies on nothing yet. -/
theorem GitState.Inv.announce (hinv : s.Inv) (hnew : a.phase = .lookup)
    (hapart : ∀ b ∈ s.attempts, b.phase ≠ .failed → b.community = a.community →
      b.owner = a.owner → stripGit b.repoId.toList = stripGit a.repoId.toList →
      b.repoId = a.repoId) :
    GitState.Inv { s with attempts := s.attempts ++ [a] } := by
  have hidle : a.relies = false := by
    unfold Attempt.relies
    rw [hnew]
  constructor
  case held =>
    intro j b hb hrelies
    rcases getElem?_snoc_cases hb with ⟨-, rfl⟩ | ⟨-, hb⟩
    · rw [hidle] at hrelies
      cases hrelies
    · exact hinv.held j b hb hrelies
  case one =>
    intro j k b c hb hc hbr hcr
    rcases getElem?_snoc_cases hb with ⟨-, rfl⟩ | ⟨-, hb⟩
    · rw [hidle] at hbr
      cases hbr
    · rcases getElem?_snoc_cases hc with ⟨-, rfl⟩ | ⟨-, hc⟩
      · rw [hidle] at hcr
        cases hcr
      · exact hinv.one j k b c hb hc hbr hcr
  case pointer =>
    intro j b hb hphase
    rcases getElem?_snoc_cases hb with ⟨-, rfl⟩ | ⟨-, hb⟩
    · rw [hnew] at hphase
      rcases hphase with h | h <;> cases h
    · exact hinv.pointer j b hb hphase
  case apart =>
    intro j k b c hb hc hbf hcf hcom howner hstrip
    rcases getElem?_snoc_cases hb with ⟨-, rfl⟩ | ⟨-, hb'⟩ <;>
      rcases getElem?_snoc_cases hc with ⟨-, rfl⟩ | ⟨-, hc'⟩
    · rfl
    · exact (hapart c (List.mem_of_getElem? hc') hcf hcom.symm howner.symm hstrip.symm).symm
    · exact hapart b (List.mem_of_getElem? hb') hbf hcom howner hstrip
    · exact hinv.apart j k b c hb' hc' hbf hcf hcom howner hstrip

/-- A handler that stops for good leaves its row where it is. -/
theorem GitState.Inv.crash (hinv : s.Inv) (ha : s.attempts[i]? = some a)
    (hne : a.phase ≠ .accepted) :
    GitState.Inv { s with attempts := s.attempts.set i { a with phase := .failed } } :=
  hinv.call (r := .fail false) (by
    unfold GitState.steady
    dsimp only
    rw [ha]
    simp [CallReply.mayApply]) ha (Attempt.execSpec_failed hne)

theorem GitState.Inv.push (hinv : s.Inv) (key : String) (body : Option String) :
    GitState.Inv { s with pointers := s.pointers.insert key body } where
  held := hinv.held
  one := hinv.one
  pointer j b hb hphase := by
    have hold := hinv.pointer j b hb hphase
    rw [HMap.lookup_insert_ite]
    split
    · rfl
    · exact hold
  apart := hinv.apart

theorem GitState.Inv.step (hinv : s.Inv) {m : GitMove} (hsteady : s.steady m = true) :
    (GitState.step cfg s m).Inv := by
  cases m with
  | announce community event =>
      unfold GitState.step
      unfold GitState.steady at hsteady
      dsimp only at hsteady ⊢
      split
      · exact hinv
      · next repoId hrepo =>
          rw [hrepo] at hsteady
          refine hinv.announce rfl fun b hb hfail hcom howner hstrip => ?_
          have hsafe := List.all_eq_true.1 hsteady b hb
          simpa [hfail, hcom, howner, hstrip] using hsafe
  | call i reply =>
      unfold GitState.step
      dsimp only
      split
      · exact hinv
      · next a ha => exact hinv.call hsteady ha (a.exec_spec cfg s.toGitStores reply)
  | crash i =>
      unfold GitState.step
      dsimp only
      split
      · exact hinv
      · next a ha =>
          split
          · exact hinv
          · next hne => exact hinv.crash ha hne
  | push key body => exact hinv.push key body

/-- An accepted announcement stays accepted. -/
theorem GitState.step_accepted (cfg : GitConfig) (m : GitMove)
    (ha : s.attempts[i]? = some a) (hacc : a.phase = .accepted) :
    (GitState.step cfg s m).attempts[i]? = some a := by
  have hlt : i < s.attempts.length := (List.getElem?_eq_some_iff.1 ha).1
  unfold GitState.step
  cases m with
  | announce community event =>
      dsimp only
      split
      · exact ha
      · exact (List.getElem?_append_left hlt).trans ha
  | call j reply =>
      dsimp only
      split
      · exact ha
      · next b hb =>
          rw [List.getElem?_set]
          split
          · next hji =>
              subst hji
              rw [ha] at hb
              cases hb
              rw [(a.exec_spec cfg s.toGitStores reply).accepted hacc, if_pos hlt]
          · exact ha
  | crash j =>
      dsimp only
      split
      · exact ha
      · next b hb =>
          split
          · exact ha
          · next hne =>
              rw [List.getElem?_set_ne]
              · exact ha
              · rintro rfl
                rw [ha] at hb
                cases hb
                exact hne hacc
  | push key body => exact ha

end Step

/-- What the attempts count on is what the accepted ones are promised. -/
theorem GitState.Inv.owned {s : GitState} (hinv : s.Inv) : s.Owned := by
  have hheld : ∀ a ∈ s.attempts, a.phase = .accepted →
      s.repoNameOwner a.community a.repoId = some a.ownerHex := by
    intro a ha hacc
    obtain ⟨i, hi⟩ := List.mem_iff_getElem?.1 ha
    refine hinv.held i a hi ?_
    unfold Attempt.relies
    rw [hacc]
  refine ⟨hheld, ?_, ?_, ?_⟩
  · intro a ha hacc
    obtain ⟨i, hi⟩ := List.mem_iff_getElem?.1 ha
    exact hinv.pointer i a hi (.inr hacc)
  · intro a ha b hb hacc hbcc hkey
    have hrow := hheld b hb hbcc
    unfold GitStores.repoNameOwner at hrow
    rw [show (b.community, b.repoId) = (a.community, a.repoId) from hkey.symm] at hrow
    exact Bytes32.toHex_injective (Option.some.inj ((hheld a ha hacc).symm.trans hrow))
  · intro a ha b hb hacc hbcc hcom hne hpointer
    obtain ⟨i, hi⟩ := List.mem_iff_getElem?.1 ha
    obtain ⟨j, hj⟩ := List.mem_iff_getElem?.1 hb
    unfold Attempt.pointer Attempt.ownerHex at hpointer
    rw [← hcom] at hpointer
    obtain ⟨howner, hstrip⟩ := pointerKey_eq hpointer
    refine hne (hinv.apart i j a b hi hj ?_ ?_ hcom howner hstrip)
    · rw [hacc]
      decide
    · rw [hbcc]
      decide

/-- In every run of steady moves, over any stores, an accepted announcement
owns its name and its pointer, and what was accepted stays so. -/
theorem accepted_announcement_owned (cfg : GitConfig) (stores : GitStores)
    (ms ms' : List GitMove)
    (hsteady : (gitMachine cfg stores).Meets (fun s m => s.steady m = true)
      { toGitStores := stores } (ms ++ ms')) :
    ((gitMachine cfg stores).run (ms ++ ms')).Owned ∧
      ∀ (i : Nat) (a : Attempt), ((gitMachine cfg stores).run ms).attempts[i]? = some a →
        a.phase = .accepted → ((gitMachine cfg stores).run (ms ++ ms')).attempts[i]? = some a := by
  constructor
  · have hinit : GitState.Inv { toGitStores := stores } :=
      ⟨fun _ _ h => (by cases h), fun _ _ _ _ h => (by cases h), fun _ _ h => (by cases h),
        fun _ _ _ _ h => (by cases h)⟩
    exact ((gitMachine cfg stores).inv_run hinit
      (fun s m (hinv : s.Inv) hm => hinv.step hm) hsteady).owned
  · intro i a ha hacc
    rw [Machine.run_append]
    exact (gitMachine cfg stores).stable_runFrom
      (fun s m (h : s.attempts[i]? = some a) => GitState.step_accepted cfg m h hacc) ha ms'

/-- An announcement of a repository by the key of that byte. -/
def sampleAnnounce (owner : UInt8) (repoId : String) : GitMove :=
  .announce ⟨.ofByte 7⟩ ⟨.ofByte 0, .ofByte owner, 0, 30617, [⟨"d", [repoId]⟩]⟩

/-- The next calls of an announcement, all of which succeed. -/
def sampleCalls (i calls : Nat) : List GitMove := List.replicate calls (.call i .ok)

def sampleGit : Machine GitState GitMove := gitMachine ⟨10, "00"⟩ {}

def GitState.acceptedNames (s : GitState) : List (String × PublicKey × String) :=
  (s.attempts.filter (·.phase = .accepted)).map fun a => (a.repoId, a.owner, a.pointer)

/-- An announcement, a re-announcement by its owner, and another owner's. -/
def reannounced : List GitMove :=
  sampleAnnounce 1 "x" :: sampleCalls 0 8 ++ sampleAnnounce 1 "x" :: sampleCalls 1 5 ++
    sampleAnnounce 2 "x" :: sampleCalls 2 1

theorem accepted_announcement_owned_reannounced :
    (sampleGit.run reannounced).acceptedNames.length = 2 ∧ (sampleGit.run reannounced).Owned :=
  ⟨by decide +kernel,
    (accepted_announcement_owned ⟨10, "00"⟩ {} reannounced [] (by decide +kernel)).1⟩

/-- Two announcements of one name by one owner. The second finds the first's
row and is accepted, then the first fails to write its manifest and rolls the
row back. -/
def rolledBack : List GitMove :=
  sampleAnnounce 1 "x" :: sampleCalls 0 5 ++ sampleAnnounce 1 "x" :: sampleCalls 1 7 ++
    [.call 0 (.fail false), .call 0 .ok]

/-- One owner announces a name with and without `.git`. -/
def suffixed : List GitMove :=
  sampleAnnounce 1 "x" :: sampleCalls 0 8 ++ sampleAnnounce 1 "x.git" :: sampleCalls 1 9

/-- The accepted name is gone from the registry, the next owner gets it, and
two accepted names have one pointer. -/
theorem accepted_announcement_lost :
    ((sampleGit.run rolledBack).attempts.map (·.phase) = [.failed, .accepted] ∧
      (sampleGit.run rolledBack).repoNameOwner ⟨.ofByte 7⟩ "x" = none) ∧
    (sampleGit.run (rolledBack ++ sampleAnnounce 2 "x" :: sampleCalls 2 8)).acceptedNames.map
      (fun e => (e.1, e.2.1)) = [("x", .ofByte 1), ("x", .ofByte 2)] ∧
    (sampleGit.run suffixed).acceptedNames.map (·.1) = ["x", "x.git"] ∧
    ((sampleGit.run suffixed).acceptedNames.map (·.2.2)).dedup.length = 1 := by
  decide +kernel

end Buzz.Relay
