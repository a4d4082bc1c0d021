import Buzz.Proofs.PushClaims

/-!
# Why a wake is given up

A wake fails for cause when, at some moment of the `deliver_one` call that
fails it, its lease, its event, its deadline, its author's membership or the
community spoke against it, or the gateway's answer did. The send-time check
answers `Suppressed` also when only the worker's own claim has run out, and
`deliver_one` fails the wake on that answer: if nobody has claimed the wake
again the write goes through, and a wake is lost because its worker was slow.
The same happens when the serving lease could not be acquired for want of a
database answer. Away from these two, every failure has its cause.
-/

namespace Buzz.Db.PushStore

open Buzz.Lib

variable {s : PushStore} {community : CommunityId}

/-- The row is not under the claim any more. -/
def Lost (s : PushStore) (w : ClaimedWake) : Prop :=
  ∀ o, s.wakes.lookup w.key = some o → ¬(o.claimId = some w.claimId ∧ o.state = .sending)

/-- The row is still under the claim, and the claim has run out. -/
def ranOut (s : PushStore) (w : ClaimedWake) : Bool :=
  (s.wakes.lookup w.key).any fun o =>
    o.claimId = some w.claimId && o.state = .sending && o.leaseUntil.any (· < s.now)

/-- What speaks against a wake, whoever holds it. -/
def hasCause (s : PushStore) (key : WakeKey) : Prop :=
  ∃ o, s.wakes.lookup key = some o ∧
    (s.leaseAuthorizes key.1 o = false ∨ s.liveEvent key.1 o = none ∨
      o.expiresAt ≤ epochSecs s.now ∨
      (∃ e channel, s.events.lookup (key.1, o.eventId) = some e ∧
        e.channelId = some channel ∧ s.isMember key.1 channel o.author = false) ∨
      s.admits key.1 = false)

/-- A suppressed wake has its cause, or the worker has lost it, or its claim
ran out. -/
theorem revalidate_none {w : ClaimedWake} {o : WakeRow}
    (ho : s.wakes.lookup w.key = some o)
    (hclaim : o.claimId = some w.claimId → o.state = .sending → o.leaseUntil.isSome)
    (h : s.revalidateWakeForSend w.community w.id w.claimId = none) :
    s.hasCause w.key ∨ s.Lost w ∨ s.ranOut w = true := by
  unfold revalidateWakeForSend at h
  rw [show s.wakes.lookup (w.community, w.id) = some o from ho, Option.bind_some] at h
  cases he : s.liveEvent w.community o with
  | none => exact .inl ⟨o, ho, .inr (.inl he)⟩
  | some e =>
      rw [he, Option.bind_some] at h
      split at h
      · cases h
      · next hfail =>
          by_cases hown : o.claimId = some w.claimId ∧ o.state = .sending
          · obtain ⟨u, hu⟩ := Option.isSome_iff_exists.1 (hclaim hown.1 hown.2)
            by_cases hout : u < s.now
            · refine .inr (.inr ?_)
              unfold ranOut
              rw [ho]
              simp [hown.1, hown.2, hu, hout]
            · refine .inl ⟨o, ho, ?_⟩
              by_contra hno
              rw [not_or, not_or, not_or] at hno
              obtain ⟨hlease, -, hexp, -⟩ := hno
              have hlease : s.leaseAuthorizes w.community o = true :=
                Bool.not_eq_false _ ▸ hlease
              refine hfail ?_
              simp [hlease, hown.1, hown.2, hu, Int.not_lt.1 hout, Int.not_le.1 hexp]
          · refine .inr (.inl fun o' ho' => ?_)
            rw [ho] at ho'
            cases ho'
            exact hown

end Buzz.Db.PushStore

namespace Buzz.Relay

open Buzz.Db Buzz.Db.PushStore Buzz.Lib

/-! ## What speaks against a wake -/

/-- Answers that end a wake by themselves: neither `Accepted` nor one of the
answers after which the code retries. -/
def GatewayReply.nonRetryable : GatewayReply → Bool
  | .success body => body ≠ some .accepted
  | .gone _ | .notFound | .otherStatus | .otherError => true
  | .unavailable _ | .tooManyRequests | .timeoutOrConnect | .leaseLost => false

/-- Answers after which a wake gets another attempt. -/
def GatewayReply.retryable : GatewayReply → Bool
  | .unavailable _ | .tooManyRequests | .timeoutOrConnect => true
  | _ => false

/-- The gateway's answer to this request of the worker is the last. -/
def GatewayCause (s : PushState) (m : PushMove) (i : Nat) (key : WakeKey) : Prop :=
  ∃ reply w c, m = .reply i reply ∧ s.workers[i]? = some w ∧ w.phase = .send c ∧ c.key = key ∧
    (reply.nonRetryable = true ∨ (reply.retryable = true ∧ maxPushAttempts ≤ c.attempt))

/-- The worker is in this `deliver_one` call, about this wake. -/
def InCall (s : PushState) (i call : Nat) (key : WakeKey) : Prop :=
  ∃ w c, s.workers[i]? = some w ∧ w.calls = call ∧ w.phase.wake = some c ∧ c.key = key

/-- Some moment of the call had a cause. -/
def CausedIn (ms : List PushMove) (i call : Nat) (key : WakeKey) : Prop :=
  ∃ pre m post, ms = pre ++ m :: post ∧ InCall (pushMachine.run pre) i call key ∧
    ((pushMachine.run pre).hasCause key ∨ GatewayCause (pushMachine.run pre) m i key)

/-- A check is made while the claim still runs, or after somebody took the
wake over; an acquisition is answered. -/
def PushState.steady (s : PushState) : PushMove → Bool
  | .check i answered =>
      !answered || (s.workers[i]?.bind (·.phase.wake)).all fun c => !s.ranOut c
  | .acquire i answered =>
      answered || !(s.workers[i]?.any fun w => w.phase matches .acquire _)
  | _ => true

theorem CausedIn.append {ms : List PushMove} {i call : Nat} {key : WakeKey}
    (h : CausedIn ms i call key) (m : PushMove) : CausedIn (ms ++ [m]) i call key := by
  obtain ⟨pre, m', post, rfl, hrest⟩ := h
  exact ⟨pre, m', post ++ [m], by simp, hrest⟩

/-! ## The rows -/

section Rows

variable {s s' : PushState} {m : PushMove} {key : WakeKey}

/-- What a move does to one row. -/
inductive RowStep (s s' : PushState) (key : WakeKey) : Prop where
  | same (h : s'.wakes.lookup key = s.wakes.lookup key)
  | new (hid : s.nextWake ≤ key.2) (o : WakeRow) (h : s'.wakes.lookup key = some o)
      (hpending : o.state = .pending) (hfree : o.claimId = none)
  | claimed (o : WakeRow) (claimUntil : Int) (ho : s.wakes.lookup key = some o)
      (hopen : o.state = .pending ∨ o.state = .sending)
      (h : s'.wakes.lookup key = some (claimedRow o s.nextClaim claimUntil))
  | finished (i : Nat) (w : PushWorker) (c : ClaimedWake) (o o' : WakeRow)
      (hw : s.workers[i]? = some w) (hwake : w.phase.wake = some c) (hkey : c.key = key)
      (ho : s.wakes.lookup key = some o) (hclaim : o.claimId = some c.claimId)
      (hsending : o.state = .sending) (h : s'.wakes.lookup key = some o')
      (hfree : o'.claimId = none) (hfailed : o'.state = .failed → w.phase = .fail c)

theorem StepSpec.row (h : StepSpec s m s') (key : WakeKey) : RowStep s s' key := by
  cases h with
  | quiet store h => exact .same (by rw [h.wakes])
  | join => exact .same rfl
  | enqueue store h =>
      rcases h.rows key with heq | ⟨hge, -, o, ho, hpending, hfree⟩
      · exact .same heq
      · exact .new hge o ho hpending hfree
  | claim i w store community claimUntil ids claimed hw hidle h =>
      rcases h.rows key with heq | ⟨-, -, o, ho, hdue, hrow⟩
      · exact .same heq
      · refine .claimed o claimUntil ho ?_ hrow
        unfold PushStore.due at hdue
        simp only [Bool.and_eq_true, Bool.or_eq_true, decide_eq_true_eq] at hdue
        rcases hdue.1.2 with h | h
        · exact .inl h
        · exact .inr h.1
  | next i w c rest hw hidle hbatch => exact .same rfl
  | call i w p hw hm h => exact .same rfl
  | disable i w c store hw hphase h => exact .same (by rw [h.wakes])
  | finish i w c set hw hwake hset hfailed =>
      rcases fencedUpdate_wakes c.id c.claimId set key with heq | ⟨o, hkey, ho, hclaim, hs, hrow⟩
      · exact .same heq
      · exact .finished i w c o (set o) hw hwake hkey.symm ho hclaim hs hrow (hset o).2
          (hfailed o)
  | giveUp i w hw => exact .same rfl
  | crash i w hw => exact .same rfl

/-- A lost claim never comes back: claims are new each time. -/
theorem lost_step {c : ClaimedWake} (h : RowStep s s' c.key) (hclaim : c.claimId < s.nextClaim)
    (hlost : s.Lost c) : s'.Lost c := by
  intro o' ho'
  cases h with
  | same heq => exact hlost o' (heq.symm.trans ho')
  | new _ o h _ hfree =>
      cases h.symm.trans ho'
      rw [hfree]
      exact fun h => (by cases h.1)
  | claimed o u _ _ h =>
      cases h.symm.trans ho'
      rintro ⟨hid, -⟩
      have hid : s.nextClaim = c.claimId := Option.some.inj hid
      omega
  | finished i w c₀ o o₁ _ _ _ _ _ _ h hfree _ =>
      cases h.symm.trans ho'
      rw [hfree]
      exact fun h => (by cases h.1)

/-- `delivered` and `failed` are final. -/
theorem final_step (hinv : s.Inv) (h : RowStep s s' key) {o : WakeRow}
    (ho : s.wakes.lookup key = some o) (hfinal : o.state = .delivered ∨ o.state = .failed) :
    s'.wakes.lookup key = some o := by
  cases h with
  | same heq => exact heq.trans ho
  | new hid => exact absurd (hinv.ids key o ho) (Nat.not_lt.2 hid)
  | claimed o₀ u ho₀ hopen _ =>
      cases ho₀.symm.trans ho
      rcases hopen with h | h <;> rw [h] at hfinal <;> rcases hfinal with h | h <;> cases h
  | finished i w c o₀ o₁ _ _ _ ho₀ _ hs _ _ _ =>
      cases ho₀.symm.trans ho
      rw [hs] at hfinal
      rcases hfinal with h | h <;> cases h

end Rows

/-! ## The call that fails a wake -/

section Call

variable {s : PushState} {m : PushMove} {i : Nat} {w : PushWorker} {c : ClaimedWake}

/-- The call is about to fail the wake. -/
def DeliverPhase.failing (p : DeliverPhase) (c : ClaimedWake) : Prop :=
  p = .fail c ∨ p = .disable c

theorem DeliverPhase.failing.wake {p : DeliverPhase} (h : p.failing c) : p.wake = some c := by
  rcases h with rfl | rfl <;> rfl

/-- A suppressed wake, when the claim had not run out. -/
theorem suppressed_cause (hinv : s.Inv) (hw : s.workers[i]? = some w)
    (hwake : w.phase.wake = some c) (hsteady : s.steady (.check i true) = true)
    (h : s.revalidateWakeForSend c.community c.id c.claimId = none) :
    s.hasCause c.key ∨ s.Lost c := by
  have hknown := hinv.known i w hw c (List.mem_append_left _ (Option.mem_toList.2 hwake))
  obtain ⟨o, ho, -⟩ := hknown.row
  have hclaim : o.claimId = some c.claimId → o.state = .sending → o.leaseUntil.isSome :=
    fun hid _ => hinv.until' _ o ho (by rw [hid]; rfl)
  rcases revalidate_none ho hclaim h with hcause | hlost | hout
  · exact .inl hcause
  · exact .inr hlost
  · unfold PushState.steady at hsteady
    dsimp only at hsteady
    rw [hw] at hsteady
    simp [hwake, hout] at hsteady

theorem reply_cause {reply : GatewayReply} (hw : s.workers[i]? = some w)
    {c₀ : ClaimedWake} (hphase : w.phase = .send c₀) (h : (deliverReply c₀ reply).failing c) :
    c = c₀ ∧ GatewayCause s (.reply i reply) i c₀.key := by
  have hcause : (reply.nonRetryable = true ∨
      (reply.retryable = true ∧ maxPushAttempts ≤ c₀.attempt)) →
      GatewayCause s (.reply i reply) i c₀.key :=
    fun h => ⟨reply, w, c₀, rfl, hw, hphase, rfl, h⟩
  have hretry : ∀ delay, (retryOrFail c₀ delay).failing c →
      c = c₀ ∧ maxPushAttempts ≤ c₀.attempt := by
    intro delay hfail
    unfold retryOrFail at hfail
    split at hfail
    · next hmax => rcases hfail with h | h <;> cases h; exact ⟨rfl, hmax⟩
    · rcases hfail with h | h <;> cases h
  unfold deliverReply at h
  split at h
  · rcases h with h | h <;> cases h
  · next body hbody =>
      have hfinal : (GatewayReply.success body).nonRetryable = true := by
        unfold GatewayReply.nonRetryable
        exact decide_eq_true fun heq => hbody (by rw [heq])
      rcases h with h | h <;> cases h
      exact ⟨rfl, hcause (.inl hfinal)⟩
  · split at h <;> rcases h with h | h <;> cases h <;> exact ⟨rfl, hcause (.inl rfl)⟩
  · rcases h with h | h <;> cases h
    exact ⟨rfl, hcause (.inl rfl)⟩
  · obtain ⟨rfl, hmax⟩ := hretry _ h
    exact ⟨rfl, hcause (.inr ⟨rfl, hmax⟩)⟩
  · obtain ⟨rfl, hmax⟩ := hretry _ h
    exact ⟨rfl, hcause (.inr ⟨rfl, hmax⟩)⟩
  · obtain ⟨rfl, hmax⟩ := hretry _ h
    exact ⟨rfl, hcause (.inr ⟨rfl, hmax⟩)⟩
  · split at h <;> rcases h with h | h <;> cases h
    exact ⟨rfl, hcause (.inl rfl)⟩
  · obtain ⟨rfl, hmax⟩ := hretry _ h
    exact ⟨rfl, hcause (.inr ⟨rfl, hmax⟩)⟩
  · rcases h with h | h <;> cases h
    exact ⟨rfl, hcause (.inl rfl)⟩
  · rcases h with h | h <;> cases h
    exact ⟨rfl, hcause (.inl rfl)⟩
  · rcases h with h | h <;> cases h

/-- A check that gives the wake up found none to send. -/
theorem check_cause (hinv : s.Inv) {j : Nat} {answered : Bool} {p : DeliverPhase}
    {c₀ : ClaimedWake} (hsteady : s.steady (.check j answered) = true)
    (hw : s.workers[j]? = some w)
    (hphase : w.phase = .revalidate c₀ ∨ w.phase = .finalCheck c₀)
    (hstep : w.phase.step s.toPushStore (.check j answered) = some p)
    (hfail : p.failing c) :
    w.phase.wake = some c ∧ (s.hasCause c.key ∨ s.Lost c) := by
  have hwake : w.phase.wake = some c₀ := by
    rcases hphase with h | h <;> rw [h] <;> rfl
  rcases hphase with h | h <;> rw [h] at hstep <;>
    dsimp only [DeliverPhase.step] at hstep <;> split at hstep <;> cases hstep
  -- The two checks differ in the phase that comes next, which gives nothing up.
  all_goals first
    | rcases hfail with h | h <;> cases h
    | split at hfail <;> rcases hfail with h | h <;> cases h
  all_goals
    next hans _ hnone =>
      subst hans
      exact ⟨hwake, suppressed_cause hinv hw hwake hsteady hnone⟩

/-- A steady call that gives a wake up has its cause right then, or has lost
the wake already. -/
theorem call_cause (hinv : s.Inv) (hsteady : s.steady m = true)
    (hw : s.workers[i]? = some w) (hm : m.caller = some i) {p : DeliverPhase}
    (hstep : w.phase.step s.toPushStore m = some p) (hfail : p.failing c) :
    w.phase.wake = some c ∧
      (s.hasCause c.key ∨ GatewayCause s m i c.key ∨ s.Lost c) := by
  have hcheck := hstep
  unfold DeliverPhase.step at hstep
  split at hstep
  · next c₀ j answered hphase =>
      have hj : j = i := Option.some.inj hm
      subst hj
      obtain ⟨hwake, h⟩ :=
        check_cause hinv hsteady hw (.inl hphase) hcheck hfail
      exact ⟨hwake, h.imp_right .inr⟩
  · next c₀ j answered hphase =>
      cases hstep
      split at hfail
      · rcases hfail with h | h <;> cases h
      · next channel hchannel =>
          split at hfail
          · split at hfail
            · rcases hfail with h | h <;> cases h
            · next hno =>
                rcases hfail with h | h <;> cases h
                have hwake : w.phase.wake = some c := by rw [hphase]; rfl
                obtain ⟨o, ho, hauthor, hevent⟩ :=
                  (hinv.known i w hw c (List.mem_append_left _ (Option.mem_toList.2 hwake))).row
                obtain ⟨e, he, hec⟩ := hevent channel hchannel
                refine ⟨hwake, .inl ⟨o, ho, .inr (.inr (.inr (.inl ⟨e, channel, he, hec, ?_⟩)))⟩⟩
                rw [hauthor]
                exact Bool.eq_false_iff.2 hno
          · rcases hfail with h | h <;> cases h
  · next c₀ j answered hphase =>
      have hj : j = i := Option.some.inj hm
      subst hj
      obtain ⟨hwake, h⟩ :=
        check_cause hinv hsteady hw (.inr hphase) hcheck hfail
      exact ⟨hwake, h.imp_right .inr⟩
  · next c₀ j answered hphase =>
      have hj : j = i := Option.some.inj hm
      subst hj
      cases hstep
      split at hfail
      · rcases hfail with h | h <;> cases h
      · next hno =>
          rcases hfail with h | h <;> cases h
          have hwake : w.phase.wake = some c := by rw [hphase]; rfl
          obtain ⟨o, ho, -⟩ :=
            (hinv.known j w hw c (List.mem_append_left _ (Option.mem_toList.2 hwake))).row
          have hans : answered = true := by
            unfold PushState.steady at hsteady
            dsimp only at hsteady
            rw [hw] at hsteady
            simpa [hphase] using hsteady
          subst hans
          refine ⟨hwake, .inl ⟨o, ho, .inr (.inr (.inr (.inr ?_)))⟩⟩
          show s.admits c.community = false
          simpa using hno
  · next c₀ j ready hphase =>
      cases hstep
      split at hfail <;> rcases hfail with h | h <;> cases h
  · next c₀ j reply hphase =>
      have hj : j = i := Option.some.inj hm
      subst hj
      cases hstep
      obtain ⟨rfl, hcause⟩ := reply_cause hw hphase hfail
      exact ⟨by rw [hphase]; rfl, .inr (.inl hcause)⟩
  · cases hstep

/-- Every call about to fail its wake has had its cause, or lost the wake. -/
def Founded (ms : List PushMove) : Prop :=
  ∀ i w c, (pushMachine.run ms).workers[i]? = some w → w.phase.failing c →
    CausedIn ms i w.calls c.key ∨ (pushMachine.run ms).Lost c

theorem founded_snoc {ms : List PushMove} (hinv : (pushMachine.run ms).Inv)
    (hfounded : Founded ms) (hsteady : (pushMachine.run ms).steady m = true) :
    Founded (ms ++ [m]) := by
  intro i w c hw hfail
  rw [Machine.run_snoc] at hw ⊢
  have hspec := (pushMachine.run ms).step_spec m
  change ((pushMachine.run ms).step m).workers[i]? = some w at hw
  show _ ∨ ((pushMachine.run ms).step m).Lost c
  generalize hrun : pushMachine.run ms = s at hinv hsteady hspec hw ⊢
  generalize s.step m = s' at hspec hw ⊢
  -- A worker that was failing its wake before the move.
  have hold : ∀ v, s.workers[i]? = some v → v.phase.failing c → v.calls = w.calls →
      CausedIn (ms ++ [m]) i w.calls c.key ∨ s'.Lost c := by
    intro v hv hvfail hcalls
    rcases hfounded i v c (by rw [hrun]; exact hv) hvfail with h | h
    · exact .inl (hcalls ▸ h.append m)
    · rw [hrun] at h
      have hmem : c ∈ v.held := List.mem_append_left _ (Option.mem_toList.2 hvfail.wake)
      exact .inr (lost_step (hspec.row c.key) (hinv.known i v hv c hmem).claim h)
  cases hspec with
  | quiet store h => exact hold w hw hfail rfl
  | join =>
      rcases getElem?_snoc_cases hw with ⟨-, rfl⟩ | ⟨-, hw⟩
      · rcases hfail with h | h <;> cases h
      · exact hold w hw hfail rfl
  | enqueue store h => exact hold w hw hfail rfl
  | claim j v store community claimUntil ids claimed hv hidle h =>
      rcases getElem?_set_cases hw with ⟨-, rfl, -⟩ | ⟨-, hw⟩
      · rcases hfail with h | h <;> exact absurd (hidle.symm.trans h) (by simp)
      · exact hold w hw hfail rfl
  | next j v c₀ rest hv hidle hbatch =>
      rcases getElem?_set_cases hw with ⟨-, rfl, -⟩ | ⟨-, hw⟩
      · rcases hfail with h | h <;> cases h
      · exact hold w hw hfail rfl
  | call j v p hv hm h =>
      rcases getElem?_set_cases hw with ⟨hij, rfl, -⟩ | ⟨-, hw⟩
      · subst hij
        obtain ⟨hwake, hcause⟩ := call_cause hinv hsteady hv hm h hfail
        have hin : InCall (pushMachine.run ms) i v.calls c.key :=
          ⟨v, c, by rw [hrun]; exact hv, rfl, hwake, rfl⟩
        rcases hcause with hcause | hcause | hlost
        · exact .inl ⟨ms, m, [], rfl, hin, .inl (by rw [hrun]; exact hcause)⟩
        · exact .inl ⟨ms, m, [], rfl, hin, .inr (by rw [hrun]; exact hcause)⟩
        · exact .inr hlost
      · exact hold w hw hfail rfl
  | disable j v c₀ store hv hphase h =>
      rcases getElem?_set_cases hw with ⟨hij, rfl, -⟩ | ⟨-, hw⟩
      · subst hij
        rcases hfail with h | h <;> cases h
        exact hold v hv (.inr hphase) rfl
      · exact hold w hw hfail rfl
  | finish j v c₀ set hv hwake hset hfailed =>
      rcases getElem?_set_cases hw with ⟨-, rfl, -⟩ | ⟨-, hw⟩
      · rcases hfail with h | h <;> cases h
      · exact hold w hw hfail rfl
  | giveUp j v hv =>
      rcases getElem?_set_cases hw with ⟨-, rfl, -⟩ | ⟨-, hw⟩
      · rcases hfail with h | h <;> cases h
      · exact hold w hw hfail rfl
  | crash j v hv =>
      rcases getElem?_set_cases hw with ⟨hij, rfl, -⟩ | ⟨-, hw⟩
      · subst hij
        exact hold v hv hfail rfl
      · exact hold w hw hfail rfl

end Call

/-! ## Every run -/

theorem PushState.inv_run (ms : List PushMove) : (pushMachine.run ms).Inv := by
  have hinit : PushState.Inv {} :=
    ⟨fun _ _ h => (by cases h), fun _ _ h => (by cases h), fun _ _ h => (by cases h),
      fun _ _ h => (by cases h), fun _ _ _ _ h => (by cases h), fun _ _ h => (by cases h)⟩
  exact pushMachine.stable_runFrom (fun s m (h : s.Inv) => h.step m) hinit ms

/-- What the delivery of wakes is held to, after the moves of a run. -/
structure PushSafe (ms : List PushMove) : Prop where
  alone : ∀ i j key, (pushMachine.run ms).Holds i key → (pushMachine.run ms).Holds j key →
    i = j
  final : ∀ m key o, (pushMachine.run ms).wakes.lookup key = some o →
    o.state = .delivered ∨ o.state = .failed →
    (pushMachine.run (ms ++ [m])).wakes.lookup key = some o
  cause : ∀ pre m post key o o', ms = pre ++ m :: post →
    (pushMachine.run pre).wakes.lookup key = some o → o.state ≠ .failed →
    (pushMachine.run (pre ++ [m])).wakes.lookup key = some o' → o'.state = .failed →
    ∃ i w, (pushMachine.run pre).workers[i]? = some w ∧ CausedIn pre i w.calls key

/-- In every run of steady moves a wake is given up only for cause. -/
theorem wake_failed_for_cause (ms : List PushMove)
    (hsteady : pushMachine.Meets (fun s m => s.steady m = true) {} ms) : PushSafe ms where
  alone i j key hi hj := (PushState.inv_run ms).holds_unique hi hj
  final m key o ho hfinal := by
    rw [Machine.run_snoc]
    exact final_step (PushState.inv_run ms) ((PushState.step_spec _ m).row key) ho hfinal
  cause pre m post key o o' hms ho hne ho' hfailed := by
    subst hms
    obtain ⟨hpre, -⟩ := pushMachine.meets_append.1 hsteady
    have hfounded : Founded pre := pushMachine.hist_run
      (fun _ _ _ h => (by cases h))
      (fun ms m _ h hm => founded_snoc (PushState.inv_run ms) h hm) hpre
    rw [Machine.run_snoc] at ho'
    cases (PushState.step_spec (pushMachine.run pre) m).row key with
    | same heq =>
        cases (heq.symm.trans ho').symm.trans ho
        exact absurd hfailed hne
    | new hid => exact absurd ((PushState.inv_run pre).ids key o ho) (Nat.not_lt.2 hid)
    | claimed o₀ u _ _ h =>
        cases h.symm.trans ho'
        cases hfailed
    | finished i w c o₀ o₁ hw _ hkey ho₀ hclaim hsending h _ hphase =>
        cases h.symm.trans ho'
        refine ⟨i, w, hw, ?_⟩
        rcases hfounded i w c hw (.inl (hphase hfailed)) with hcause | hlost
        · exact hkey ▸ hcause
        · exact absurd ⟨hclaim, hsending⟩ (hlost o₀ (hkey ▸ ho₀))

/-- A lease of one installation, and wakes for so many of its events, claimed
by one worker. -/
def claimedWakes (wakes : Nat) : List PushMove :=
  [.setLease (⟨.ofByte 7⟩, .ofByte 1, "phone")
      { generation := 1, active := true, endpointHash := some (.ofByte 2), expiresAt := 9000 }] ++
    (List.range wakes).map (fun n => .storeEvent (⟨.ofByte 7⟩, .ofByte (.ofNat n)) none) ++
    [.enqueue ⟨.ofByte 7⟩ ((List.range wakes).map fun n =>
        { author := .ofByte 1, installationId := "phone", leaseGeneration := 1
          eventId := .ofByte (.ofNat n), expiresAt := 3600 }),
      .join, .claim 0 ⟨.ofByte 7⟩ (List.range wakes) 0]

/-- One `deliver_one` call up to the gateway's answer, which takes so long. -/
def deliver (micros : Nat) (reply : GatewayReply) : List PushMove :=
  [.next 0, .check 0 true, .member 0 true, .check 0 true, .acquire 0 true, .prepare 0 true,
    .tick micros, .reply 0 reply, .write 0 true 0]

def PushState.wakeStates (s : PushState) : List WakeState := s.wakes.entries.map (·.2.state)

/-- The gateway accepts one wake and refuses the other. -/
theorem wake_failed_for_cause_refused :
    let ms := claimedWakes 2 ++ deliver 8000000 (.success (some .accepted)) ++
      deliver 8000000 (.gone none)
    (pushMachine.run ms).wakeStates = [.failed, .delivered] ∧ PushSafe ms :=
  ⟨by decide +kernel, wake_failed_for_cause _ (by decide +kernel)⟩

/-- Four answers of eight seconds each, then the fifth wake of the batch. -/
def slowBatch : List PushMove :=
  claimedWakes 5 ++ (List.replicate 4 (deliver 8000000 (.success (some .accepted)))).flatten ++
    [.next 0, .check 0 true]

/-- The first call's serving lease is not answered in time. -/
def unansweredLease : List PushMove :=
  claimedWakes 1 ++ [.next 0, .check 0 true, .member 0 true, .check 0 true, .acquire 0 false]

/-- Nothing speaks against the wake. -/
def soundWake (s : PushStore) (key : WakeKey) : Bool :=
  (s.wakes.lookup key).any fun o =>
    s.leaseAuthorizes key.1 o && (s.liveEvent key.1 o).isSome && epochSecs s.now < o.expiresAt &&
      s.events.lookup (key.1, o.eventId) = some { channelId := none } && s.admits key.1

/-- Both wakes fail with nothing said against them at any moment of their call:
the fifth of a slow batch, whose claim ran out, and one whose serving lease the
database did not answer for. -/
theorem wake_failed_without_cause :
    ((pushMachine.run (slowBatch ++ [.write 0 true 0])).wakes.lookup (⟨.ofByte 7⟩, 4)).map
        (·.state) = some .failed ∧
      (∀ n ≤ 2, soundWake (pushMachine.run (slowBatch.take (slowBatch.length - n))).toPushStore
        (⟨.ofByte 7⟩, 4) = true) ∧
      ((pushMachine.run (unansweredLease ++ [.write 0 true 0])).wakes.lookup
        (⟨.ofByte 7⟩, 0)).map (·.state) = some .failed ∧
      ∀ n ≤ 5, soundWake
        (pushMachine.run (unansweredLease.take (unansweredLease.length - n))).toPushStore
        (⟨.ofByte 7⟩, 0) = true := by
  decide +kernel

end Buzz.Relay
