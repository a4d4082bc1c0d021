import Buzz.Proofs.PairingAgreement

/-!
# The desktop code of a source

An offer may ask that a code shown on the source is typed on the target before
anything is released. `handle_target_code` compares five submissions at most
and proves the transcript on the right one.

Two calls get around that. `confirm_sas` does not look at the request, and the
desktop command `confirm_pairing_sas` calls it. And the fifth wrong submission
ends the session only after its rejection is built: a request id so long that
the rejection, a little longer than the submission, is more than NIP-44
encrypts leaves the session as it was, for the next guess. `guarded` says of a
call that it is neither.
-/

namespace Buzz.Pairing

open Buzz.Lib PairingSession

variable {env : PairingEnv}

/-- A message that releases something: the proof, or the payload. -/
def PairingMessage.isRelease : PairingMessage → Bool
  | .sasConfirm _ => true
  | .payload .. => true
  | _ => false

/-- The call is not a plain `confirm_sas` where a code was asked for, and if it
is the fifth wrong submission its rejection can be sent. -/
def PairingRun.guarded (env : PairingEnv) (r : PairingRun) (m : PairingMove) : Bool :=
  match m.call with
  | .confirmSas =>
      !r.session.desktopCodeRequested || r.session.state != .confirming ||
        r.session.isExpired (r.now + m.wait)
  | .handleTargetCode event _ =>
      match r.session.readSubmission (r.now + m.wait) event with
      | .error _ => true
      | .ok submission =>
          r.session.codeAttempts != 4 || submission.code == submission.expected ||
            decide ((PairingMessage.codeRejected submission.requestId 0).size ≤ env.maxPlaintext)
  | _ => true

/-! ## The session is past comparing -/

/-- No submission is compared from here on. -/
def Shut (s : PairingSession) (now : Nat) : Prop :=
  (s.state ≠ .waiting ∧ s.state ≠ .confirming) ∨ s.isExpired now = true

section Steps

variable {s s' : PairingSession} {now since : Nat} {call : PairingCall}
  {result : Except PairingError Told}

theorem not_shut {role : Role} (hopen : Open s now .confirming role) (hsince : since ≤ now)
    (h : Shut s since) : False := by
  rcases h with ⟨-, hstate⟩ | hexpired
  · exact hstate hopen.state
  · have hin := hopen.inTime
    unfold isExpired at hin hexpired
    rw [decide_eq_false_iff_not] at hin
    rw [decide_eq_true_eq] at hexpired
    omega

theorem Effect.later_state (h : Effect env s now call s' result) (hwaiting : s.state ≠ .waiting)
    (hconfirming : s.state ≠ .confirming) : s'.state ≠ .waiting ∧ s'.state ≠ .confirming := by
  have hno : ∀ {role : Role}, Open s now .confirming role → False :=
    fun hopen => hconfirming hopen.state
  cases h with
  | refused call e hnone => exact ⟨hwaiting, hconfirming⟩
  | stranded event hopen => exact absurd hopen.state hwaiting
  | offered event sessionId confirmation sasCode sasInput hopen harrived hid =>
      exact absurd hopen.state hwaiting
  | sent call message state hsends peer hpeer =>
      cases hsends with
      | sourceComplete success hopen =>
          cases success
          · exact ⟨nofun, nofun⟩
          · exact ⟨nofun, nofun⟩
      | _ => exact ⟨nofun, nofun⟩
  | took call event message state received htakes hpeer => cases htakes <;> exact ⟨nofun, nofun⟩
  | unsaid event message hopen hpeer hnone => exact ⟨nofun, nofun⟩
  | broken call event message hevent hpeer state role hopen hrunning e hnone =>
      exact ⟨nofun, nofun⟩
  | approved hopen => exact ⟨nofun, nofun⟩
  | hungUp reason hrunning => exact ⟨nofun, nofun⟩
  | drew draw code hopen hrequested hnone peer hpeer => exact ⟨hwaiting, hconfirming⟩
  | proved event later submission hsubmitted hcorrect message hproof peer hpeer =>
      exact ⟨nofun, nofun⟩
  | unproved event later submission hsubmitted hcorrect e hlate =>
      exact (hno hsubmitted.isOpen).elim
  | rejected event later submission hsubmitted hwrong peer hpeer remaining =>
      exact (hno hsubmitted.isOpen).elim
  | unrejected event later submission hsubmitted hwrong e hbuild =>
      exact (hno hsubmitted.isOpen).elim

theorem Shut.effect (h : Shut s since) (hsince : since ≤ now)
    (heffect : Effect env s now call s' result) : Shut s' (now + call.duration) := by
  rcases h with ⟨hwaiting, hconfirming⟩ | hexpired
  · exact .inl (heffect.later_state hwaiting hconfirming)
  · refine .inr ?_
    unfold isExpired at hexpired ⊢
    rw [decide_eq_true_eq] at hexpired ⊢
    rw [heffect.same.deadline]
    omega

theorem comparison_of_submitted {event : PairingEvent} {later : Nat} {submission : Submission}
    (h : Submitted s now event submission) :
    s.comparison now (.handleTargetCode event later) = [submission] := by
  show (s.readSubmission now event).toOption.toList = _
  rw [h.read]
  rfl

theorem Sends.comparison {message : PairingMessage} {state : SessionState}
    (h : Sends env s now call message state) : s.comparison now call = [] := by
  cases h <;> rfl

theorem Takes.comparison {event : PairingEvent} {message : PairingMessage} {state : SessionState}
    {received : Option (PayloadType × String)}
    (h : Takes env s now event call message state received) : s.comparison now call = [] := by
  cases h <;> rfl

end Steps

/-! ## The budget -/

section Budget

variable {r : PairingRun} {now : Nat} {call : PairingCall} {s' : PairingSession}
  {result : Except PairingError Told}

/-- Every comparison is counted, and all of them are with the one code drawn. -/
structure Counted (r : PairingRun) : Prop where
  attempts : r.session.codeAttempts = r.compared.length
  most : r.compared.length ≤ 5
  budget : r.compared.length ≤ 4 ∨ Shut r.session r.now
  current : ∀ code, r.session.desktopCode = some code → r.codes = [code]
  drawn : ∀ c ∈ r.compared, r.codes = [c.expected]
  undrawn : r.session.desktopCode = none → r.codes = [] ∨ Shut r.session r.now
  ready : r.session.state = .confirming →
    r.session.sasInput ≠ none ∧ r.session.peerPubkey ≠ none

namespace Counted

/-- A call that compares nothing and draws nothing. -/
theorem keep (h : Counted r) (hnow : r.now ≤ now)
    (heffect : Effect env r.session now call s' result)
    (hnone : r.session.comparison now call = [])
    (hcodes : (r.note now call (s', result)).codes = r.codes)
    (hattempts : s'.codeAttempts = r.session.codeAttempts)
    (hcode : s'.desktopCode = r.session.desktopCode)
    (hready : s'.state = .confirming → s'.sasInput ≠ none ∧ s'.peerPubkey ≠ none) :
    Counted (r.note now call (s', result)) := by
  have hcompared : (r.note now call (s', result)).compared = r.compared := by
    show r.compared ++ r.session.comparison now call = _
    rw [hnone, List.append_nil]
  have hshut : Shut r.session r.now → Shut s' (now + call.duration) :=
    fun hshut => hshut.effect hnow heffect
  refine ⟨?_, ?_, ?_, ?_, ?_, ?_, hready⟩
  · rw [hcompared]
    exact hattempts.trans h.attempts
  · rw [hcompared]
    exact h.most
  · rw [hcompared]
    exact h.budget.imp_right hshut
  · intro code hsome
    rw [hcodes]
    exact h.current code (hcode.symm.trans hsome)
  · rw [hcompared, hcodes]
    exact h.drawn
  · intro hnone'
    rw [hcodes]
    exact (h.undrawn (hcode.symm.trans hnone')).imp_right hshut

/-- A comparison: it is counted, and the session is shut if it was the last. -/
theorem compare (h : Counted r) (hnow : r.now ≤ now) {event : PairingEvent} {later : Nat}
    {submission : Submission} (hsubmitted : Submitted r.session now event submission)
    (hcodes : (r.note now (.handleTargetCode event later) (s', result)).codes = r.codes)
    (hattempts : s'.codeAttempts = (r.session.codeAttempts + 1) % 256)
    (hbudget : r.compared.length + 1 ≤ 4 ∨ Shut s' (now + later))
    (hcode : s'.desktopCode = r.session.desktopCode ∨
      (s'.desktopCode = none ∧ Shut s' (now + later)))
    (hready : s'.sasInput = r.session.sasInput ∧ s'.peerPubkey = r.session.peerPubkey) :
    Counted (r.note now (.handleTargetCode event later) (s', result)) := by
  have hcompared : (r.note now (.handleTargetCode event later) (s', result)).compared =
      r.compared ++ [submission] := by
    show r.compared ++ r.session.comparison now _ = _
    rw [comparison_of_submitted hsubmitted]
  have hfour : r.compared.length ≤ 4 :=
    h.budget.resolve_right (not_shut hsubmitted.isOpen hnow)
  have hone : r.codes = [submission.expected] := h.current _ hsubmitted.code
  have hlength : (r.compared ++ [submission]).length = r.compared.length + 1 := by simp
  refine ⟨?_, ?_, ?_, ?_, ?_, ?_, ?_⟩
  · rw [hcompared, hlength]
    refine hattempts.trans ?_
    rw [h.attempts]
    omega
  · rw [hcompared, hlength]
    omega
  · rw [hcompared, hlength]
    exact hbudget
  · intro code hsome
    rw [hcodes]
    rcases hcode with hcode | ⟨hnone, -⟩
    · exact h.current code (hcode.symm.trans hsome)
    · have hsome : s'.desktopCode = some code := hsome
      rw [hnone] at hsome
      cases hsome
  · intro c hc
    rw [hcodes]
    rw [hcompared, List.mem_append, List.mem_singleton] at hc
    rcases hc with hc | rfl
    · exact h.drawn c hc
    · exact hone
  · intro hnone
    rcases hcode with hcode | ⟨-, hshut⟩
    · have hnone := hcode.symm.trans hnone
      rw [hsubmitted.code] at hnone
      cases hnone
    · exact .inr hshut
  · intro _
    show s'.sasInput ≠ none ∧ s'.peerPubkey ≠ none
    rw [hready.1, hready.2]
    exact h.ready hsubmitted.isOpen.state

/-- The fifth wrong submission is rejected when its rejection can be sent. -/
theorem fourth_of_unrejected (h : Counted r) {m : PairingMove} (hm : r.guarded env m = true)
    {event : PairingEvent} {later : Nat} (hcall : m.call = .handleTargetCode event later)
    {submission : Submission} (hsubmitted : Submitted r.session (r.now + m.wait) event submission)
    (hwrong : submission.code ≠ submission.expected) {e : PairingError}
    (hbuild : (r.session.judged event).buildEvent env
      (.codeRejected submission.requestId (r.session.judged event).remainingAttempts) =
        .error e) : r.compared.length ≠ 4 := by
  intro hfour
  unfold PairingRun.guarded at hm
  rw [hcall] at hm
  simp only [hsubmitted.read] at hm
  have hattempts : r.session.codeAttempts = 4 := h.attempts.trans hfour
  have hfits : (PairingMessage.codeRejected submission.requestId 0).size ≤ env.maxPlaintext := by
    simpa [hattempts, hwrong] using hm
  have hremaining : (r.session.judged event).remainingAttempts = 0 := by
    show 5 - (r.session.codeAttempts + 1) % 256 = 0
    rw [hattempts]
  obtain ⟨peer, hpeer⟩ := Option.ne_none_iff_exists'.1 (h.ready hsubmitted.isOpen.state).2
  have hpeer : (r.session.judged event).peerPubkey = some peer := hpeer
  rw [hremaining, buildEvent, hpeer] at hbuild
  dsimp only at hbuild
  rw [if_pos hfits] at hbuild
  cases hbuild

theorem note (h : Counted r) {m : PairingMove} (hm : r.guarded env m = true)
    (heffect : Effect env r.session (r.now + m.wait) m.call s' result) :
    Counted (r.note (r.now + m.wait) m.call (s', result)) := by
  have hnow : r.now ≤ r.now + m.wait := Nat.le_add_right _ _
  have heffect' := heffect
  have hnil : r.codes ++ [] = r.codes := List.append_nil _
  generalize hcall : m.call = call at heffect heffect' ⊢
  cases heffect with
  | refused call e hnone => exact h.keep hnow heffect' hnone hnil rfl rfl h.ready
  | stranded event hopen =>
      refine h.keep hnow heffect' rfl hnil rfl rfl ?_
      intro hstate
      have hstate : r.session.state = .confirming := hstate
      rw [hopen.state] at hstate
      cases hstate
  | offered event sessionId confirmation sasCode sasInput hopen harrived hid =>
      exact h.keep hnow heffect' rfl hnil rfl rfl fun _ => ⟨nofun, nofun⟩
  | sent call message state hsends peer hpeer =>
      refine h.keep hnow heffect' hsends.comparison hnil rfl rfl ?_
      intro hstate
      cases hsends with
      | sourceComplete success hopen => cases success <;> cases hstate
      | _ => cases hstate
  | took call event message state received htakes hpeer =>
      refine h.keep hnow heffect' htakes.comparison hnil rfl rfl ?_
      intro hstate
      cases htakes <;> cases hstate
  | unsaid event message hopen hpeer hnone => exact h.keep hnow heffect' rfl hnil rfl rfl nofun
  | broken call event message hevent hpeer state role hopen hrunning e hnone =>
      exact h.keep hnow heffect' hnone hnil rfl rfl nofun
  | approved hopen => exact h.keep hnow heffect' rfl hnil rfl rfl nofun
  | hungUp reason hrunning => exact h.keep hnow heffect' rfl hnil rfl rfl nofun
  | drew draw code hopen hrequested hnone peer hpeer =>
      have hcodes : r.codes = [] := (h.undrawn hnone).resolve_right (not_shut hopen hnow)
      have hcompared : r.compared = [] := by
        refine List.eq_nil_iff_forall_not_mem.2 fun c hc => ?_
        have hdrawn := h.drawn c hc
        rw [hcodes] at hdrawn
        cases hdrawn
      have hsame : r.compared ++ [] = [] := by rw [hcompared]; rfl
      refine ⟨h.attempts.trans (congrArg List.length (hcompared.trans hsame.symm)), ?_, .inl ?_,
        ?_, ?_, nofun, h.ready⟩
      · exact (congrArg List.length hsame).trans_le (Nat.zero_le _)
      · exact (congrArg List.length hsame).trans_le (Nat.zero_le _)
      · intro code' hcode'
        cases hcode'
        show r.codes ++ [code] = [code]
        rw [hcodes]
        rfl
      · intro c hc
        have hc : c ∈ r.compared ++ [] := hc
        rw [hsame] at hc
        cases hc
  | proved event later submission hsubmitted hcorrect message hproof peer hpeer =>
      have hshut : Shut ((r.session.judged event).dropCode.enter .transferring)
        (r.now + m.wait + later) := .inl ⟨nofun, nofun⟩
      exact h.compare hnow hsubmitted hnil rfl (.inr hshut) (.inr ⟨rfl, hshut⟩) ⟨rfl, rfl⟩
  | unproved event later submission hsubmitted hcorrect e hlate =>
      obtain ⟨hinput, hpeer⟩ := h.ready hsubmitted.isOpen.state
      have hshut : Shut (r.session.judged event).dropCode (r.now + m.wait + later) := by
        refine .inr ?_
        rcases hlate with hlate | hnone | hnone
        · exact hlate
        · exact absurd hnone hinput
        · exact absurd hnone hpeer
      exact h.compare hnow hsubmitted hnil rfl (.inr hshut) (.inr ⟨rfl, hshut⟩) ⟨rfl, rfl⟩
  | rejected event later submission hsubmitted hwrong peer hpeer remaining =>
      split
      · have hshut : Shut ((r.session.judged event).dropCode.enter .aborted)
          (r.now + m.wait + later) := .inl ⟨nofun, nofun⟩
        exact h.compare hnow hsubmitted hnil rfl (.inr hshut) (.inr ⟨rfl, hshut⟩) ⟨rfl, rfl⟩
      · next hleft =>
          have hfour : r.compared.length ≤ 4 :=
            h.budget.resolve_right (not_shut hsubmitted.isOpen hnow)
          have hleft : 5 - (r.session.codeAttempts + 1) % 256 ≠ 0 := hleft
          have hattempts := h.attempts
          exact h.compare hnow hsubmitted hnil rfl (.inl (by omega)) (.inl rfl) ⟨rfl, rfl⟩
  | unrejected event later submission hsubmitted hwrong e hbuild =>
      have hfour : r.compared.length ≤ 4 :=
        h.budget.resolve_right (not_shut hsubmitted.isOpen hnow)
      have hne := h.fourth_of_unrejected hm hcall hsubmitted hwrong hbuild
      exact h.compare hnow hsubmitted hnil rfl (.inl (by omega)) (.inl rfl) ⟨rfl, rfl⟩

end Counted

end Budget

/-! ## The release -/

section Release

variable {r : PairingRun} {now : Nat} {call : PairingCall} {s' : PairingSession}
  {result : Except PairingError Told}

/-- The states of a source that has sent its proof. -/
def SessionState.isProved : SessionState → Bool
  | .transferring => true
  | .payloadExchanged => true
  | .completed => true
  | _ => false

/-- Something was released, or the session is past its proof. -/
def Released (r : PairingRun) : Prop :=
  r.session.state.isProved = true ∨ ∃ o ∈ r.sent, o.message.isRelease = true

/-- A release comes after the right code. -/
structure Earned (r : PairingRun) : Prop where
  role : r.session.role = .source
  earned : r.session.desktopCodeRequested = true → Released r →
    ∃ c ∈ r.compared, c.code = c.expected

namespace Earned

/-- A call that releases nothing a source did not have before. -/
theorem keep (h : Earned r) (heffect : Effect env r.session now call s' result)
    (hrequested : s'.desktopCodeRequested = r.session.desktopCodeRequested)
    (hreleased : r.session.desktopCodeRequested = true →
      Released (r.note now call (s', result)) → Released r) :
    Earned (r.note now call (s', result)) := by
  refine ⟨heffect.same.role.trans h.role, ?_⟩
  intro hasked hafter
  have hasked : r.session.desktopCodeRequested = true := hrequested.symm.trans hasked
  obtain ⟨c, hc, hcorrect⟩ := h.earned hasked (hreleased hasked hafter)
  exact ⟨c, List.mem_append_left _ hc, hcorrect⟩

/-- The call says nothing, and a session past its proof was so before. -/
theorem released_of_quiet (hsent : (r.note now call (s', result)).sent = r.sent)
    (hstate : s'.state.isProved = true → r.session.state.isProved = true)
    (h : Released (r.note now call (s', result))) : Released r := by
  rcases h with h | ⟨o, ho, hrelease⟩
  · exact .inl (hstate h)
  · rw [hsent] at ho
    exact .inr ⟨o, ho, hrelease⟩

/-- The call says one thing, which is no release before the proof. -/
theorem released_of_sent {outgoing : Outgoing}
    (hsent : (r.note now call (s', result)).sent = r.sent ++ [outgoing])
    (hmessage : outgoing.message.isRelease = true → r.session.state.isProved = true)
    (hstate : s'.state.isProved = true → r.session.state.isProved = true)
    (h : Released (r.note now call (s', result))) : Released r := by
  rcases h with h | ⟨o, ho, hrelease⟩
  · exact .inl (hstate h)
  · rw [hsent, List.mem_append, List.mem_singleton] at ho
    rcases ho with ho | rfl
    · exact .inr ⟨o, ho, hrelease⟩
    · exact .inl (hmessage hrelease)

variable {state : SessionState}

theorem not_target (h : Earned r) (hopen : Open r.session now state .target) :
    False := by
  have hrole := h.role
  rw [hopen.role] at hrole
  cases hrole

variable {m : PairingMove}

/-- No proof without the code, where the code was asked for. -/
theorem not_asked_of_guarded (hm : r.guarded env m = true)
    (hcall : m.call = .confirmSas)
    (hopen : Open r.session (r.now + m.wait) .confirming .source) :
    r.session.desktopCodeRequested = false := by
  unfold PairingRun.guarded at hm
  rw [hcall] at hm
  simpa [hopen.state, hopen.inTime] using hm

theorem sent (h : Earned r) (hm : r.guarded env m = true)
    {message : PairingMessage}
    (hsends : Sends env r.session (r.now + m.wait) m.call message state)
    {peer : PublicKey}
    (heffect : Effect env r.session (r.now + m.wait) m.call (r.session.enter state)
      (.ok { sent := some ⟨peer, message⟩ })) :
    Earned (r.note (r.now + m.wait) m.call
      (r.session.enter state, .ok { sent := some ⟨peer, message⟩ })) := by
  refine h.keep heffect rfl fun hasked => ?_
  have hlate : ∀ {state : SessionState} {role : Role},
      Open r.session (r.now + m.wait) state role → state.isProved = true →
      r.session.state.isProved = true := by
    intro state role hopen hproved
    rw [hopen.state]
    exact hproved
  generalize hcall : m.call = call at hsends
  cases hsends with
  | proof message hopen hproof =>
      rw [not_asked_of_guarded hm hcall hopen] at hasked
      cases hasked
  | payload payloadType text hopen =>
      exact released_of_sent rfl (fun _ => hlate hopen rfl) fun _ => hlate hopen rfl
  | sourceComplete success hopen => exact released_of_sent rfl nofun fun _ => hlate hopen rfl
  | complete hopen => exact (h.not_target hopen).elim
  | abort reason hrunning => exact released_of_sent rfl nofun nofun

theorem took (h : Earned r) {event : PairingEvent} {message : PairingMessage}
    {received : Option (PayloadType × String)}
    (htakes : Takes env r.session now event call message state received)
    (heffect : Effect env r.session now call ((r.session.enter state).recordEvent event)
      (.ok { accepted := some (event, message), received := received })) :
    Earned (r.note now call ((r.session.enter state).recordEvent event,
      .ok { accepted := some (event, message), received := received })) := by
  refine h.keep heffect rfl fun _ => released_of_quiet (List.append_nil _) ?_
  intro hproved
  cases htakes with
  | returned payloadType text hopen =>
      rw [hopen.state]
      rfl
  | payload payloadType text hopen => exact (h.not_target hopen).elim
  | completed hopen =>
      rw [hopen.state]
      rfl
  | confirmed hash expected hopen hexpected hhash => exact (h.not_target hopen).elim
  | aborted reason hrunning hpeer => cases hproved

theorem note (h : Earned r) (hspoken : Spoken r) (hm : r.guarded env m = true)
    (heffect : Effect env r.session (r.now + m.wait) m.call s' result) :
    Earned (r.note (r.now + m.wait) m.call (s', result)) := by
  have heffect' := heffect
  have hnil : r.sent ++ [] = r.sent := List.append_nil _
  generalize hcall : m.call = call at heffect heffect' ⊢
  cases heffect with
  | refused call e hnone => exact h.keep heffect' rfl fun _ => released_of_quiet hnil id
  | stranded event hopen => exact h.keep heffect' rfl fun _ => released_of_quiet hnil id
  | offered event sessionId confirmation sasCode sasInput hopen harrived hid =>
      refine ⟨h.role, ?_⟩
      intro _ hreleased
      -- The request is written here, before the session said anything.
      rcases hreleased with hproved | ⟨o, ho, -⟩
      · cases hproved
      · have ho : o ∈ r.sent ++ [] := ho
        rw [hnil, hspoken.quiet hopen.state] at ho
        cases ho
  | sent call message state hsends peer hpeer =>
      subst hcall
      exact h.sent hm hsends heffect'
  | took call event message state received htakes hpeer => exact h.took htakes heffect'
  | unsaid event message hopen hpeer hnone => exact (h.not_target hopen).elim
  | broken call event message hevent hpeer state role hopen hrunning e hnone =>
      exact h.keep heffect' rfl fun _ => released_of_quiet hnil nofun
  | approved hopen => exact (h.not_target hopen).elim
  | hungUp reason hrunning => exact h.keep heffect' rfl fun _ => released_of_quiet hnil nofun
  | drew draw code hopen hrequested hnone peer hpeer =>
      exact h.keep heffect' rfl fun _ => released_of_sent rfl nofun id
  | proved event later submission hsubmitted hcorrect message hproof peer hpeer =>
      refine ⟨h.role, ?_⟩
      intro _ _
      refine ⟨submission, List.mem_append_right _ ?_, hcorrect⟩
      rw [comparison_of_submitted hsubmitted]
      exact List.mem_singleton.2 rfl
  | unproved event later submission hsubmitted hcorrect e hlate =>
      exact h.keep heffect' rfl fun _ => released_of_quiet hnil id
  | rejected event later submission hsubmitted hwrong peer hpeer remaining =>
      refine h.keep heffect' (by split <;> rfl) fun _ => released_of_sent rfl nofun ?_
      split
      · exact nofun
      · exact id
  | unrejected event later submission hsubmitted hwrong e hbuild =>
      exact h.keep heffect' rfl fun _ => released_of_quiet hnil id

end Earned

/-- The request is what the offer the session took asked for. -/
def Flagged (r : PairingRun) : Prop :=
  ∀ a ∈ r.accepted, ∀ sessionId version confirmation,
    a.2 = .offer sessionId version confirmation →
    r.session.desktopCodeRequested = (confirmation == some "desktop-code-v1")

namespace Flagged

theorem keep (h : Flagged r) {accepted : List (PairingEvent × PairingMessage)}
    (haccepted : (r.note now call (s', result)).accepted = r.accepted ++ accepted)
    (hrequested : s'.desktopCodeRequested = r.session.desktopCodeRequested)
    (hnew : ∀ a ∈ accepted, ∀ sessionId version confirmation,
      a.2 ≠ .offer sessionId version confirmation) :
    Flagged (r.note now call (s', result)) := by
  intro a ha sessionId version confirmation hoffer
  rw [haccepted, List.mem_append] at ha
  rcases ha with ha | ha
  · exact hrequested.trans (h a ha sessionId version confirmation hoffer)
  · exact absurd hoffer (hnew a ha sessionId version confirmation)

theorem keep_one (h : Flagged r) {a : PairingEvent × PairingMessage}
    (haccepted : (r.note now call (s', result)).accepted = r.accepted ++ [a])
    (hrequested : s'.desktopCodeRequested = r.session.desktopCodeRequested)
    (hnew : ∀ sessionId version confirmation, a.2 ≠ .offer sessionId version confirmation) :
    Flagged (r.note now call (s', result)) := by
  refine h.keep haccepted hrequested ?_
  intro b hb
  rw [List.mem_singleton.1 hb]
  exact hnew

theorem note (h : Flagged r) (hbound : Bound r)
    (heffect : Effect env r.session now call s' result) :
    Flagged (r.note now call (s', result)) := by
  have hnil : ∀ a ∈ ([] : List (PairingEvent × PairingMessage)), ∀ sessionId version confirmation,
    a.2 ≠ .offer sessionId version confirmation := fun _ ha => absurd ha List.not_mem_nil
  cases heffect with
  | offered event sessionId confirmation sasCode sasInput hopen harrived hid =>
      intro a ha sessionId' version' confirmation' hoffer
      have ha : a ∈ r.accepted ++ [(event, .offer sessionId 1 confirmation)] := ha
      rw [hbound.waiting hopen.state, List.nil_append, List.mem_singleton] at ha
      rw [ha] at hoffer
      cases hoffer
      rfl
  | took call event message state received htakes hpeer =>
      refine h.keep_one rfl rfl ?_
      cases htakes <;> exact nofun
  | proved event later submission hsubmitted hcorrect message hproof peer hpeer =>
      exact h.keep_one rfl rfl nofun
  | rejected event later submission hsubmitted hwrong peer hpeer remaining =>
      exact h.keep_one rfl (by split <;> rfl) nofun
  | _ => exact h.keep rfl rfl hnil

end Flagged

end Release

/-! ## Every run -/

/-- Where the offer asked for a code, a release has the right submission of
the one code before it; and five submissions are compared at most. -/
structure CodeHolds (r : PairingRun) : Prop where
  earned : (∃ a ∈ r.accepted, ∃ sessionId version,
      a.2 = .offer sessionId version (some "desktop-code-v1")) →
    (∃ o ∈ r.sent, o.message.isRelease = true) →
    ∃ c ∈ r.compared, c.code = c.expected ∧ r.codes = [c.expected]
  most : r.compared.length ≤ 5

/-- What the runs of a source that keep to the condition have. -/
structure CodeSound (r : PairingRun) : Prop where
  bound : Bound r
  spoken : Spoken r
  counted : Counted r
  earned : Earned r
  flagged : Flagged r

theorem CodeSound.step {r : PairingRun} (h : CodeSound r) {m : PairingMove}
    (hm : r.guarded env m = true) : CodeSound (r.step env m) := by
  have heffect := call_effect env r.session (r.now + m.wait) m.call
  exact ⟨h.bound.note heffect, h.spoken.note heffect, h.counted.note hm heffect,
    h.earned.note h.spoken hm heffect, h.flagged.note h.bound heffect⟩

theorem CodeSound.holds {r : PairingRun} (h : CodeSound r) : CodeHolds r := by
  refine ⟨?_, h.counted.most⟩
  rintro ⟨a, ha, sessionId, version, hoffer⟩ hsent
  have hasked := h.flagged a ha sessionId version _ hoffer
  obtain ⟨c, hc, hcorrect⟩ := h.earned.earned hasked (.inr hsent)
  exact ⟨c, hc, hcorrect, h.counted.drawn c hc⟩

theorem codeSound_source (keys : Keys) (secret : Bytes32) (now : Nat) :
    CodeSound (sourceStart env keys secret now) where
  bound := bound_source keys secret now
  spoken := spoken_source keys secret now
  counted := ⟨rfl, Nat.zero_le _, .inl (Nat.zero_le _), nofun, nofun, fun _ => .inl rfl, nofun⟩
  earned := by
    refine ⟨rfl, ?_⟩
    rintro hasked -
    cases hasked
  flagged _ ha := absurd ha List.not_mem_nil

theorem desktop_code_guards_release (env : PairingEnv) (keys : Keys) (secret : Bytes32)
    (now : Nat) (ms : List PairingMove)
    (hms : (pairing env (sourceStart env keys secret now)).Meets
      (fun r m => r.guarded env m = true) (sourceStart env keys secret now) ms) :
    CodeHolds ((pairing env (sourceStart env keys secret now)).run ms) := by
  have hsound := (pairing env (sourceStart env keys secret now)).inv_run
    (I := CodeSound) (codeSound_source keys secret now) (fun _ _ h hm => h.step hm) hms
  exact hsound.holds

/-! The source of the test vectors, asked for a code, which is 000042. -/

def codeOffer : PairingMove :=
  ⟨1, .handleOffer (toSource 1
    (.offer (vectorEnv.deriveSessionId vectorSecret).toHex 1 (some "desktop-code-v1")))⟩

def codeGuess (id : Nat) (code : String) : PairingMove :=
  ⟨1, .handleTargetCode (toSource id (.codeSubmit code "r")) 0⟩

def codeMoves : List PairingMove :=
  [codeOffer, ⟨1, .startDesktopCode 42⟩, codeGuess 2 "000000", codeGuess 3 "000042",
    ⟨1, .sendPayload .custom "secret"⟩]

theorem desktop_code_guards_release_typed :
    (((pairing vectorEnv (sourceStart vectorEnv vectorSource vectorSecret 0)).run
        codeMoves).sent.any fun o => o.message.isRelease) = true ∧
      CodeHolds ((pairing vectorEnv (sourceStart vectorEnv vectorSource vectorSecret 0)).run
        codeMoves) :=
  ⟨by decide +kernel, desktop_code_guards_release vectorEnv vectorSource vectorSecret 0 codeMoves
    (by decide +kernel)⟩

/-- The desktop command sends the proof and the payload of a session that was
asked for a code, and nothing was compared. -/
theorem confirm_pairing_sas_skips_code :
    ¬ CodeHolds ((pairing vectorEnv (sourceStart vectorEnv vectorSource vectorSecret 0)).run
      ([codeOffer, ⟨1, .startDesktopCode 42⟩] ++ confirmPairingSas "secret")) := by
  intro h
  have hasked : (((pairing vectorEnv (sourceStart vectorEnv vectorSource vectorSecret 0)).run
      ([codeOffer, ⟨1, .startDesktopCode 42⟩] ++ confirmPairingSas "secret")).accepted.map
      Prod.snd) = [.offer (vectorEnv.deriveSessionId vectorSecret).toHex 1
        (some "desktop-code-v1")] := by
    decide +kernel
  have hsent : (((pairing vectorEnv (sourceStart vectorEnv vectorSource vectorSecret 0)).run
      ([codeOffer, ⟨1, .startDesktopCode 42⟩] ++ confirmPairingSas "secret")).sent.any
      fun o => o.message.isRelease) = true := by
    decide +kernel
  have hnone : ((pairing vectorEnv (sourceStart vectorEnv vectorSource vectorSecret 0)).run
      ([codeOffer, ⟨1, .startDesktopCode 42⟩] ++ confirmPairingSas "secret")).compared = [] := by
    decide +kernel
  obtain ⟨a, ha, hoffer⟩ := List.mem_map.1 (hasked ▸ List.mem_singleton.2 rfl)
  obtain ⟨c, hc, -⟩ := h.earned ⟨a, ha, _, _, hoffer⟩ (List.any_eq_true.1 hsent)
  rw [hnone] at hc
  cases hc

end Buzz.Pairing
