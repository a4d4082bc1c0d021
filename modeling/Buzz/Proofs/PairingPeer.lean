import Buzz.Proofs.PairingSteps

/-!
# A pairing session binds one peer and transfers one secret

The peer is written while the session waits for an offer, and nothing is
accepted before that, so every accepted event is signed by the peer the
session has now. An id is recorded with the event that brought it. The states
are walked in one direction, which leaves room for one payload and puts the
target's approval before it.
-/

namespace Buzz.Pairing

open Buzz.Lib PairingSession

variable {env : PairingEnv}

/-! ## One call -/

section Calls

variable {s s' : PairingSession} {now : Nat} {call : PairingCall}
  {result : Except PairingError Told}

/-- What a session is made with and keeps. -/
structure SameSession (s s' : PairingSession) : Prop where
  role : s'.role = s.role
  keys : s'.keys = s.keys
  secret : s'.sessionSecret = s.sessionSecret
  sessionId : s'.sessionId = s.sessionId
  deadline : s'.deadline = s.deadline

theorem Effect.same (h : Effect env s now call s' result) : SameSession s s' := by
  cases h with
  | rejected event later submission hsubmitted hwrong peer hpeer remaining =>
      split
      · exact ⟨rfl, rfl, rfl, rfl, rfl⟩
      · exact ⟨rfl, rfl, rfl, rfl, rfl⟩
  | _ => exact ⟨rfl, rfl, rfl, rfl, rfl⟩

/-- A call that ends the session from outside: `abort`, or the peer's. -/
def PairingCall.isAbort : PairingCall → Bool
  | .abort _ => true
  | .handleAbort _ => true
  | _ => false

/-- The session is in time for a method, in a state it has not finished in. -/
def PairingSession.InPlay (s : PairingSession) (now : Nat) : Prop :=
  ∃ state role, Open s now state role ∧ state.isTerminal = false

theorem Sends.inPlay {message : PairingMessage} {state : SessionState}
    (h : Sends env s now call message state) :
    s.InPlay now ∨ (call.isAbort = true ∧ s.state.isTerminal = false) := by
  cases h with
  | abort reason hrunning => exact .inr ⟨rfl, hrunning⟩
  | proof message hopen hproof => exact .inl ⟨_, _, hopen, rfl⟩
  | payload payloadType text hopen => exact .inl ⟨_, _, hopen, rfl⟩
  | sourceComplete success hopen => exact .inl ⟨_, _, hopen, rfl⟩
  | complete hopen => exact .inl ⟨_, _, hopen, rfl⟩

theorem Takes.inPlay {event : PairingEvent} {message : PairingMessage} {state : SessionState}
    {received : Option (PayloadType × String)}
    (h : Takes env s now event call message state received) :
    s.InPlay now ∨ (call.isAbort = true ∧ s.state.isTerminal = false) := by
  cases h with
  | aborted reason hrunning hpeer => exact .inr ⟨rfl, hrunning⟩
  | returned payloadType text hopen => exact .inl ⟨_, _, hopen, rfl⟩
  | payload payloadType text hopen => exact .inl ⟨_, _, hopen, rfl⟩
  | completed hopen => exact .inl ⟨_, _, hopen, rfl⟩
  | confirmed hash expected hopen hexpected hhash => exact .inl ⟨_, _, hopen, rfl⟩

/-- Only a session in play changes, or one that is aborted. -/
theorem Effect.inPlay (h : Effect env s now call s' result) :
    s' = s ∨ s.InPlay now ∨ (call.isAbort = true ∧ s.state.isTerminal = false) := by
  cases h with
  | refused call e hnone => exact .inl rfl
  | stranded event hopen => exact .inr (.inl ⟨_, _, hopen, rfl⟩)
  | offered event sessionId confirmation sasCode sasInput hopen harrived hid =>
      exact .inr (.inl ⟨_, _, hopen, rfl⟩)
  | sent call message state hsends peer hpeer => exact .inr hsends.inPlay
  | took call event message state received htakes hpeer => exact .inr htakes.inPlay
  | unsaid event message hopen hpeer hnone => exact .inr (.inl ⟨_, _, hopen, rfl⟩)
  | broken call event message hevent hpeer state role hopen hrunning e hnone =>
      exact .inr (.inl ⟨_, _, hopen, hrunning⟩)
  | approved hopen => exact .inr (.inl ⟨_, _, hopen, rfl⟩)
  | hungUp reason hrunning => exact .inr (.inr ⟨rfl, hrunning⟩)
  | drew draw code hopen hrequested hnone peer hpeer => exact .inr (.inl ⟨_, _, hopen, rfl⟩)
  | proved event later submission hsubmitted hcorrect message hproof peer hpeer =>
      exact .inr (.inl ⟨_, _, hsubmitted.isOpen, rfl⟩)
  | unproved event later submission hsubmitted hcorrect e hlate =>
      exact .inr (.inl ⟨_, _, hsubmitted.isOpen, rfl⟩)
  | rejected event later submission hsubmitted hwrong peer hpeer remaining =>
      exact .inr (.inl ⟨_, _, hsubmitted.isOpen, rfl⟩)
  | unrejected event later submission hsubmitted hwrong e hbuild =>
      exact .inr (.inl ⟨_, _, hsubmitted.isOpen, rfl⟩)

/-- A finished session stays as it is. -/
theorem Effect.terminal (h : Effect env s now call s' result)
    (hterminal : s.state.isTerminal = true) : s' = s := by
  rcases h.inPlay with hsame | ⟨state, role, hopen, hrunning⟩ | ⟨-, hrunning⟩
  · exact hsame
  · rw [hopen.state, hrunning] at hterminal
    cases hterminal
  · rw [hrunning] at hterminal
    cases hterminal

/-- Past the deadline only an abort does anything. -/
theorem Effect.expired (h : Effect env s now call s' result) (hlate : s.isExpired now = true)
    (hcall : call.isAbort = false) : s' = s := by
  rcases h.inPlay with hsame | ⟨state, role, hopen, -⟩ | ⟨habort, -⟩
  · exact hsame
  · rw [hopen.inTime] at hlate
    cases hlate
  · rw [habort] at hcall
    cases hcall

end Calls

/-! ## Whole runs -/

section Runs

variable {r : PairingRun} {now : Nat} {call : PairingCall} {s' : PairingSession}
  {result : Except PairingError Told}

/-- Every accepted event was new and signed by the peer. -/
structure Bound (r : PairingRun) : Prop where
  recorded : ∀ a ∈ r.accepted, a.1.event.id ∈ r.session.processedIds
  once : (r.accepted.map fun a => a.1.event.id).Nodup
  signer : ∀ a ∈ r.accepted, r.session.peerPubkey = some a.1.event.pubkey
  waiting : r.session.state = .waiting → r.accepted = []
  peered : r.session.state ≠ .waiting → r.session.state ≠ .aborted →
    r.session.peerPubkey ≠ none

namespace Bound

/-- A call that accepts nothing, and leaves the peer of a session that did. -/
theorem keep (h : Bound r) (haccepted : (r.note now call (s', result)).accepted = r.accepted)
    (hids : ∀ id ∈ r.session.processedIds, id ∈ s'.processedIds)
    (hpeer : s'.peerPubkey = r.session.peerPubkey ∨ r.session.state = .waiting)
    (hstate : s'.state = .waiting → r.session.state = .waiting)
    (hpeered : s'.state ≠ .waiting → s'.state ≠ .aborted → s'.peerPubkey ≠ none) :
    Bound (r.note now call (s', result)) := by
  refine ⟨?_, ?_, ?_, ?_, hpeered⟩
  · intro a ha
    rw [haccepted] at ha
    exact hids _ (h.recorded a ha)
  · rw [haccepted]
    exact h.once
  · intro a ha
    rw [haccepted] at ha
    rcases hpeer with hpeer | hwaiting
    · exact hpeer.trans (h.signer a ha)
    · rw [h.waiting hwaiting] at ha
      cases ha
  · intro hwaiting
    rw [haccepted]
    exact h.waiting (hstate hwaiting)

variable {event : PairingEvent} {message : PairingMessage}

/-- A call that accepts an event. -/
theorem accept (h : Bound r)
    (haccepted : (r.note now call (s', result)).accepted = r.accepted ++ [(event, message)])
    (hids : s'.processedIds = r.session.processedIds ++ [event.event.id])
    (hfresh : event.event.id ∉ r.session.processedIds)
    (hpeer : s'.peerPubkey = some event.event.pubkey)
    (hold : r.session.peerPubkey = some event.event.pubkey ∨ r.session.state = .waiting)
    (hstate : s'.state ≠ .waiting) : Bound (r.note now call (s', result)) := by
  refine ⟨?_, ?_, ?_, ?_, ?_⟩
  · intro a ha
    show a.1.event.id ∈ s'.processedIds
    rw [haccepted, List.mem_append] at ha
    rw [hids]
    rcases ha with ha | ha
    · exact List.mem_append_left _ (h.recorded a ha)
    · rw [List.mem_singleton.1 ha]
      exact List.mem_append_right _ (List.mem_singleton.2 rfl)
  · rw [haccepted, List.map_append, List.nodup_append]
    refine ⟨h.once, List.nodup_singleton _, ?_⟩
    intro id hid id' hid' heq
    obtain ⟨a, ha, rfl⟩ := List.mem_map.1 hid
    rw [List.map_singleton, List.mem_singleton] at hid'
    rw [hid'] at heq
    exact hfresh (heq ▸ h.recorded a ha)
  · intro a ha
    show s'.peerPubkey = _
    rw [haccepted, List.mem_append] at ha
    rcases ha with ha | ha
    · rcases hold with hold | hwaiting
      · rw [hpeer, ← hold]
        exact h.signer a ha
      · rw [h.waiting hwaiting] at ha
        cases ha
    · rw [List.mem_singleton.1 ha]
      exact hpeer
  · intro hwaiting
    exact absurd hwaiting hstate
  · intro _ _ hnone
    have hnone : s'.peerPubkey = none := hnone
    rw [hpeer] at hnone
    cases hnone

/-- An event that passed the checks of a session with a peer is the peer's. -/
theorem peer_eq (h : Bound r) (hevent : FromPeer r.session event message)
    (hwaiting : r.session.state ≠ .waiting)
    (haborted : r.session.state ≠ .aborted) :
    r.session.peerPubkey = some event.event.pubkey := by
  obtain ⟨peer, hpeer⟩ := Option.ne_none_iff_exists'.1 (h.peered hwaiting haborted)
  rw [hpeer, hevent.signer peer hpeer]

theorem peer_eq_of_open (h : Bound r)
    (hevent : FromPeer r.session event message) {state : SessionState}
    {role : Role} (hopen : Open r.session now state role)
    (hwaiting : state ≠ .waiting) (haborted : state ≠ .aborted) :
    r.session.peerPubkey = some event.event.pubkey :=
  h.peer_eq hevent (hopen.state ▸ hwaiting) (hopen.state ▸ haborted)

theorem peer_eq_of_takes (h : Bound r) {state : SessionState}
    {received : Option (PayloadType × String)}
    (htakes : Takes env r.session now event call message state received)
    (hevent : FromPeer r.session event message) :
    r.session.peerPubkey = some event.event.pubkey ∧ state ≠ .waiting := by
  cases htakes with
  | returned payloadType text hopen =>
      exact ⟨h.peer_eq_of_open hevent hopen (by decide) (by decide), by decide⟩
  | payload payloadType text hopen =>
      exact ⟨h.peer_eq_of_open hevent hopen (by decide) (by decide), by decide⟩
  | completed hopen => exact ⟨h.peer_eq_of_open hevent hopen (by decide) (by decide), by decide⟩
  | confirmed hash expected hopen hexpected hhash =>
      exact ⟨h.peer_eq_of_open hevent hopen (by decide) (by decide), by decide⟩
  | aborted reason hrunning hpeer =>
      refine ⟨?_, by decide⟩
      cases hpeer' : r.session.peerPubkey with
      | none =>
          rw [hpeer'] at hpeer
          cases hpeer
      | some peer => rw [hevent.signer peer hpeer']

theorem note (h : Bound r) (heffect : Effect env r.session now call s' result) :
    Bound (r.note now call (s', result)) := by
  have hsame : ∀ id ∈ r.session.processedIds, id ∈ r.session.processedIds := fun _ hid => hid
  have hmore : ∀ id', ∀ id ∈ r.session.processedIds, id ∈ r.session.processedIds ++ [id'] :=
    fun _ _ hid => List.mem_append_left _ hid
  have hnil : r.accepted ++ [] = r.accepted := List.append_nil _
  cases heffect with
  | refused call e hnone => exact h.keep hnil hsame (.inl rfl) id h.peered
  | stranded event hopen =>
      refine h.keep hnil hsame (.inr hopen.state) id ?_
      intro hwaiting
      exact absurd hopen.state hwaiting
  | offered event sessionId confirmation sasCode sasInput hopen harrived hid =>
      exact h.accept rfl rfl harrived.fresh rfl (.inr hopen.state) (by simp)
  | sent call message state hsends peer hpeer =>
      have hstate : state ≠ .waiting := by
        cases hsends with
        | sourceComplete success hopen => cases success <;> simp
        | _ => simp
      refine h.keep hnil hsame (.inl rfl) (fun hwaiting => absurd hwaiting hstate) ?_
      intro _ _ hnone
      have hnone : r.session.peerPubkey = none := hnone
      rw [hpeer] at hnone
      cases hnone
  | took call event message state received htakes hpeer =>
      obtain ⟨hsigner, hstate⟩ := h.peer_eq_of_takes htakes hpeer
      exact h.accept rfl rfl hpeer.fresh hsigner (.inl hsigner) hstate
  | unsaid event message hopen hpeer hnone =>
      refine h.keep hnil (hmore _) (.inl rfl) (fun hwaiting => nomatch hwaiting) ?_
      intro _ _
      exact h.peered (by rw [hopen.state]; simp) (by rw [hopen.state]; simp)
  | broken call event message hevent hpeer state role hopen hrunning e hnone =>
      refine h.keep hnil hsame (.inl rfl) (fun hwaiting => nomatch hwaiting) ?_
      intro _ haborted
      exact absurd rfl haborted
  | approved hopen =>
      refine h.keep hnil hsame (.inl rfl) (fun hwaiting => nomatch hwaiting) ?_
      intro _ _
      exact h.peered (by rw [hopen.state]; simp) (by rw [hopen.state]; simp)
  | hungUp reason hrunning =>
      refine h.keep hnil hsame (.inl rfl) (fun hwaiting => nomatch hwaiting) ?_
      intro _ haborted
      exact absurd rfl haborted
  | drew draw code hopen hrequested hnone peer hpeer =>
      exact h.keep hnil hsame (.inl rfl) id h.peered
  | proved event later submission hsubmitted hcorrect message hproof peer hpeer =>
      have hsigner := h.peer_eq_of_open hsubmitted.fromPeer hsubmitted.isOpen (by decide)
        (by decide)
      exact h.accept rfl rfl hsubmitted.fromPeer.fresh hsigner (.inl hsigner) nofun
  | unproved event later submission hsubmitted hcorrect e hlate =>
      exact h.keep hnil (hmore _) (.inl rfl) id h.peered
  | rejected event later submission hsubmitted hwrong peer hpeer remaining =>
      have hsigner := h.peer_eq_of_open hsubmitted.fromPeer hsubmitted.isOpen (by decide)
        (by decide)
      have hconfirming : (r.session.judged event).state ≠ .waiting := by
        show r.session.state ≠ .waiting
        rw [hsubmitted.isOpen.state]
        decide
      split
      · exact h.accept rfl rfl hsubmitted.fromPeer.fresh hsigner (.inl hsigner) nofun
      · exact h.accept rfl rfl hsubmitted.fromPeer.fresh hsigner (.inl hsigner) hconfirming
  | unrejected event later submission hsubmitted hwrong e hbuild =>
      exact h.keep hnil (hmore _) (.inl rfl) id h.peered

end Bound

def PairingMessage.isPayload : PairingMessage → Bool
  | .payload .. => true
  | _ => false

/-- The payloads a session sent or took. -/
def PairingRun.payloads (r : PairingRun) : Nat :=
  (r.sent.countP fun outgoing => outgoing.message.isPayload) + r.received.length

/-- The states before a payload goes either way. -/
def SessionState.isEarly : SessionState → Bool
  | .waiting => true
  | .confirming => true
  | .awaitingConfirmation => true
  | .transferring => true
  | _ => false

/-- One payload a session, and none before its time. -/
structure Carried (r : PairingRun) : Prop where
  once : r.payloads ≤ 1
  early : r.session.state.isEarly = true → r.payloads = 0

namespace Carried

/-- A call that carries no payload, from a state that has not. -/
theorem keep (h : Carried r) (hpayloads : (r.note now call (s', result)).payloads = r.payloads)
    (hstate : s'.state.isEarly = true → r.session.state.isEarly = true) :
    Carried (r.note now call (s', result)) := by
  refine ⟨?_, ?_⟩
  · rw [hpayloads]
    exact h.once
  · intro hearly
    rw [hpayloads]
    exact h.early (hstate hearly)

theorem carry (h : Carried r) (hearly : r.session.state.isEarly = true)
    (hpayloads : (r.note now call (s', result)).payloads = r.payloads + 1)
    (hstate : s'.state.isEarly = false) : Carried (r.note now call (s', result)) := by
  refine ⟨?_, ?_⟩
  · rw [hpayloads, h.early hearly]
  · intro hlate
    have hlate : s'.state.isEarly = true := hlate
    rw [hstate] at hlate
    cases hlate

theorem payloads_note (told : Told) :
    (r.note now call (s', .ok told)).payloads =
      r.payloads + ((told.sent.toList.countP fun outgoing => outgoing.message.isPayload) +
        told.received.toList.length) := by
  show List.countP _ (r.sent ++ told.sent.toList) + (r.received ++ told.received.toList).length = _
  rw [List.countP_append, List.length_append, PairingRun.payloads]
  omega

theorem payloads_error (e : PairingError) :
    (r.note now call (s', .error e)).payloads = r.payloads := by
  show List.countP _ (r.sent ++ []) + (r.received ++ []).length = _
  rw [List.append_nil, List.append_nil, PairingRun.payloads]

theorem note (h : Carried r) (heffect : Effect env r.session now call s' result) :
    Carried (r.note now call (s', result)) := by
  have hopen : ∀ {state : SessionState} {role : Role}, Open r.session now state role →
      state.isEarly = true → r.session.state.isEarly = true := by
    intro state role hopen hearly
    rw [hopen.state]
    exact hearly
  cases heffect with
  | refused call e hnone => exact h.keep (payloads_error e) id
  | stranded event hopen => exact h.keep (payloads_error _) id
  | offered event sessionId confirmation sasCode sasInput hwait harrived hid =>
      exact h.keep (payloads_note _) fun _ => hopen hwait rfl
  | sent call message state hsends peer hpeer =>
      cases hsends with
      | proof message hconfirm hproof =>
          obtain ⟨sasInput, peer', -, -, rfl⟩ := sasProof_eq hproof
          exact h.keep (payloads_note _) fun _ => hopen hconfirm rfl
      | payload payloadType text htransfer =>
          exact h.carry (hopen htransfer rfl) (payloads_note _) rfl
      | sourceComplete success hexchanged =>
          refine h.keep (payloads_note _) ?_
          intro hearly
          cases success <;> cases hearly
      | complete hexchanged => exact h.keep (payloads_note _) nofun
      | abort reason hrunning => exact h.keep (payloads_note _) nofun
  | took call event message state received htakes hpeer =>
      cases htakes with
      | returned payloadType text htransfer =>
          exact h.carry (hopen htransfer rfl) (payloads_note _) rfl
      | payload payloadType text htransfer =>
          exact h.carry (hopen htransfer rfl) (payloads_note _) rfl
      | completed hexchanged => exact h.keep (payloads_note _) nofun
      | confirmed hash expected hconfirm hexpected hhash =>
          exact h.keep (payloads_note _) fun _ => hopen hconfirm rfl
      | aborted reason hrunning hpeer => exact h.keep (payloads_note _) nofun
  | unsaid event message hconfirm hpeer hnone =>
      exact h.keep (payloads_error _) fun _ => hopen hconfirm rfl
  | broken call event message hevent hpeer state role hplay hrunning e hnone =>
      exact h.keep (payloads_error _) nofun
  | approved hawait => exact h.keep (payloads_note _) fun _ => hopen hawait rfl
  | hungUp reason hrunning => exact h.keep (payloads_note _) nofun
  | drew draw code hconfirm hrequested hnone peer hpeer => exact h.keep (payloads_note _) id
  | proved event later submission hsubmitted hcorrect message hproof peer hpeer =>
      obtain ⟨sasInput, peer', -, -, rfl⟩ := sasProof_eq hproof
      exact h.keep (payloads_note _) fun _ => hopen hsubmitted.isOpen rfl
  | unproved event later submission hsubmitted hcorrect e hlate =>
      exact h.keep (payloads_error _) id
  | rejected event later submission hsubmitted hwrong peer hpeer remaining =>
      exact h.keep (payloads_note _) fun _ => hopen hsubmitted.isOpen rfl
  | unrejected event later submission hsubmitted hwrong e hbuild =>
      exact h.keep (payloads_error _) id

end Carried

/-- The session accepted its peer's proof of the transcript it has itself. -/
def Confirmed (env : PairingEnv) (r : PairingRun) : Prop :=
  ∃ a ∈ r.accepted, ∃ hash expected, a.2 = .sasConfirm hash ∧
    r.session.expectedHash env = .ok expected ∧ Bytes32.ofHex hash = some expected

/-- What the target has behind it in each state. -/
structure Cleared (env : PairingEnv) (r : PairingRun) : Prop where
  target : r.session.role = .target
  code : r.session.sasCode ≠ none
  confirmed : r.session.state = .awaitingConfirmation ∨ r.session.state = .transferring ∨
    r.session.state = .payloadExchanged ∨ r.session.state = .completed → Confirmed env r
  approved : r.session.state = .transferring ∨ r.session.state = .payloadExchanged ∨
    r.session.state = .completed → r.approved = true

namespace Cleared

theorem confirmed_note (h : Confirmed env r) (hpeer : s'.peerPubkey = r.session.peerPubkey)
    (hinput : s'.sasInput = r.session.sasInput) (hsame : SameSession r.session s') :
    Confirmed env (r.note now call (s', result)) := by
  obtain ⟨a, ha, hash, expected, hmessage, hexpected, hhash⟩ := h
  refine ⟨a, List.mem_append_left _ ha, hash, expected, hmessage, ?_, hhash⟩
  rw [← hexpected]
  show s'.expectedHash env = _
  unfold PairingSession.expectedHash
  rw [hpeer, hinput, hsame.sessionId, hsame.keys, hsame.secret]

theorem approved_note (h : r.approved = true) :
    (r.note now call (s', result)).approved = true := by
  show (r.approved || _) = true
  rw [h, Bool.true_or]

/-- A target never takes an effect that is the source's. -/
theorem not_source (h : Cleared env r) {state : SessionState}
    (hopen : Open r.session now state .source) : False := by
  have hrole := h.target
  rw [hopen.role] at hrole
  cases hrole

/-- A call that stays or ends, or goes on where the target already was. -/
theorem keep (h : Cleared env r) (heffect : Effect env r.session now call s' result)
    (hpeer : s'.peerPubkey = r.session.peerPubkey) (hinput : s'.sasInput = r.session.sasInput)
    (hcode : s'.sasCode = r.session.sasCode)
    (hstate : s'.state = r.session.state ∨ s'.state = .aborted ∨
      (r.session.state = .transferring ∧ s'.state = .payloadExchanged) ∨
      (r.session.state = .payloadExchanged ∧ s'.state = .completed)) :
    Cleared env (r.note now call (s', result)) := by
  refine ⟨heffect.same.role.trans h.target, ?_, ?_, ?_⟩
  · show s'.sasCode ≠ none
    rw [hcode]
    exact h.code
  · intro hlate
    have hlate : s'.state = .awaitingConfirmation ∨ s'.state = .transferring ∨
      s'.state = .payloadExchanged ∨ s'.state = .completed := hlate
    refine confirmed_note (h.confirmed ?_) hpeer hinput heffect.same
    rcases hstate with hsame | haborted | ⟨hwas, -⟩ | ⟨hwas, -⟩
    · rw [hsame] at hlate
      exact hlate
    · rw [haborted] at hlate
      simp at hlate
    · exact .inr (.inl hwas)
    · exact .inr (.inr (.inl hwas))
  · intro hlate
    have hlate : s'.state = .transferring ∨ s'.state = .payloadExchanged ∨
      s'.state = .completed := hlate
    refine approved_note (h.approved ?_)
    rcases hstate with hsame | haborted | ⟨hwas, -⟩ | ⟨hwas, -⟩
    · rw [hsame] at hlate
      exact hlate
    · rw [haborted] at hlate
      simp at hlate
    · exact .inl hwas
    · exact .inr (.inl hwas)

theorem note (h : Cleared env r) (heffect : Effect env r.session now call s' result) :
    Cleared env (r.note now call (s', result)) := by
  have heffect' := heffect
  cases heffect with
  | refused call e hnone => exact h.keep heffect' rfl rfl rfl (.inl rfl)
  | stranded event hopen => exact (h.not_source hopen).elim
  | offered event sessionId confirmation sasCode sasInput hopen harrived hid =>
      exact (h.not_source hopen).elim
  | sent call message state hsends peer hpeer =>
      cases hsends with
      | proof message hopen hproof => exact (h.not_source hopen).elim
      | payload payloadType text hopen => exact (h.not_source hopen).elim
      | sourceComplete success hopen => exact (h.not_source hopen).elim
      | complete hopen =>
          exact h.keep heffect' rfl rfl rfl (.inr (.inr (.inr ⟨hopen.state, rfl⟩)))
      | abort reason hrunning => exact h.keep heffect' rfl rfl rfl (.inr (.inl rfl))
  | took call event message state received htakes hpeer =>
      cases htakes with
      | returned payloadType text hopen => exact (h.not_source hopen).elim
      | payload payloadType text hopen =>
          exact h.keep heffect' rfl rfl rfl (.inr (.inr (.inl ⟨hopen.state, rfl⟩)))
      | completed hopen => exact (h.not_source hopen).elim
      | confirmed hash expected hopen hexpected hhash =>
          refine ⟨h.target, h.code, ?_, ?_⟩
          · intro _
            exact ⟨(event, .sasConfirm hash), List.mem_append_right _ (List.mem_singleton.2 rfl),
              hash, expected, rfl, hexpected, hhash⟩
          · intro hlate
            rcases hlate with hlate | hlate | hlate <;> cases hlate
      | aborted reason hrunning hpeer => exact h.keep heffect' rfl rfl rfl (.inr (.inl rfl))
  | unsaid event message hopen hpeer hnone => exact absurd hnone h.code
  | broken call event message hevent hpeer state role hopen hrunning e hnone =>
      exact h.keep heffect' rfl rfl rfl (.inr (.inl rfl))
  | approved hopen =>
      refine ⟨h.target, h.code, ?_, ?_⟩
      · intro _
        exact confirmed_note (h.confirmed (.inl hopen.state)) rfl rfl heffect'.same
      · intro _
        show (r.approved || true) = true
        exact Bool.or_true _
  | hungUp reason hrunning => exact h.keep heffect' rfl rfl rfl (.inr (.inl rfl))
  | drew draw code hopen hrequested hnone peer hpeer => exact (h.not_source hopen).elim
  | proved event later submission hsubmitted hcorrect message hproof peer hpeer =>
      exact (h.not_source hsubmitted.isOpen).elim
  | unproved event later submission hsubmitted hcorrect e hlate =>
      exact (h.not_source hsubmitted.isOpen).elim
  | rejected event later submission hsubmitted hwrong peer hpeer remaining =>
      exact (h.not_source hsubmitted.isOpen).elim
  | unrejected event later submission hsubmitted hwrong e hbuild =>
      exact (h.not_source hsubmitted.isOpen).elim

end Cleared

theorem Bound.step (h : Bound r) (m : PairingMove) : Bound (r.step env m) :=
  h.note (call_effect env _ _ _)

theorem Carried.step (h : Carried r) (m : PairingMove) : Carried (r.step env m) :=
  h.note (call_effect env _ _ _)

theorem Cleared.step (h : Cleared env r) (m : PairingMove) : Cleared env (r.step env m) :=
  h.note (call_effect env _ _ _)

end Runs

/-! ## From the start of a session -/

theorem bound_source (keys : Keys) (secret : Bytes32) (now : Nat) :
    Bound (sourceStart env keys secret now) := by
  refine ⟨fun _ ha => absurd ha List.not_mem_nil, List.nodup_nil,
    fun _ ha => absurd ha List.not_mem_nil, fun _ => rfl, ?_⟩
  intro hwaiting
  exact absurd rfl hwaiting

theorem carried_source (keys : Keys) (secret : Bytes32) (now : Nat) :
    Carried (sourceStart env keys secret now) :=
  ⟨Nat.zero_le _, fun _ => rfl⟩

section Target

variable {keys : Keys} {qr : QrPayload} {now : Nat} {r : PairingRun}

/-- A target that was made: it has offered, and knows its source. -/
structure TargetMade (env : PairingEnv) (keys : Keys) (qr : QrPayload) (r : PairingRun) :
    Prop where
  role : r.session.role = .target
  state : r.session.state = .confirming
  own : r.session.keys = keys
  secret : r.session.sessionSecret = qr.sessionSecret
  sessionId : r.session.sessionId = env.deriveSessionId qr.sessionSecret
  peer : r.session.peerPubkey = some qr.sourcePubkey
  code : r.session.sasCode ≠ none
  accepted : r.accepted = []
  received : r.received = []
  sent : r.sent = [⟨qr.sourcePubkey, .offer r.session.sessionId.toHex 1 none⟩]

theorem targetMade (h : targetStart env keys qr now = .ok r) : TargetMade env keys qr r := by
  obtain ⟨made, hmade, h⟩ := bind_eq_ok h
  cases h
  unfold newTarget at hmade
  split at hmade
  · cases hmade
  dsimp only at hmade
  split at hmade
  · cases hmade
  next offer hoffer =>
  cases hmade
  obtain ⟨hpeer, hmessage⟩ := peer_of_buildEvent hoffer
  have hout : offer = ⟨offer.peer, .offer (env.deriveSessionId qr.sessionSecret).toHex 1 none⟩ := by
    rw [← hmessage]
  rw [← Option.some.inj hpeer] at hout
  rw [hout]
  exact ⟨rfl, rfl, rfl, rfl, rfl, rfl, nofun, rfl, rfl, rfl⟩

theorem TargetMade.bound (h : TargetMade env keys qr r) : Bound r := by
  refine ⟨?_, ?_, ?_, fun _ => h.accepted, ?_⟩
  · intro a ha
    rw [h.accepted] at ha
    cases ha
  · rw [h.accepted]
    exact List.nodup_nil
  · intro a ha
    rw [h.accepted] at ha
    cases ha
  · intro _ _ hnone
    rw [h.peer] at hnone
    cases hnone

theorem TargetMade.carried (h : TargetMade env keys qr r) : Carried r := by
  have hpayloads : r.payloads = 0 := by
    rw [PairingRun.payloads, h.sent, h.received]
    rfl
  exact ⟨hpayloads ▸ Nat.zero_le _, fun _ => hpayloads⟩

theorem TargetMade.cleared (h : TargetMade env keys qr r) : Cleared env r := by
  refine ⟨h.role, h.code, ?_, ?_⟩
  · intro hlate
    rw [h.state] at hlate
    simp at hlate
  · intro hlate
    rw [h.state] at hlate
    simp at hlate

end Target

/-! ## What a session keeps to -/

section Holds

variable {r : PairingRun} {s' : PairingSession} {call : PairingCall}
  {result : Except PairingError Told}

/-- What is true of a session wherever a run leaves it, and of the next call. -/
structure SessionHolds (env : PairingEnv) (r : PairingRun) : Prop where
  onePeer : ∀ a ∈ r.accepted, r.session.peerPubkey = some a.1.event.pubkey
  changed : ∀ (m : PairingMove) event, m.call.event? = some event →
    (r.step env m).session ≠ r.session →
    r.session.state = .waiting ∨ r.session.peerPubkey = some event.event.pubkey
  once : (r.accepted.map fun a => a.1.event.id).Nodup
  onePayload : r.payloads ≤ 1
  finished : ∀ m : PairingMove, r.session.state.isTerminal = true →
    (r.step env m).session = r.session
  expired : ∀ m : PairingMove, r.session.isExpired (r.now + m.wait) = true →
    m.call.isAbort = false → (r.step env m).session = r.session

/-- Once a session has its peer, no other event does anything to it. -/
theorem Bound.changed (h : Bound r) {now : Nat}
    (heffect : Effect env r.session now call s' result) {event : PairingEvent}
    (hevent : call.event? = some event) (hchanged : s' ≠ r.session) :
    r.session.state = .waiting ∨ r.session.peerPubkey = some event.event.pubkey := by
  cases heffect with
  | refused call e hnone => exact absurd rfl hchanged
  | stranded event hopen => exact .inl hopen.state
  | offered event sessionId confirmation sasCode sasInput hopen harrived hid =>
      exact .inl hopen.state
  | sent call message state hsends peer hpeer => cases hsends <;> cases hevent
  | took call event message state received htakes hpeer =>
      have hsigner := (h.peer_eq_of_takes htakes hpeer).1
      cases htakes <;> cases hevent <;> exact .inr hsigner
  | unsaid event message hopen hpeer hnone =>
      cases hevent
      exact .inr (h.peer_eq_of_open hpeer hopen (by decide) (by decide))
  | broken call event' message hevent' hpeer state role hopen hrunning e hnone =>
      rw [hevent'] at hevent
      cases hevent
      by_cases hwaiting : state = .waiting
      · exact .inl (hopen.state.trans hwaiting)
      · refine .inr (h.peer_eq_of_open hpeer hopen hwaiting ?_)
        rintro rfl
        cases hrunning
  | approved hopen => cases hevent
  | hungUp reason hrunning => cases hevent
  | drew draw code hopen hrequested hnone peer hpeer => cases hevent
  | proved event later submission hsubmitted hcorrect message hproof peer hpeer =>
      cases hevent
      exact .inr (h.peer_eq_of_open hsubmitted.fromPeer hsubmitted.isOpen (by decide) (by decide))
  | unproved event later submission hsubmitted hcorrect e hlate =>
      cases hevent
      exact .inr (h.peer_eq_of_open hsubmitted.fromPeer hsubmitted.isOpen (by decide) (by decide))
  | rejected event later submission hsubmitted hwrong peer hpeer remaining =>
      cases hevent
      exact .inr (h.peer_eq_of_open hsubmitted.fromPeer hsubmitted.isOpen (by decide) (by decide))
  | unrejected event later submission hsubmitted hwrong e hbuild =>
      cases hevent
      exact .inr (h.peer_eq_of_open hsubmitted.fromPeer hsubmitted.isOpen (by decide) (by decide))

theorem sessionHolds (hbound : Bound r) (hcarried : Carried r) : SessionHolds env r where
  onePeer := hbound.signer
  changed _ _ hevent hchanged := hbound.changed (call_effect env _ _ _) hevent hchanged
  once := hbound.once
  onePayload := hcarried.once
  finished _ hterminal := (call_effect env _ _ _).terminal hterminal
  expired _ hlate hcall := (call_effect env _ _ _).expired hlate hcall

/-- What a target keeps to besides: its peer is the one of the QR code, and a
payload is returned once that peer proved the transcript and the user agreed. -/
structure TargetHolds (env : PairingEnv) (qr : QrPayload) (r : PairingRun) : Prop
    extends SessionHolds env r where
  peer : r.session.peerPubkey = some qr.sourcePubkey
  returned : ∀ m : PairingMove, (r.step env m).received ≠ r.received →
    r.approved = true ∧ ∃ a ∈ r.accepted, a.1.event.pubkey = qr.sourcePubkey ∧
      ∃ hash expected, a.2 = .sasConfirm hash ∧ r.session.expectedHash env = .ok expected ∧
        Bytes32.ofHex hash = some expected

/-- A target's peer is not written again. -/
theorem Effect.peer_of_target {s : PairingSession} {now : Nat}
    (h : Effect env s now call s' result) (hrole : s.role = .target) :
    s'.peerPubkey = s.peerPubkey := by
  cases h with
  | stranded event hopen =>
      rw [hopen.role] at hrole
      cases hrole
  | offered event sessionId confirmation sasCode sasInput hopen harrived hid =>
      rw [hopen.role] at hrole
      cases hrole
  | rejected event later submission hsubmitted hwrong peer hpeer remaining =>
      split
      · rfl
      · rfl
  | _ => rfl

/-- A payload is returned by a session that was transferring. -/
theorem Effect.transferring {now : Nat}
    (h : Effect env r.session now call s' result)
    (hreceived : (r.note now call (s', result)).received ≠ r.received) :
    r.session.state = .transferring := by
  have hnil : r.received ++ [] = r.received := List.append_nil _
  cases h with
  | took call event message state received htakes hpeer =>
      cases htakes with
      | returned payloadType text hopen => exact hopen.state
      | payload payloadType text hopen => exact hopen.state
      | completed hopen => exact absurd hnil hreceived
      | confirmed hash expected hopen hexpected hhash => exact absurd hnil hreceived
      | aborted reason hrunning hpeer => exact absurd hnil hreceived
  | _ => exact absurd hnil hreceived

theorem targetHolds {qr : QrPayload} (hbound : Bound r) (hcarried : Carried r)
    (hcleared : Cleared env r) (hpeer : r.session.peerPubkey = some qr.sourcePubkey) :
    TargetHolds env qr r := by
  refine ⟨sessionHolds hbound hcarried, hpeer, ?_⟩
  intro m hreceived
  have hstate := (call_effect env _ _ _).transferring hreceived
  obtain ⟨a, ha, hash, expected, hmessage, hexpected, hhash⟩ :=
    hcleared.confirmed (.inr (.inl hstate))
  refine ⟨hcleared.approved (.inl hstate), a, ha, ?_, hash, expected, hmessage, hexpected, hhash⟩
  have hsigner := hbound.signer a ha
  rw [hpeer] at hsigner
  exact (Option.some.inj hsigner).symm

end Holds

end Buzz.Pairing
