import Buzz.Core.Text
import Buzz.Proofs.PairingPeer

/-!
# Two sessions that complete agree

A source and a target run against a network that may deliver any event to
either of them, as often as it likes and in any order. A ciphertext between
the two keys has to be one that one of the two sealed.

A target that completed has confirmed a proof, and only a source sends one, to
the peer it has; so the source's peer is this target. A source that left its
first state has taken an offer with its session id, and only a target sends
one, with the id it derived itself. The id is a hash of the secret, and that
the two secrets do not collide under it is assumed.
-/

namespace Buzz.Pairing

open Buzz.Lib PairingSession

variable {env : PairingEnv}

/-! ## What a session says -/

section Said

variable {r : PairingRun} {now : Nat} {call : PairingCall} {s' : PairingSession}
  {result : Except PairingError Told}

/-- Proofs come from a source, and offers from a target with its own id. -/
def Fits (s : PairingSession) : PairingMessage → Prop
  | .sasConfirm _ => s.role = .source
  | .offer sessionId _ _ => s.role = .target ∧ sessionId = s.sessionId.toHex
  | _ => True

theorem Fits.same {s s' : PairingSession} (h : SameSession s s') {message : PairingMessage}
    (hfits : Fits s message) : Fits s' message := by
  cases message with
  | sasConfirm hash => exact h.role.trans hfits
  | offer sessionId version confirmation =>
      exact ⟨h.role.trans hfits.1, by rw [h.sessionId]; exact hfits.2⟩
  | _ => exact trivial

theorem fits_sasProof {s : PairingSession} {message : PairingMessage} (hrole : s.role = .source)
    (h : s.sasProof env = .ok message) : Fits s message := by
  obtain ⟨sasInput, peer, -, -, rfl⟩ := sasProof_eq h
  exact hrole

/-- Everything a session said, it said to the peer it has now. -/
structure Spoken (r : PairingRun) : Prop where
  addressed : ∀ o ∈ r.sent, r.session.peerPubkey = some o.peer
  fits : ∀ o ∈ r.sent, Fits r.session o.message
  quiet : r.session.state = .waiting → r.sent = []

namespace Spoken

theorem keep (h : Spoken r) (hsame : SameSession r.session s')
    (hsent : (r.note now call (s', result)).sent = r.sent)
    (hpeer : s'.peerPubkey = r.session.peerPubkey ∨ r.session.state = .waiting)
    (hstate : s'.state = .waiting → r.session.state = .waiting) :
    Spoken (r.note now call (s', result)) := by
  refine ⟨?_, ?_, ?_⟩
  · intro o ho
    rw [hsent] at ho
    rcases hpeer with hpeer | hwaiting
    · exact hpeer.trans (h.addressed o ho)
    · rw [h.quiet hwaiting] at ho
      cases ho
  · intro o ho
    rw [hsent] at ho
    exact (h.fits o ho).same hsame
  · intro hwaiting
    rw [hsent]
    exact h.quiet (hstate hwaiting)

theorem send (h : Spoken r) (hsame : SameSession r.session s') {peer : PublicKey}
    {message : PairingMessage}
    (hsent : (r.note now call (s', result)).sent = r.sent ++ [⟨peer, message⟩])
    (hold : r.session.peerPubkey = some peer) (hpeer : s'.peerPubkey = r.session.peerPubkey)
    (hfits : Fits r.session message) (hstate : s'.state ≠ .waiting) :
    Spoken (r.note now call (s', result)) := by
  refine ⟨?_, ?_, fun hwaiting => absurd hwaiting hstate⟩
  · intro o ho
    refine hpeer.trans ?_
    rw [hsent, List.mem_append] at ho
    rcases ho with ho | ho
    · exact h.addressed o ho
    · rw [List.mem_singleton.1 ho]
      exact hold
  · intro o ho
    rw [hsent, List.mem_append] at ho
    rcases ho with ho | ho
    · exact (h.fits o ho).same hsame
    · rw [List.mem_singleton.1 ho]
      exact hfits.same hsame

theorem note (h : Spoken r) (heffect : Effect env r.session now call s' result) :
    Spoken (r.note now call (s', result)) := by
  have hsame := heffect.same
  have hnil : r.sent ++ [] = r.sent := List.append_nil _
  cases heffect with
  | refused call e hnone => exact h.keep hsame hnil (.inl rfl) id
  | stranded event hopen => exact h.keep hsame hnil (.inr hopen.state) id
  | offered event sessionId confirmation sasCode sasInput hopen harrived hid =>
      exact h.keep hsame hnil (.inr hopen.state) nofun
  | sent call message state hsends peer hpeer =>
      cases hsends with
      | proof message hopen hproof =>
          exact h.send hsame rfl hpeer rfl (fits_sasProof hopen.role hproof) nofun
      | payload payloadType text hopen => exact h.send hsame rfl hpeer rfl trivial nofun
      | sourceComplete success hopen =>
          refine h.send hsame rfl hpeer rfl trivial ?_
          cases success
          · exact nofun
          · exact nofun
      | complete hopen => exact h.send hsame rfl hpeer rfl trivial nofun
      | abort reason hrunning => exact h.send hsame rfl hpeer rfl trivial nofun
  | took call event message state received htakes hpeer =>
      refine h.keep hsame hnil (.inl rfl) ?_
      intro hwaiting
      cases htakes <;> cases hwaiting
  | unsaid event message hopen hpeer hnone => exact h.keep hsame hnil (.inl rfl) nofun
  | broken call event message hevent hpeer state role hopen hrunning e hnone =>
      exact h.keep hsame hnil (.inl rfl) nofun
  | approved hopen => exact h.keep hsame hnil (.inl rfl) nofun
  | hungUp reason hrunning => exact h.keep hsame hnil (.inl rfl) nofun
  | drew draw code hopen hrequested hnone peer hpeer =>
      refine h.send hsame rfl hpeer rfl trivial ?_
      show r.session.state ≠ .waiting
      rw [hopen.state]
      exact nofun
  | proved event later submission hsubmitted hcorrect message hproof peer hpeer =>
      exact h.send hsame rfl hpeer rfl (fits_sasProof hsubmitted.isOpen.role hproof) nofun
  | unproved event later submission hsubmitted hcorrect e hlate =>
      exact h.keep hsame hnil (.inl rfl) id
  | rejected event later submission hsubmitted hwrong peer hpeer remaining =>
      split
      · exact h.send ⟨rfl, rfl, rfl, rfl, rfl⟩ rfl hpeer rfl trivial nofun
      · refine h.send ⟨rfl, rfl, rfl, rfl, rfl⟩ rfl hpeer rfl trivial ?_
        show r.session.state ≠ .waiting
        rw [hsubmitted.isOpen.state]
        exact nofun
  | unrejected event later submission hsubmitted hwrong e hbuild =>
      exact h.keep hsame hnil (.inl rfl) id

end Spoken

theorem Spoken.step (h : Spoken r) (m : PairingMove) : Spoken (r.step env m) :=
  h.note (call_effect env _ _ _)

theorem spoken_source (keys : Keys) (secret : Bytes32) (now : Nat) :
    Spoken (sourceStart env keys secret now) :=
  ⟨nofun, nofun, fun _ => rfl⟩

theorem TargetMade.spoken {keys : Keys} {qr : QrPayload} (h : TargetMade env keys qr r) :
    Spoken r := by
  refine ⟨?_, ?_, ?_⟩
  · intro o ho
    rw [h.sent, List.mem_singleton] at ho
    rw [ho]
    exact h.peer
  · intro o ho
    rw [h.sent, List.mem_singleton] at ho
    rw [ho]
    exact ⟨h.role, rfl⟩
  · intro hwaiting
    rw [h.state] at hwaiting
    cases hwaiting

end Said

/-! ## What a session heard -/

section Heard

variable {r : PairingRun} {now : Nat} {call : PairingCall} {s' : PairingSession}
  {result : Except PairingError Told}

/-- An event is accepted from the call it came with, and was opened there. -/
theorem Effect.arrived (h : Effect env r.session now call s' result)
    {a : PairingEvent × PairingMessage} (ha : a ∈ (r.note now call (s', result)).accepted) :
    a ∈ r.accepted ∨ (call.event? = some a.1 ∧ Arrived r.session a.1 a.2) := by
  have hnil : ∀ {b}, b ∈ r.accepted ++ [] → b ∈ r.accepted := fun hb => by simpa using hb
  have hone : ∀ {b c}, b ∈ r.accepted ++ [c] → b ∈ r.accepted ∨ b = c := fun hb => by
    simpa using hb
  cases h with
  | offered event sessionId confirmation sasCode sasInput hopen harrived hid =>
      rcases hone ha with ha | rfl
      · exact .inl ha
      · exact .inr ⟨rfl, harrived⟩
  | took call event message state received htakes hpeer =>
      rcases hone ha with ha | rfl
      · exact .inl ha
      · refine .inr ⟨?_, hpeer.toArrived⟩
        cases htakes <;> rfl
  | proved event later submission hsubmitted hcorrect message hproof peer hpeer =>
      rcases hone ha with ha | rfl
      · exact .inl ha
      · exact .inr ⟨rfl, hsubmitted.fromPeer.toArrived⟩
  | rejected event later submission hsubmitted hwrong peer hpeer remaining =>
      rcases hone ha with ha | rfl
      · exact .inl ha
      · exact .inr ⟨rfl, hsubmitted.fromPeer.toArrived⟩
  | _ => exact .inl (hnil ha)

/-- A source past its first state has taken an offer with its own id. -/
structure OfferTaken (r : PairingRun) : Prop where
  role : r.session.role = .source
  offer : r.session.state ≠ .waiting → r.session.state ≠ .aborted →
    ∃ a ∈ r.accepted, ∃ sessionId confirmation, a.2 = .offer sessionId 1 confirmation ∧
      Bytes32.ofHex sessionId = some r.session.sessionId

/-- A session leaves its first state with an offer, or by ending. -/
theorem Effect.of_waiting {s s' : PairingSession} (h : Effect env s now call s' result)
    (hwaiting : s.state = .waiting) :
    s'.state = .waiting ∨ s'.state = .aborted ∨ ∃ event sessionId confirmation,
      result = .ok { accepted := some (event, .offer sessionId 1 confirmation) } ∧
      Bytes32.ofHex sessionId = some s.sessionId := by
  have hno : ∀ {state : SessionState} {role : Role}, Open s now state role → state ≠ .waiting →
      False := fun hopen hstate => hstate (hopen.state.symm.trans hwaiting)
  cases h with
  | refused call e hnone => exact .inl hwaiting
  | stranded event hopen => exact .inl hwaiting
  | offered event sessionId confirmation sasCode sasInput hopen harrived hid =>
      exact .inr (.inr ⟨event, sessionId, confirmation, rfl, hid⟩)
  | sent call message state hsends peer hpeer =>
      cases hsends with
      | proof message hopen hproof => exact (hno hopen nofun).elim
      | payload payloadType text hopen => exact (hno hopen nofun).elim
      | sourceComplete success hopen => exact (hno hopen nofun).elim
      | complete hopen => exact (hno hopen nofun).elim
      | abort reason hrunning => exact .inr (.inl rfl)
  | took call event message state received htakes hpeer =>
      cases htakes with
      | returned payloadType text hopen => exact (hno hopen nofun).elim
      | payload payloadType text hopen => exact (hno hopen nofun).elim
      | completed hopen => exact (hno hopen nofun).elim
      | confirmed hash expected hopen hexpected hhash => exact (hno hopen nofun).elim
      | aborted reason hrunning hpeer => exact .inr (.inl rfl)
  | unsaid event message hopen hpeer hnone => exact (hno hopen nofun).elim
  | broken call event message hevent hpeer state role hopen hrunning e hnone =>
      exact .inr (.inl rfl)
  | approved hopen => exact (hno hopen nofun).elim
  | hungUp reason hrunning => exact .inr (.inl rfl)
  | drew draw code hopen hrequested hnone peer hpeer => exact (hno hopen nofun).elim
  | proved event later submission hsubmitted hcorrect message hproof peer hpeer =>
      exact (hno hsubmitted.isOpen nofun).elim
  | unproved event later submission hsubmitted hcorrect e hlate =>
      exact (hno hsubmitted.isOpen nofun).elim
  | rejected event later submission hsubmitted hwrong peer hpeer remaining =>
      exact (hno hsubmitted.isOpen nofun).elim
  | unrejected event later submission hsubmitted hwrong e hbuild =>
      exact (hno hsubmitted.isOpen nofun).elim

theorem OfferTaken.note (h : OfferTaken r) (heffect : Effect env r.session now call s' result) :
    OfferTaken (r.note now call (s', result)) := by
  have hsame := heffect.same
  refine ⟨hsame.role.trans h.role, ?_⟩
  intro hstate haborted
  show ∃ a ∈ _, ∃ sessionId confirmation, _ ∧ Bytes32.ofHex sessionId = some s'.sessionId
  rw [hsame.sessionId]
  by_cases hwaiting : r.session.state = .waiting
  · rcases heffect.of_waiting hwaiting with hsame' | hended | ⟨event, sessionId, conf, rfl, hid⟩
    · exact absurd hsame' hstate
    · exact absurd hended haborted
    · exact ⟨(event, .offer sessionId 1 conf), List.mem_append_right _ (List.mem_singleton.2 rfl),
        sessionId, conf, rfl, hid⟩
  · have hrunning : r.session.state ≠ .aborted := by
      intro hended
      have hleft := heffect.terminal (by rw [hended]; rfl)
      exact haborted (hleft ▸ hended)
    obtain ⟨a, ha, sessionId, conf, hmessage, hid⟩ := h.offer hwaiting hrunning
    exact ⟨a, List.mem_append_left _ ha, sessionId, conf, hmessage, hid⟩

theorem OfferTaken.step (h : OfferTaken r) (m : PairingMove) : OfferTaken (r.step env m) :=
  h.note (call_effect env _ _ _)

theorem offerTaken_source (keys : Keys) (secret : Bytes32) (now : Nat) :
    OfferTaken (sourceStart env keys secret now) :=
  ⟨rfl, fun hstate => absurd rfl hstate⟩

end Heard

/-! ## Both sessions -/

namespace PairState

variable {p : PairState} {m : PairMove}

/-- What was said stays said. -/
theorem wrote_step {message : PairingMessage} (h : p.wrote message = true) :
    (p.step env m).wrote message = true := by
  unfold wrote at h ⊢
  rw [Bool.or_eq_true, List.contains_iff_mem, List.contains_iff_mem] at h ⊢
  cases m with
  | source m =>
      have hsame := (call_effect env p.source.session (p.source.now + m.wait) m.call).same
      rcases h with h | h
      · exact .inl (List.mem_append_left _ h)
      · refine .inr ?_
        show (⟨PairingSession.keys _ |>.publicKey, message⟩ : Outgoing) ∈ p.target.sent
        rw [show (p.step env (.source m)).source.session.keys = _ from hsame.keys]
        exact h
  | target m =>
      have hsame := (call_effect env p.target.session (p.target.now + m.wait) m.call).same
      rcases h with h | h
      · refine .inl ?_
        show (⟨PairingSession.keys _ |>.publicKey, message⟩ : Outgoing) ∈ p.source.sent
        rw [show (p.step env (.target m)).target.session.keys = _ from hsame.keys]
        exact h
      · exact .inr (List.mem_append_left _ h)

/-- An event of one that the other opens carries what one of the two wrote. -/
theorem wrote_of_unforged {s : PairingSession} {event : PairingEvent} {message : PairingMessage}
    (hm : p.unforged m = true) (hevent : m.move.call.event? = some event)
    (harrived : Arrived s event message)
    (hbetween : ∀ cipher, s.opens event cipher = true →
      cipher.between p.source.session.keys.publicKey p.target.session.keys.publicKey = true) :
    p.wrote message = true := by
  obtain ⟨cipher, hcipher, hopens, hmessage⟩ := harrived.opened
  unfold unforged at hm
  rw [hevent] at hm
  simpa [hcipher, hbetween cipher hopens, hmessage] using hm

end PairState

/-- Everything either session heard from the other, one of them wrote. -/
structure Heard (p : PairState) : Prop where
  source : ∀ a ∈ p.source.accepted,
    a.1.event.pubkey = p.target.session.keys.publicKey → p.wrote a.2 = true
  target : ∀ a ∈ p.target.accepted,
    a.1.event.pubkey = p.source.session.keys.publicKey → p.wrote a.2 = true

/-- Each of the two sessions is as its own runs leave it. -/
structure Sides (env : PairingEnv) (p : PairState) : Prop where
  sourceBound : Bound p.source
  sourceSpoken : Spoken p.source
  taken : OfferTaken p.source
  sourceId : p.source.session.sessionId = env.deriveSessionId p.source.session.sessionSecret
  targetBound : Bound p.target
  targetSpoken : Spoken p.target
  cleared : Cleared env p.target
  targetId : p.target.session.sessionId = env.deriveSessionId p.target.session.sessionSecret

section Both

variable {p : PairState}

theorem Sides.step (h : Sides env p) (m : PairMove) : Sides env (p.step env m) := by
  cases m with
  | source m =>
      have hsame := (call_effect env p.source.session (p.source.now + m.wait) m.call).same
      exact { h with
        sourceBound := h.sourceBound.step m
        sourceSpoken := h.sourceSpoken.step m
        taken := h.taken.step m
        sourceId := by
          refine hsame.sessionId.trans (h.sourceId.trans ?_)
          exact congrArg env.deriveSessionId hsame.secret.symm }
  | target m =>
      have hsame := (call_effect env p.target.session (p.target.now + m.wait) m.call).same
      exact { h with
        targetBound := h.targetBound.step m
        targetSpoken := h.targetSpoken.step m
        cleared := h.cleared.step m
        targetId := by
          refine hsame.sessionId.trans (h.targetId.trans ?_)
          exact congrArg env.deriveSessionId hsame.secret.symm }

theorem Heard.step (h : Heard p) {m : PairMove} (hm : p.unforged m = true) :
    Heard (p.step env m) := by
  cases m with
  | source m =>
      have heffect := call_effect env p.source.session (p.source.now + m.wait) m.call
      refine ⟨?_, ?_⟩
      · intro a ha hfrom
        have hfrom : a.1.event.pubkey = p.target.session.keys.publicKey := hfrom
        refine PairState.wrote_step ?_
        rcases heffect.arrived ha with ha | ⟨hevent, harrived⟩
        · exact h.source a ha hfrom
        · refine PairState.wrote_of_unforged hm hevent harrived ?_
          intro cipher hopens
          unfold opens at hopens
          rw [hfrom] at hopens
          exact hopens
      · intro a ha hfrom
        refine PairState.wrote_step (h.target a ha (hfrom.trans ?_))
        exact congrArg Keys.publicKey heffect.same.keys
  | target m =>
      have heffect := call_effect env p.target.session (p.target.now + m.wait) m.call
      refine ⟨?_, ?_⟩
      · intro a ha hfrom
        refine PairState.wrote_step (h.source a ha (hfrom.trans ?_))
        exact congrArg Keys.publicKey heffect.same.keys
      · intro a ha hfrom
        have hfrom : a.1.event.pubkey = p.source.session.keys.publicKey := hfrom
        refine PairState.wrote_step ?_
        rcases heffect.arrived ha with ha | ⟨hevent, harrived⟩
        · exact h.target a ha hfrom
        · refine PairState.wrote_of_unforged hm hevent harrived ?_
          intro cipher hopens
          unfold opens at hopens
          rw [hfrom, Bool.or_comm] at hopens
          exact hopens

/-- The two sessions are each other's peer and have one secret. -/
structure Agreed (p : PairState) : Prop where
  sourcePeer : p.source.session.peerPubkey = some p.target.session.keys.publicKey
  targetPeer : p.target.session.peerPubkey = some p.source.session.keys.publicKey
  secret : p.source.session.sessionSecret = p.target.session.sessionSecret

theorem Heard.wrote_cases (hsides : Sides env p) {message : PairingMessage}
    (h : p.wrote message = true) :
    (p.source.session.peerPubkey = some p.target.session.keys.publicKey ∧
      Fits p.source.session message) ∨
    (p.target.session.peerPubkey = some p.source.session.keys.publicKey ∧
      Fits p.target.session message) := by
  unfold PairState.wrote at h
  rw [Bool.or_eq_true, List.contains_iff_mem, List.contains_iff_mem] at h
  rcases h with h | h
  · exact .inl ⟨hsides.sourceSpoken.addressed _ h, hsides.sourceSpoken.fits _ h⟩
  · exact .inr ⟨hsides.targetSpoken.addressed _ h, hsides.targetSpoken.fits _ h⟩

/-- The proof a target of this source completed with was the source's to it. -/
theorem Heard.source_peer (h : Heard p) (hsides : Sides env p)
    (hcompleted : p.target.session.state = .completed)
    (hpeer : p.target.session.peerPubkey = some p.source.session.keys.publicKey) :
    p.source.session.peerPubkey = some p.target.session.keys.publicKey := by
  obtain ⟨a, ha, hash, expected, hmessage, -, -⟩ :=
    hsides.cleared.confirmed (.inr (.inr (.inr hcompleted)))
  have hsigner := hsides.targetBound.signer a ha
  rw [hpeer] at hsigner
  have hwrote := h.target a ha (Option.some.inj hsigner).symm
  rw [hmessage] at hwrote
  rcases Heard.wrote_cases hsides hwrote with ⟨hsource, -⟩ | ⟨-, hrole⟩
  · exact hsource
  · have htarget := hsides.cleared.target
    rw [show p.target.session.role = .source from hrole] at htarget
    cases htarget

/-- The offer a source took from its target was the target's to it. -/
theorem Heard.target_peer (h : Heard p) (hsides : Sides env p)
    (hcompleted : p.source.session.state = .completed)
    (hpeer : p.source.session.peerPubkey = some p.target.session.keys.publicKey) :
    p.target.session.peerPubkey = some p.source.session.keys.publicKey ∧
      p.source.session.sessionId = p.target.session.sessionId := by
  obtain ⟨a, ha, sessionId, confirmation, hmessage, hid⟩ :=
    hsides.taken.offer (by rw [hcompleted]; exact nofun) (by rw [hcompleted]; exact nofun)
  have hsigner := hsides.sourceBound.signer a ha
  rw [hpeer] at hsigner
  have hwrote := h.source a ha (Option.some.inj hsigner).symm
  rw [hmessage] at hwrote
  rcases Heard.wrote_cases hsides hwrote with ⟨-, hrole, -⟩ | ⟨htarget, -, hhex⟩
  · rw [hsides.taken.role] at hrole
    cases hrole
  · refine ⟨htarget, ?_⟩
    rw [hhex, Bytes32.ofHex_toHex] at hid
    exact (Option.some.inj hid).symm

theorem Heard.agreed (h : Heard p) (hsides : Sides env p)
    (hsource : p.source.session.state = .completed)
    (htarget : p.target.session.state = .completed)
    (hmet : p.source.session.peerPubkey = some p.target.session.keys.publicKey ∨
      p.target.session.peerPubkey = some p.source.session.keys.publicKey)
    (hcollide : env.deriveSessionId p.source.session.sessionSecret =
        env.deriveSessionId p.target.session.sessionSecret →
      p.source.session.sessionSecret = p.target.session.sessionSecret) : Agreed p := by
  have hpeer : p.source.session.peerPubkey = some p.target.session.keys.publicKey := by
    rcases hmet with hpeer | hpeer
    · exact hpeer
    · exact h.source_peer hsides htarget hpeer
  obtain ⟨hback, hid⟩ := h.target_peer hsides hsource hpeer
  rw [hsides.sourceId, hsides.targetId] at hid
  exact ⟨hpeer, hback, hcollide hid⟩

end Both

/-! ## Every run -/

section Runs

variable {keys : Keys} {secret : Bytes32} {qr : QrPayload} {now : Nat} {target : PairingRun}

theorem sourceRun_holds (ms : List PairingMove) :
    SessionHolds env ((pairing env (sourceStart env keys secret now)).run ms) := by
  have hbound : Bound (sourceStart env keys secret now) := bound_source keys secret now
  have hkept := (pairing env (sourceStart env keys secret now)).stable_runFrom
    (I := fun r => Bound r ∧ Carried r) (fun _ m h => ⟨h.1.step m, h.2.step m⟩)
    ⟨hbound, carried_source keys secret now⟩ ms
  exact sessionHolds hkept.1 hkept.2

theorem targetRun_holds (hmade : TargetMade env keys qr target) (ms : List PairingMove) :
    TargetHolds env qr ((pairing env target).run ms) := by
  have hkept := (pairing env target).stable_runFrom
    (I := fun r => Bound r ∧ Carried r ∧ Cleared env r ∧
      r.session.peerPubkey = some qr.sourcePubkey)
    (fun r m h => ⟨h.1.step m, h.2.1.step m, h.2.2.1.step m,
      ((call_effect env _ _ _).peer_of_target h.2.2.1.target).trans h.2.2.2⟩)
    ⟨hmade.bound, hmade.carried, hmade.cleared, hmade.peer⟩ ms
  exact targetHolds hkept.1 hkept.2.1 hkept.2.2.1 hkept.2.2.2

theorem bothRun_heard {targetKeys : Keys} (hmade : TargetMade env targetKeys qr target)
    {ms : List PairMove}
    (hms : (pairingOfBoth env (sourceStart env keys secret now) target).Meets
      (fun p m => p.unforged m = true) ⟨sourceStart env keys secret now, target⟩ ms) :
    Sides env ((pairingOfBoth env (sourceStart env keys secret now) target).run ms) ∧
      Heard ((pairingOfBoth env (sourceStart env keys secret now) target).run ms) := by
  refine Machine.inv_run _ (I := fun p => Sides env p ∧ Heard p) ⟨?_, ?_, ?_⟩
    (fun p m h hm => ⟨h.1.step m, h.2.step hm⟩) hms
  · exact ⟨bound_source _ _ _, spoken_source _ _ _, offerTaken_source _ _ _, rfl, hmade.bound,
      hmade.spoken, hmade.cleared, hmade.sessionId.trans (by rw [← hmade.secret]; rfl)⟩
  · exact fun _ ha => absurd ha List.not_mem_nil
  · intro a ha
    rw [show (pairingOfBoth env (sourceStart env keys secret now) target).init.target.accepted =
      [] from hmade.accepted] at ha
    cases ha

end Runs

/-- A session keeps to one peer and moves one payload, in every run; and a
source and a target that completed against the network agree, if either of
them took the other for its peer. -/
theorem pairing_binds_one_peer (env : PairingEnv) (keys : Keys) (secret : Bytes32) (now : Nat) :
    (∀ ms, SessionHolds env ((pairing env (sourceStart env keys secret now)).run ms)) ∧
    ∀ targetKeys qr made target, targetStart env targetKeys qr made = .ok target →
      (∀ ms, TargetHolds env qr ((pairing env target).run ms)) ∧
      ∀ ms,
        (pairingOfBoth env (sourceStart env keys secret now) target).Meets
          (fun p m => p.unforged m = true) ⟨sourceStart env keys secret now, target⟩ ms →
        let p := (pairingOfBoth env (sourceStart env keys secret now) target).run ms
        p.source.session.state = .completed → p.target.session.state = .completed →
        (p.source.session.peerPubkey = some p.target.session.keys.publicKey ∨
          p.target.session.peerPubkey = some p.source.session.keys.publicKey) →
        (env.deriveSessionId p.source.session.sessionSecret =
            env.deriveSessionId p.target.session.sessionSecret →
          p.source.session.sessionSecret = p.target.session.sessionSecret) →
        Agreed p := by
  refine ⟨sourceRun_holds, ?_⟩
  intro targetKeys qr made target hstart
  have hmade := targetMade hstart
  refine ⟨targetRun_holds hmade, ?_⟩
  intro ms hms p hsource htarget hmet hcollide
  obtain ⟨hsides, hheard⟩ := bothRun_heard hmade hms
  exact hheard.agreed hsides hsource htarget hmet hcollide

/-! The pairing of the test vectors in `crypto.rs`, run to its end. -/

def bytes32 (n : Nat) : Bytes32 :=
  ⟨(List.range 32).map fun i => UInt8.ofNat (n / 256 ^ (31 - i)), by simp⟩

def vectorSource : Keys :=
  ⟨bytes32 0x7f4c11a9c9d1e3b5a7f2e4d6c8b0a2f4e6d8c0b2a4f6e8d0c2b4a6f8e0d2c4b5,
    bytes32 0x199e64ca60662cb2d6e91d16cb065be51ad74a6ee5f8c5b0fdc53d246611ed9a⟩

def vectorTarget : Keys :=
  ⟨bytes32 0x3a5b7c9d1e3f5a7b9c1d3e5f7a9b1c3d5e7f9a1b3c5d7e9f1a3b5c7d9e1f3a5b,
    bytes32 0x89a9fa762105d0aee2b19678246fe7b823aabbc4f4bf691a1ce8a70fcd36d6e4⟩

def vectorSecret : Bytes32 :=
  bytes32 0xa1b2c3d4e5f6a7b8c9d0e1f2a3b4c5d6e7f8a9b0c1d2e3f4a5b6c7d8e9f0a1b2

/-- The values the vectors pin, by the info string they are derived under. -/
def vectorEnv : PairingEnv where
  hkdf32 _ _ info :=
    if info = PairingEnv.ascii "nostr-pair-session-id" then
      bytes32 0xfb357d0f8e8d5a5ba3b2a91cb18c119e1567b07ffa38cdebb73e68df78f5a380
    else if info = PairingEnv.ascii "nostr-pair-sas-v1" then
      bytes32 0xe8b03a329f3a0ac37fe7fbe929171e14b72812be67e33c5d6e193543c41798d3
    else bytes32 0xd662818ff8911fc60a2d025f8b8b4756107104e85888dd202d28db5ca2cf28d3
  sharedKey _ _ := some
    (bytes32 0x9b4b6d6990713d89d6d9982e506ee1bbcde6f05c54d9d2978696e8a7274d4408)
  maxPlaintext := 65535
  roomy := by decide

/-- An event that seals a message from one key to the other. -/
def sealedEvent (id : Nat) (sender recipient : PublicKey) (message : PairingMessage) :
    PairingEvent where
  event := ⟨bytes32 id, sender, 0, pairingKind, [⟨"p", [recipient.toHex]⟩]⟩
  verified := true
  content := ⟨500, some ⟨sender, recipient, message.size, some message⟩⟩

def vectorQr : QrPayload := ⟨vectorSource.publicKey, vectorSecret⟩

def toSource (id : Nat) (message : PairingMessage) : PairingEvent :=
  sealedEvent id vectorTarget.publicKey vectorSource.publicKey message

def toTarget (id : Nat) (message : PairingMessage) : PairingEvent :=
  sealedEvent id vectorSource.publicKey vectorTarget.publicKey message

def vectorMoves : List PairMove :=
  [.source ⟨1, .handleOffer (toSource 1
      (.offer (vectorEnv.deriveSessionId vectorSecret).toHex 1 none))⟩,
    .source ⟨1, .confirmSas⟩,
    .target ⟨1, .handleSasConfirm (toTarget 2 (.sasConfirm (vectorEnv.hkdf32 [] [] []).toHex))⟩,
    .target ⟨1, .confirmTargetSas⟩,
    .source ⟨1, .sendPayload .nsec "nsec1"⟩,
    .target ⟨1, .handlePayload (toTarget 3 (.payload .nsec "nsec1"))⟩,
    .target ⟨1, .sendComplete⟩,
    .source ⟨1, .handleComplete (toSource 4 (.complete true))⟩]

def vectorTargetRun : PairingRun where
  session := {
    role := .target
    state := .confirming
    keys := vectorTarget
    sessionSecret := vectorSecret
    peerPubkey := some vectorSource.publicKey
    sessionId := vectorEnv.deriveSessionId vectorSecret
    sasCode := some 863346
    sasInput := some (vectorEnv.deriveSas vectorSecret vectorSecret).2
    processedIds := []
    createdAt := 0
    timeout := defaultTimeout
    desktopCodeRequested := false
    desktopCode := none
    codeAttempts := 0 }
  now := 0
  sent := [⟨vectorSource.publicKey,
    .offer (vectorEnv.deriveSessionId vectorSecret).toHex 1 none⟩]

theorem pairing_binds_one_peer_vector :
    Agreed ((pairingOfBoth vectorEnv (sourceStart vectorEnv vectorSource vectorSecret 0)
      vectorTargetRun).run vectorMoves) := by
  refine ((pairing_binds_one_peer vectorEnv vectorSource vectorSecret 0).2 vectorTarget vectorQr 0
    vectorTargetRun (by decide +kernel)).2 vectorMoves (by decide +kernel) (by decide +kernel)
    (by decide +kernel) (.inl (by decide +kernel)) ?_
  intro _
  decide +kernel

end Buzz.Pairing
