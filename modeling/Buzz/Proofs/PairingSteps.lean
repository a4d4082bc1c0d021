import Buzz.Pairing.Session

/-!
# What a call does to a pairing session

Fourteen methods share three checks of the session and three of an event.
`Effect` says once what each of them can do, with every check it made, and
`call_effect` that it says everything; the invariants of whole runs are read
off it.
-/

namespace Buzz.Pairing

open Buzz.Lib

/-! ## The checks -/

section Except

variable {ε α β : Type} {x : Except ε α} {f : α → Except ε β} {b : β}

theorem bind_eq_ok (h : x >>= f = .ok b) : ∃ a, x = .ok a ∧ f a = .ok b := by
  cases x with
  | error e => cases h
  | ok a => exact ⟨a, rfl, h⟩

end Except

namespace PairingSession

variable {env : PairingEnv} {s : PairingSession} {now : Nat} {event : PairingEvent}
  {message : PairingMessage} {state : SessionState} {role : Role} {u : Unit}

/-- The session is in time, in this state and of this role. -/
structure Open (s : PairingSession) (now : Nat) (state : SessionState) (role : Role) : Prop where
  inTime : s.isExpired now = false
  state : s.state = state
  role : s.role = role

/-- The event is new, addressed to the session, and opens to the message. -/
structure Arrived (s : PairingSession) (event : PairingEvent) (message : PairingMessage) :
    Prop where
  verified : event.verified = true
  fresh : event.event.id ∉ s.processedIds
  opened : ∃ cipher, event.content.cipher = some cipher ∧ s.opens event cipher = true ∧
    cipher.message = some message

/-- An event that is from the peer, where there is one already. -/
structure FromPeer (s : PairingSession) (event : PairingEvent) (message : PairingMessage) : Prop
    extends Arrived s event message where
  signer : ∀ peer, s.peerPubkey = some peer → event.event.pubkey = peer

theorem inTime_of_checkExpired (h : s.checkExpired now = .ok u) : s.isExpired now = false := by
  unfold checkExpired at h
  split at h
  · cases h
  · next hin => simpa using hin

theorem state_of_expectState (h : s.expectState state = .ok u) : s.state = state := by
  unfold expectState at h
  split at h
  · next hstate => exact hstate
  · cases h

theorem role_of_expectRole (h : s.expectRole role = .ok u) : s.role = role := by
  unfold expectRole at h
  split at h
  · next hrole => exact hrole
  · cases h

theorem open_of_checkAdmitted (h : s.checkAdmitted now state role = .ok u) :
    Open s now state role := by
  obtain ⟨_, hexpired, h⟩ := bind_eq_ok h
  obtain ⟨_, hstate, hrole⟩ := bind_eq_ok h
  exact ⟨inTime_of_checkExpired hexpired, state_of_expectState hstate, role_of_expectRole hrole⟩

theorem of_validateEventBasics (h : s.validateEventBasics event = .ok u) :
    event.verified = true ∧ event.event.id ∉ s.processedIds := by
  unfold validateEventBasics at h
  split at h
  · cases h
  next hverified =>
  split at h
  · cases h
  next hfresh =>
  exact ⟨by simpa using hverified, by simpa using hfresh⟩

theorem of_validateEventFromPeer (h : s.validateEventFromPeer event = .ok u) :
    event.verified = true ∧ event.event.id ∉ s.processedIds ∧
      ∀ peer, s.peerPubkey = some peer → event.event.pubkey = peer := by
  obtain ⟨_, hbasics, h⟩ := bind_eq_ok h
  obtain ⟨hverified, hfresh⟩ := of_validateEventBasics hbasics
  refine ⟨hverified, hfresh, ?_⟩
  intro peer hpeer
  rw [hpeer] at h
  dsimp only at h
  split at h
  · next hsigner => exact hsigner
  · cases h

theorem of_decryptMessage (h : s.decryptMessage event = .ok message) :
    ∃ cipher, event.content.cipher = some cipher ∧ s.opens event cipher = true ∧
      cipher.message = some message := by
  unfold decryptMessage at h
  split at h
  · cases h
  split at h
  · cases h
  next cipher hcipher =>
  split at h
  · cases h
  next hopens =>
  split at h
  · cases h
  split at h
  · cases h
  next opened hopened =>
  cases h
  exact ⟨cipher, hcipher, by simpa using hopens, hopened⟩

theorem fromPeer_of_receive (h : s.receive now event state role = .ok message) :
    Open s now state role ∧ FromPeer s event message := by
  obtain ⟨_, hchecked, h⟩ := bind_eq_ok h
  obtain ⟨_, hpeer, hmessage⟩ := bind_eq_ok h
  obtain ⟨hverified, hfresh, hsigner⟩ := of_validateEventFromPeer hpeer
  exact ⟨open_of_checkAdmitted hchecked, ⟨hverified, hfresh, of_decryptMessage hmessage⟩, hsigner⟩

theorem peer_of_buildEvent {outgoing : Outgoing}
    (h : s.buildEvent env message = .ok outgoing) :
    s.peerPubkey = some outgoing.peer ∧ outgoing.message = message := by
  unfold buildEvent at h
  split at h
  · cases h
  next peer hpeer =>
  split at h
  · cases h
    exact ⟨hpeer, rfl⟩
  · cases h

end PairingSession

/-! ## The effects -/

open PairingSession

/-- The calls that send a message and move on. -/
inductive Sends (env : PairingEnv) (s : PairingSession) (now : Nat) :
    PairingCall → PairingMessage → SessionState → Prop
  | proof (message : PairingMessage) (hopen : Open s now .confirming .source)
      (hproof : s.sasProof env = .ok message) : Sends env s now .confirmSas message .transferring
  | payload (payloadType : PayloadType) (text : String)
      (hopen : Open s now .transferring .source) :
      Sends env s now (.sendPayload payloadType text) (.payload payloadType text) .payloadExchanged
  | sourceComplete (success : Bool) (hopen : Open s now .payloadExchanged .source) :
      Sends env s now (.sendSourceComplete success) (.complete success)
        (if success then .completed else .aborted)
  | complete (hopen : Open s now .payloadExchanged .target) :
      Sends env s now .sendComplete (.complete true) .completed
  | abort (reason : AbortReason) (hrunning : s.state.isTerminal = false) :
      Sends env s now (.abort reason) (.abort reason) .aborted

/-- The calls that take an event from the peer and move on. -/
inductive Takes (env : PairingEnv) (s : PairingSession) (now : Nat) (event : PairingEvent) :
    PairingCall → PairingMessage → SessionState → Option (PayloadType × String) → Prop
  | returned (payloadType : PayloadType) (text : String)
      (hopen : Open s now .transferring .source) :
      Takes env s now event (.handleReturnPayload event) (.payload payloadType text)
        .payloadExchanged (some (payloadType, text))
  | payload (payloadType : PayloadType) (text : String)
      (hopen : Open s now .transferring .target) :
      Takes env s now event (.handlePayload event) (.payload payloadType text)
        .payloadExchanged (some (payloadType, text))
  | completed (hopen : Open s now .payloadExchanged .source) :
      Takes env s now event (.handleComplete event) (.complete true) .completed none
  | confirmed (hash : String) (expected : Bytes32) (hopen : Open s now .confirming .target)
      (hexpected : s.expectedHash env = .ok expected)
      (hhash : Bytes32.ofHex hash = some expected) :
      Takes env s now event (.handleSasConfirm event) (.sasConfirm hash) .awaitingConfirmation none
  | aborted (reason : AbortReason) (hrunning : s.state.isTerminal = false)
      (hpeer : s.peerPubkey.isNone = false) :
      Takes env s now event (.handleAbort event) (.abort reason) .aborted none

/-- A submission that reached the comparison. -/
structure Submitted (s : PairingSession) (now : Nat) (event : PairingEvent)
    (submission : Submission) : Prop where
  isOpen : Open s now .confirming .source
  fromPeer : FromPeer s event (.codeSubmit submission.code submission.requestId)
  code : s.desktopCode = some submission.expected
  read : s.readSubmission now event = .ok submission

/-- What a call can do, and what it then tells. -/
inductive Effect (env : PairingEnv) (s : PairingSession) (now : Nat) :
    PairingCall → PairingSession → Except PairingError Told → Prop
  | refused (call : PairingCall) (e : PairingError) (hnone : s.comparison now call = []) :
      Effect env s now call s (.error e)
  /-- The offer was in order but its key has no shared key with ours. -/
  | stranded (event : PairingEvent) (hopen : Open s now .waiting .source) :
      Effect env s now (.handleOffer event) { s with peerPubkey := some event.event.pubkey }
        (.error .signingError)
  | offered (event : PairingEvent) (sessionId : String) (confirmation : Option String)
      (sasCode : Nat) (sasInput : Bytes32) (hopen : Open s now .waiting .source)
      (harrived : Arrived s event (.offer sessionId 1 confirmation))
      (hid : Bytes32.ofHex sessionId = some s.sessionId) :
      Effect env s now (.handleOffer event)
        { s with
          peerPubkey := some event.event.pubkey
          sasCode := some sasCode
          sasInput := some sasInput
          state := .confirming
          processedIds := s.processedIds ++ [event.event.id]
          desktopCodeRequested := confirmation == some "desktop-code-v1" }
        (.ok { accepted := some (event, .offer sessionId 1 confirmation) })
  | sent (call : PairingCall) (message : PairingMessage) (state : SessionState)
      (hsends : Sends env s now call message state) (peer : PublicKey)
      (hpeer : s.peerPubkey = some peer) :
      Effect env s now call (s.enter state) (.ok { sent := some ⟨peer, message⟩ })
  | took (call : PairingCall) (event : PairingEvent) (message : PairingMessage)
      (state : SessionState) (received : Option (PayloadType × String))
      (htakes : Takes env s now event call message state received)
      (hpeer : FromPeer s event message) :
      Effect env s now call ((s.enter state).recordEvent event)
        (.ok { accepted := some (event, message), received := received })
  /-- A hash confirmed by a session that has no SAS to show. -/
  | unsaid (event : PairingEvent) (message : PairingMessage)
      (hopen : Open s now .confirming .target) (hpeer : FromPeer s event message)
      (hnone : s.sasCode = none) :
      Effect env s now (.handleSasConfirm event)
        ((s.enter .awaitingConfirmation).recordEvent event) (.error .sasMismatch)
  /-- The peer reported a failure, or its hash was wrong. -/
  | broken (call : PairingCall) (event : PairingEvent) (message : PairingMessage)
      (hevent : call.event? = some event) (hpeer : FromPeer s event message)
      (state : SessionState) (role : Role) (hopen : Open s now state role)
      (hrunning : state.isTerminal = false) (e : PairingError)
      (hnone : s.comparison now call = []) :
      Effect env s now call (s.enter .aborted) (.error e)
  | approved (hopen : Open s now .awaitingConfirmation .target) :
      Effect env s now .confirmTargetSas (s.enter .transferring) (.ok {})
  | hungUp (reason : AbortReason) (hrunning : s.state.isTerminal = false) :
      Effect env s now (.abort reason) (s.enter .aborted) (.ok {})
  | drew (draw : Nat) (code : String) (hopen : Open s now .confirming .source)
      (hrequested : s.desktopCodeRequested = true) (hnone : s.desktopCode = none)
      (peer : PublicKey) (hpeer : s.peerPubkey = some peer) :
      Effect env s now (.startDesktopCode draw) { s with desktopCode := some code }
        (.ok { sent := some ⟨peer, .desktopCode⟩, code := some code })
  | proved (event : PairingEvent) (later : Nat) (submission : Submission)
      (hsubmitted : Submitted s now event submission)
      (hcorrect : submission.code = submission.expected) (message : PairingMessage)
      (hproof : s.sasProof env = .ok message) (peer : PublicKey)
      (hpeer : s.peerPubkey = some peer) :
      Effect env s now (.handleTargetCode event later)
        ((s.judged event).dropCode.enter .transferring)
        (.ok { sent := some ⟨peer, message⟩,
               accepted := some (event, .codeSubmit submission.code submission.requestId) })
  | unproved (event : PairingEvent) (later : Nat) (submission : Submission)
      (hsubmitted : Submitted s now event submission)
      (hcorrect : submission.code = submission.expected) (e : PairingError)
      (hlate : s.isExpired (now + later) = true ∨ s.sasInput = none ∨ s.peerPubkey = none) :
      Effect env s now (.handleTargetCode event later)
        (s.judged event).dropCode (.error e)
  | rejected (event : PairingEvent) (later : Nat) (submission : Submission)
      (hsubmitted : Submitted s now event submission)
      (hwrong : submission.code ≠ submission.expected) (peer : PublicKey)
      (hpeer : s.peerPubkey = some peer) (remaining : Nat) :
      Effect env s now (.handleTargetCode event later)
        (if (s.judged event).remainingAttempts = 0 then (s.judged event).dropCode.enter .aborted
          else s.judged event)
        (.ok { sent := some ⟨peer, .codeRejected submission.requestId remaining⟩,
               accepted := some (event, .codeSubmit submission.code submission.requestId) })
  /-- The rejection could not be built, and the session is as before it. -/
  | unrejected (event : PairingEvent) (later : Nat) (submission : Submission)
      (hsubmitted : Submitted s now event submission)
      (hwrong : submission.code ≠ submission.expected) (e : PairingError)
      (hbuild : (s.judged event).buildEvent env
        (.codeRejected submission.requestId (s.judged event).remainingAttempts) = .error e) :
      Effect env s now (.handleTargetCode event later) (s.judged event) (.error e)

/-! ## Every call has one of them -/

section Effects

variable {env : PairingEnv} {s : PairingSession} {now : Nat} {event : PairingEvent}
  {call : PairingCall} {message : PairingMessage}

/-- A check that fails ends the call; one that succeeds goes on. -/
theorem effect_orFail {α : Type} {result : Except PairingError α} {next : α → Reply}
    (hnone : s.comparison now call = [])
    (h : ∀ a, result = .ok a → Effect env s now call (next a).1 (next a).2) :
    Effect env s now call (s.orFail result next).1 (s.orFail result next).2 := by
  cases hresult : result with
  | error e => exact .refused call e hnone
  | ok a => exact h a hresult

theorem effect_sendAndEnter {state : SessionState}
    (h : Sends env s now call message state) :
    Effect env s now call (s.sendAndEnter env message state).1
      (s.sendAndEnter env message state).2 := by
  refine effect_orFail (by cases h <;> rfl) fun outgoing houtgoing => ?_
  obtain ⟨hpeer, hmessage⟩ := peer_of_buildEvent houtgoing
  have hout : outgoing = ⟨outgoing.peer, message⟩ := by rw [← hmessage]
  rw [hout]
  exact .sent call message state h outgoing.peer hpeer

theorem of_readOffer {offer : PairingMessage × Bool} (h : s.readOffer now event = .ok offer) :
    Open s now .waiting .source ∧ ∃ sessionId confirmation,
      offer = (.offer sessionId 1 confirmation, confirmation == some "desktop-code-v1") ∧
      Arrived s event (.offer sessionId 1 confirmation) ∧
      Bytes32.ofHex sessionId = some s.sessionId := by
  obtain ⟨_, hchecked, h⟩ := bind_eq_ok h
  obtain ⟨_, hbasics, h⟩ := bind_eq_ok h
  obtain ⟨message, hmessage, h⟩ := bind_eq_ok h
  obtain ⟨hverified, hfresh⟩ := of_validateEventBasics hbasics
  refine ⟨open_of_checkAdmitted hchecked, ?_⟩
  cases message with
  | offer sessionId version confirmation =>
      dsimp only at h
      split at h
      · cases h
      next hversion =>
      have hversion : version = 1 := by simpa using hversion
      subst hversion
      split at h
      · next hid =>
          cases h
          exact ⟨sessionId, confirmation, rfl,
            ⟨hverified, hfresh, of_decryptMessage hmessage⟩, hid⟩
      · cases h
  | _ => cases h

theorem effect_handleOffer :
    Effect env s now (.handleOffer event) (s.handleOffer env now event).1
      (s.handleOffer env now event).2 := by
  refine effect_orFail rfl fun offer hoffer => ?_
  obtain ⟨hopen, sessionId, confirmation, rfl, harrived, hid⟩ := of_readOffer hoffer
  dsimp only
  split
  · exact .stranded event hopen
  · exact .offered event sessionId confirmation _ _ hopen harrived hid

theorem effect_handleReturnPayload :
    Effect env s now (.handleReturnPayload event) (s.handleReturnPayload now event).1
      (s.handleReturnPayload now event).2 := by
  refine effect_orFail rfl fun message hmessage => ?_
  obtain ⟨hopen, hpeer⟩ := fromPeer_of_receive hmessage
  split
  · next payloadType text =>
      exact .took _ event _ _ _ (.returned payloadType text hopen) hpeer
  · exact .refused _ _ rfl

theorem effect_handlePayload :
    Effect env s now (.handlePayload event) (s.handlePayload now event).1
      (s.handlePayload now event).2 := by
  refine effect_orFail rfl fun message hmessage => ?_
  obtain ⟨hopen, hpeer⟩ := fromPeer_of_receive hmessage
  split
  · next payloadType text =>
      exact .took _ event _ _ _ (.payload payloadType text hopen) hpeer
  · exact .refused _ _ rfl

theorem effect_handleComplete :
    Effect env s now (.handleComplete event) (s.handleComplete now event).1
      (s.handleComplete now event).2 := by
  refine effect_orFail rfl fun message hmessage => ?_
  obtain ⟨hopen, hpeer⟩ := fromPeer_of_receive hmessage
  split
  · exact .took _ event _ _ _ (.completed hopen) hpeer
  · exact .broken _ event _ rfl hpeer _ _ hopen rfl _ rfl
  · exact .refused _ _ rfl

theorem effect_handleSasConfirm :
    Effect env s now (.handleSasConfirm event) (s.handleSasConfirm env now event).1
      (s.handleSasConfirm env now event).2 := by
  refine effect_orFail rfl fun message hmessage => ?_
  obtain ⟨hopen, hpeer⟩ := fromPeer_of_receive hmessage
  split
  · next hash =>
      refine effect_orFail rfl fun expected hexpected => ?_
      split
      · next hhash =>
          dsimp only
          split
          · next hnone => exact .unsaid event _ hopen hpeer hnone
          · exact .took _ event _ _ _ (.confirmed hash expected hopen hexpected hhash) hpeer
      · exact .broken _ event _ rfl hpeer _ _ hopen rfl _ rfl
  · exact .refused _ _ rfl

theorem effect_abort (reason : AbortReason) :
    Effect env s now (.abort reason) (s.abort env reason).1 (s.abort env reason).2 := by
  unfold PairingSession.abort
  split
  · exact .refused _ _ rfl
  next hrunning =>
  have hrunning : s.state.isTerminal = false := by simpa using hrunning
  split
  · exact .hungUp reason hrunning
  · exact effect_sendAndEnter (.abort reason hrunning)

theorem effect_handleAbort :
    Effect env s now (.handleAbort event) (s.handleAbort event).1 (s.handleAbort event).2 := by
  unfold PairingSession.handleAbort
  split
  · exact .refused _ _ rfl
  next hrunning =>
  split
  · exact .refused _ _ rfl
  next hpeer =>
  rw [Bool.not_eq_true] at hpeer
  refine effect_orFail rfl fun _ hvalid => ?_
  refine effect_orFail rfl fun message hmessage => ?_
  obtain ⟨hverified, hfresh, hsigner⟩ := of_validateEventFromPeer hvalid
  split
  · next reason =>
      exact .took _ event _ _ _ (.aborted reason (by simpa using hrunning) hpeer)
        ⟨⟨hverified, hfresh, of_decryptMessage hmessage⟩, hsigner⟩
  · exact .refused _ _ rfl

theorem effect_startDesktopCode (draw : Nat) :
    Effect env s now (.startDesktopCode draw) (s.startDesktopCode env now draw).1
      (s.startDesktopCode env now draw).2 := by
  refine effect_orFail rfl fun _ hchecks => ?_
  obtain ⟨_, hexpired, hchecks⟩ := bind_eq_ok hchecks
  obtain ⟨_, hrole, hstate⟩ := bind_eq_ok hchecks
  split
  · exact .refused _ _ rfl
  next hready =>
  rw [Bool.or_eq_true, not_or] at hready
  refine effect_orFail rfl fun challenge hchallenge => ?_
  obtain ⟨hpeer, hmessage⟩ := peer_of_buildEvent hchallenge
  have hout : challenge = ⟨challenge.peer, .desktopCode⟩ := by rw [← hmessage]
  rw [hout]
  exact .drew draw _ ⟨inTime_of_checkExpired hexpired, state_of_expectState hstate,
    role_of_expectRole hrole⟩ (by simpa using hready.1) (by simpa using hready.2) _ hpeer

theorem submitted_of_readSubmission {submission : Submission}
    (h : s.readSubmission now event = .ok submission) : Submitted s now event submission := by
  have hread := h
  obtain ⟨_, hexpired, h⟩ := bind_eq_ok h
  obtain ⟨_, hrole, h⟩ := bind_eq_ok h
  obtain ⟨_, hstate, h⟩ := bind_eq_ok h
  obtain ⟨_, hvalid, h⟩ := bind_eq_ok h
  obtain ⟨hverified, hfresh, hsigner⟩ := of_validateEventFromPeer hvalid
  split at h
  · cases h
  next expected hcode =>
  obtain ⟨message, hmessage, h⟩ := bind_eq_ok h
  cases message with
  | codeSubmit code requestId =>
      cases h
      exact ⟨⟨inTime_of_checkExpired hexpired, state_of_expectState hstate,
        role_of_expectRole hrole⟩, ⟨⟨hverified, hfresh, of_decryptMessage hmessage⟩, hsigner⟩,
        hcode, hread⟩
  | _ => cases h

/-! A proof is a hash in hex, well below what NIP-44 takes. -/

theorem length_renderString_le (text : List Char) :
    (Json.renderString text).length ≤ 2 + 6 * text.length := by
  have hescaped : (text.flatMap Json.escapeChar).length ≤ 6 * text.length := by
    induction text with
    | nil => exact Nat.le_refl _
    | cons c text ih =>
        have hc : (Json.escapeChar c).length ≤ 6 := by
          unfold Json.escapeChar
          repeat' split
          all_goals simp
        rw [List.flatMap_cons, List.length_append, List.length_cons]
        omega
  rw [Json.renderString, List.length_cons, List.length_append, List.length_singleton]
  omega

theorem sum_utf8Size_le (text : List Char) : (text.map Char.utf8Size).sum ≤ 4 * text.length := by
  induction text with
  | nil => exact Nat.le_refl _
  | cons c text ih =>
      have hc := c.utf8Size_le_four
      rw [List.map_cons, List.sum_cons, List.length_cons]
      omega

theorem size_sasConfirm_le (hash : Bytes32) :
    (PairingMessage.sasConfirm hash.toHex).size ≤ 4096 := by
  have hlength : hash.toHex.toList.length = 64 := by
    rw [Bytes32.toHex, String.toList_ofList, hexEncode_length, hash.size]
  have hquoted := length_renderString_le hash.toHex.toList
  have hjson : (PairingMessage.sasConfirm hash.toHex).toJson.length =
      41 + (Json.renderString hash.toHex.toList).length := by
    have htype : (PairingMessage.quoted "type").length = 6 := by decide
    have hname : (PairingMessage.quoted "sas-confirm").length = 13 := by decide
    have hfield : (PairingMessage.quoted "transcript_hash").length = 17 := by decide
    have hhash : PairingMessage.quoted hash.toHex = Json.renderString hash.toHex.toList := rfl
    simp only [PairingMessage.toJson, PairingMessage.fields, PairingMessage.name,
      List.map_cons, List.map_nil, List.intercalate, List.intersperse, List.flatten_cons,
      List.flatten_nil, List.length_cons, List.length_append, List.length_nil, htype, hname,
      hfield, hhash, String.reduceToList]
    omega
  refine (sum_utf8Size_le _).trans ?_
  rw [hjson]
  omega

/-- The proof is the hash over both keys and the secret. -/
theorem sasProof_eq (h : s.sasProof env = .ok message) :
    ∃ sasInput peer, s.sasInput = some sasInput ∧ s.peerPubkey = some peer ∧
      message = .sasConfirm (env.deriveTranscriptHash s.sessionId s.keys.publicKey peer sasInput
        s.sessionSecret).toHex := by
  unfold sasProof at h
  split at h
  · cases h
  · cases h
  next sasInput peer hinput hpeer =>
  cases h
  exact ⟨sasInput, peer, hinput, hpeer, rfl⟩

theorem buildEvent_sasProof (h : s.sasProof env = .ok message) :
    ∃ peer, s.peerPubkey = some peer ∧ s.buildEvent env message = .ok ⟨peer, message⟩ := by
  obtain ⟨sasInput, peer, hinput, hpeer, rfl⟩ := sasProof_eq h
  refine ⟨peer, hpeer, ?_⟩
  have hsize := (size_sasConfirm_le (env.deriveTranscriptHash s.sessionId s.keys.publicKey peer
    sasInput s.sessionSecret)).trans env.roomy
  rw [buildEvent, hpeer]
  exact if_pos hsize

/-- The inner `confirm_sas` of an accepted code. -/
theorem confirmSas_cases (s : PairingSession) (now : Nat) (hstate : s.state = .confirming)
    (hrole : s.role = .source) :
    (∃ message peer, s.sasProof env = .ok message ∧ s.peerPubkey = some peer ∧
      s.confirmSas env now = (s.enter .transferring, .ok { sent := some ⟨peer, message⟩ })) ∨
    ∃ e, s.confirmSas env now = (s, .error e) ∧
      (s.isExpired now = true ∨ s.sasInput = none ∨ s.peerPubkey = none) := by
  unfold PairingSession.confirmSas
  cases hexpired : s.isExpired now with
  | true =>
      refine .inr ⟨.sessionExpired, ?_, .inl rfl⟩
      simp [checkAdmitted, checkExpired, hexpired, orFail, bind, Except.bind]
  | false =>
      have hchecked : s.checkAdmitted now .confirming .source = .ok () := by
        simp [checkAdmitted, checkExpired, hexpired, expectState, expectRole, hstate, hrole, bind,
          Except.bind]
      rw [hchecked]
      cases hproof : s.sasProof env with
      | error e =>
          refine .inr ⟨e, rfl, .inr ?_⟩
          unfold sasProof at hproof
          split at hproof
          · next hinput => exact .inl hinput
          · next hpeer => exact .inr hpeer
          · cases hproof
      | ok message =>
          obtain ⟨peer, hpeer, hbuild⟩ := buildEvent_sasProof hproof
          refine .inl ⟨message, peer, rfl, hpeer, ?_⟩
          show s.sendAndEnter env message .transferring = _
          rw [sendAndEnter, hbuild]
          rfl

theorem effect_rejectCode (later : Nat) {submission : Submission}
    (hsubmitted : Submitted s now event submission)
    (hwrong : submission.code ≠ submission.expected) :
    Effect env s now (.handleTargetCode event later) (s.rejectCode env event submission).1
      (s.rejectCode env event submission).2 := by
  unfold rejectCode
  dsimp only
  cases hbuild : (s.judged event).buildEvent env
      (.codeRejected submission.requestId (s.judged event).remainingAttempts) with
  | error e => exact .unrejected event later submission hsubmitted hwrong e hbuild
  | ok rejection =>
      obtain ⟨hpeer, hmessage⟩ := peer_of_buildEvent hbuild
      have hout : rejection = ⟨rejection.peer, .codeRejected submission.requestId
          (s.judged event).remainingAttempts⟩ := by rw [← hmessage]
      rw [hout]
      exact .rejected event later submission hsubmitted hwrong rejection.peer hpeer _

theorem effect_handleTargetCode (later : Nat) :
    Effect env s now (.handleTargetCode event later) (s.handleTargetCode env now event later).1
      (s.handleTargetCode env now event later).2 := by
  unfold PairingSession.handleTargetCode
  cases hread : s.readSubmission now event with
  | error e =>
      refine .refused _ e ?_
      show (s.readSubmission now event).toOption.toList = []
      rw [hread]
      rfl
  | ok submission =>
      have hsubmitted := submitted_of_readSubmission hread
      dsimp only [orFail]
      split
      · next hcorrect =>
          unfold acceptCode
          rcases confirmSas_cases (s.judged event).dropCode (now + later)
            hsubmitted.isOpen.state hsubmitted.isOpen.role
            with ⟨message, peer, hproof, hpeer, hdone⟩ | ⟨e, hdone, hlate⟩
          · rw [hdone]
            exact .proved event later submission hsubmitted hcorrect message hproof peer hpeer
          · rw [hdone]
            exact .unproved event later submission hsubmitted hcorrect e hlate
      · next hwrong => exact effect_rejectCode later hsubmitted hwrong

/-- Every call has one of the effects. -/
theorem call_effect (env : PairingEnv) (s : PairingSession) (now : Nat) (call : PairingCall) :
    Effect env s now call (s.call env now call).1 (s.call env now call).2 := by
  cases call with
  | handleOffer event => exact effect_handleOffer
  | confirmSas =>
      refine effect_orFail rfl fun _ hchecked => ?_
      refine effect_orFail rfl fun proof hproof => ?_
      exact effect_sendAndEnter (.proof proof (open_of_checkAdmitted hchecked) hproof)
  | handleReturnPayload event => exact effect_handleReturnPayload
  | sendSourceComplete success =>
      refine effect_orFail rfl fun _ hchecked => ?_
      exact effect_sendAndEnter (.sourceComplete success (open_of_checkAdmitted hchecked))
  | sendPayload payloadType payload =>
      refine effect_orFail rfl fun _ hchecked => ?_
      exact effect_sendAndEnter (.payload payloadType payload (open_of_checkAdmitted hchecked))
  | handleComplete event => exact effect_handleComplete
  | handleSasConfirm event => exact effect_handleSasConfirm
  | confirmTargetSas =>
      exact effect_orFail rfl fun _ hchecked => .approved (open_of_checkAdmitted hchecked)
  | handlePayload event => exact effect_handlePayload
  | sendComplete =>
      refine effect_orFail rfl fun _ hchecked => ?_
      exact effect_sendAndEnter (.complete (open_of_checkAdmitted hchecked))
  | abort reason => exact effect_abort reason
  | handleAbort event => exact effect_handleAbort
  | startDesktopCode draw => exact effect_startDesktopCode draw
  | handleTargetCode event later => exact effect_handleTargetCode later

end Effects

end Buzz.Pairing
