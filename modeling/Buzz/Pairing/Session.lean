import Buzz.Core.Json
import Buzz.Core.Nip10
import Buzz.Lib.Machine

/-!
# NIP-AB pairing sessions

`buzz-core/src/pairing/session.rs` and `session_desktop_code.rs`: the state
machine of one side of a device pairing. A method that fails returns the
session as far as it had got, because it works on `&mut self`.

The cryptography is the `nostr` crate's. HKDF, the ECDH shared key and the
longest plaintext NIP-44 encrypts are parameters; a ciphertext is a term that
names the two keys it was sealed between, what is inside, and its sizes, and
opens for the holder of either key who expects the other. An event comes with
the answer of `Event::verify`. An id of a built event is drawn by its
signature, so an outgoing event is its recipient and its message here.

The clock reads nanoseconds. Relay URLs, the QR URI, `sign_event` and the
zeroing of secrets have no part in the state.
-/

namespace Buzz.Pairing

open Buzz.Lib

/-! ## Messages -/

inductive PayloadType where
  | nsec
  | bunker
  | connect
  | custom
deriving DecidableEq

inductive AbortReason where
  | sasMismatch
  | userDenied
  | timeout
  | protocolError
  | unknown
deriving DecidableEq

inductive PairingMessage where
  | offer (sessionId : String) (version : Nat) (confirmation : Option String)
  | desktopCode
  | codeSubmit (code requestId : String)
  | codeRejected (requestId : String) (remainingAttempts : Nat)
  | sasConfirm (transcriptHash : String)
  | payload (payloadType : PayloadType) (payload : String)
  | complete (success : Bool)
  | abort (reason : AbortReason)
deriving DecidableEq

def PayloadType.toText : PayloadType → String
  | .nsec => "nsec"
  | .bunker => "bunker"
  | .connect => "connect"
  | .custom => "custom"

def AbortReason.toText : AbortReason → String
  | .sasMismatch => "sas_mismatch"
  | .userDenied => "user_denied"
  | .timeout => "timeout"
  | .protocolError => "protocol_error"
  | .unknown => "unknown"

namespace PairingMessage

/-- The `"type"` of a message, which is also its name in errors. -/
def name : PairingMessage → String
  | .offer .. => "offer"
  | .desktopCode => "desktop-code"
  | .codeSubmit .. => "code-submit"
  | .codeRejected .. => "code-rejected"
  | .sasConfirm .. => "sas-confirm"
  | .payload .. => "payload"
  | .complete .. => "complete"
  | .abort .. => "abort"

def quoted (text : String) : List Char := Json.renderString text.toList

/-- The fields after `"type"`, as `serde_json::to_string` writes them. -/
def fields : PairingMessage → List (String × List Char)
  | .offer sessionId version confirmation =>
      [("session_id", quoted sessionId), ("version", Nat.toDigits 10 version)] ++
        (confirmation.map fun text => ("confirmation", quoted text)).toList
  | .desktopCode => []
  | .codeSubmit code requestId => [("code", quoted code), ("request_id", quoted requestId)]
  | .codeRejected requestId remainingAttempts =>
      [("request_id", quoted requestId),
        ("remaining_attempts", Nat.toDigits 10 remainingAttempts)]
  | .sasConfirm transcriptHash => [("transcript_hash", quoted transcriptHash)]
  | .payload payloadType text =>
      [("payload_type", quoted payloadType.toText), ("payload", quoted text)]
  | .complete success => [("success", if success then "true".toList else "false".toList)]
  | .abort reason => [("reason", quoted reason.toText)]

def toJson (message : PairingMessage) : List Char :=
  '{' :: ((",".toList).intercalate
    ((("type", quoted message.name) :: message.fields).map fun field =>
      quoted field.1 ++ ':' :: field.2) ++ ['}'])

/-- The length of the serialized message in bytes. -/
def size (message : PairingMessage) : Nat := (message.toJson.map Char.utf8Size).sum

end PairingMessage

/-! ## Cryptography -/

/-- What the session takes from the `nostr` crate. -/
structure PairingEnv where
  /-- `hkdf::expand(hkdf::extract(salt, ikm), info, 32)`. -/
  hkdf32 : (salt ikm info : List UInt8) → Bytes32
  /-- `generate_shared_key`: the x-coordinate of the ECDH point. -/
  sharedKey : (secretKey : Bytes32) → PublicKey → Option Bytes32
  /-- The longest plaintext `nip44::encrypt` takes, 65535 bytes in NIP-44. -/
  maxPlaintext : Nat
  roomy : 4096 ≤ maxPlaintext

structure Keys where
  secretKey : Bytes32
  publicKey : PublicKey
deriving DecidableEq

/-- A NIP-44 ciphertext: the two keys it was sealed between, the length of the
plaintext and what it parses to. -/
structure Sealed where
  one : PublicKey
  other : PublicKey
  bytes : Nat
  message : Option PairingMessage
deriving DecidableEq

/-- The content of an event: its length, and the ciphertext it is, if any. -/
structure Content where
  chars : Nat
  cipher : Option Sealed
deriving DecidableEq

structure PairingEvent where
  event : Event
  /-- `event.verify()`: the id and the signature are right. -/
  verified : Bool
  content : Content
deriving DecidableEq

/-- An event the session built: encrypted to the peer and signed. -/
structure Outgoing where
  peer : PublicKey
  message : PairingMessage
deriving DecidableEq

inductive PairingError where
  | invalidSessionId
  | sasMismatch
  | transcriptMismatch
  | unexpectedMessage (expected got : String)
  | sessionExpired
  | nip44
  | json
  | invalidPubkey (message : String)
  | signingError
deriving DecidableEq

def unexpected (expected : String) (got : PairingMessage) : PairingError :=
  .unexpectedMessage expected got.name

namespace PairingEnv

variable (env : PairingEnv)

def ascii (text : String) : List UInt8 := text.toList.map fun c => UInt8.ofNat c.toNat

def deriveSessionId (sessionSecret : Bytes32) : Bytes32 :=
  env.hkdf32 [] sessionSecret.bytes (ascii "nostr-pair-session-id")

/-- The SAS code, and the input it is the head of. -/
def deriveSas (ecdhShared sessionSecret : Bytes32) : Nat × Bytes32 :=
  let sasInput := env.hkdf32 sessionSecret.bytes ecdhShared.bytes (ascii "nostr-pair-sas-v1")
  (((sasInput.bytes.take 4).foldl (fun value b => value * 256 + b.toNat) 0) % 1000000, sasInput)

def deriveTranscriptHash (sessionId sourcePubkey targetPubkey sasInput sessionSecret : Bytes32) :
    Bytes32 :=
  env.hkdf32 sessionSecret.bytes
    (sessionId.bytes ++ sourcePubkey.bytes ++ targetPubkey.bytes ++ sasInput.bytes)
    (ascii "nostr-pair-transcript-v1")

end PairingEnv

/-- `format!("{code:06}")`. -/
def formatSas (code : Nat) : String :=
  let digits := Nat.toDigits 10 code
  String.ofList (List.replicate (6 - digits.length) '0' ++ digits)

/-! ## The session -/

inductive Role where
  | source
  | target
deriving DecidableEq

inductive SessionState where
  | waiting
  | confirming
  | awaitingConfirmation
  | transferring
  | payloadExchanged
  | completed
  | aborted
deriving DecidableEq

def Role.toText : Role → String
  | .source => "Source"
  | .target => "Target"

def SessionState.toText : SessionState → String
  | .waiting => "Waiting"
  | .confirming => "Confirming"
  | .awaitingConfirmation => "AwaitingConfirmation"
  | .transferring => "Transferring"
  | .payloadExchanged => "PayloadExchanged"
  | .completed => "Completed"
  | .aborted => "Aborted"

/-- `Completed | Aborted`. -/
def SessionState.isTerminal (state : SessionState) : Bool :=
  state == .completed || state == .aborted

structure PairingSession where
  role : Role
  state : SessionState
  keys : Keys
  sessionSecret : Bytes32
  peerPubkey : Option PublicKey
  sessionId : Bytes32
  sasCode : Option Nat
  sasInput : Option Bytes32
  processedIds : List EventId
  createdAt : Nat
  timeout : Nat
  desktopCodeRequested : Bool
  desktopCode : Option String
  codeAttempts : Nat
deriving DecidableEq

structure QrPayload where
  sourcePubkey : PublicKey
  sessionSecret : Bytes32
deriving DecidableEq

/-- `DEFAULT_TIMEOUT`: 120 seconds. -/
def defaultTimeout : Nat := 120000000000

/-- `KIND_PAIRING`. -/
def pairingKind : Kind := 24134

namespace PairingSession

variable (env : PairingEnv) (s : PairingSession) (now : Nat) (event : PairingEvent)

def newSource (keys : Keys) (sessionSecret : Bytes32) : PairingSession where
  role := .source
  state := .waiting
  keys := keys
  sessionSecret := sessionSecret
  peerPubkey := none
  sessionId := env.deriveSessionId sessionSecret
  sasCode := none
  sasInput := none
  processedIds := []
  createdAt := now
  timeout := defaultTimeout
  desktopCodeRequested := false
  desktopCode := none
  codeAttempts := 0

def deadline : Nat := s.createdAt + s.timeout

def isExpired : Bool := s.deadline ≤ now

/-! ### Checks -/

def checkExpired : Except PairingError Unit :=
  if s.isExpired now then .error .sessionExpired else .ok ()

def expectState (expected : SessionState) : Except PairingError Unit :=
  if s.state = expected then .ok ()
  else .error (.unexpectedMessage ("state " ++ expected.toText) ("state " ++ s.state.toText))

def expectRole (expected : Role) : Except PairingError Unit :=
  if s.role = expected then .ok ()
  else .error (.unexpectedMessage ("role " ++ expected.toText) ("role " ++ s.role.toText))

/-- A `p` tag that names this session's key. -/
def hasPTag : Bool :=
  event.event.tags.any fun tag =>
    tag.asSlice.head? == some "p" && tag.asSlice[1]? == some s.keys.publicKey.toHex

def validateEventBasics : Except PairingError Unit :=
  if !event.verified then .error (.invalidPubkey "event verification failed")
  else if s.processedIds.contains event.event.id then
    .error (.unexpectedMessage "new event" "duplicate event id")
  else if event.event.kind ≠ pairingKind then
    .error (.unexpectedMessage "kind 24134" ("kind " ++ toString event.event.kind.toNat))
  else if !s.hasPTag event then
    .error (.invalidPubkey "event p-tag does not match our ephemeral pubkey")
  else .ok ()

def validateEventFromPeer : Except PairingError Unit := do
  s.validateEventBasics event
  match s.peerPubkey with
  | some expected =>
      if event.event.pubkey = expected then .ok ()
      else .error (.invalidPubkey
        ("event from " ++ event.event.pubkey.toHex ++ " but expected " ++ expected.toHex))
  | none => .ok ()

/-- The ciphertext opens for this session and the event's author. -/
def opens (cipher : Sealed) : Bool :=
  (cipher.one == s.keys.publicKey && cipher.other == event.event.pubkey) ||
    (cipher.one == event.event.pubkey && cipher.other == s.keys.publicKey)

def decryptMessage : Except PairingError PairingMessage :=
  if event.content.chars < 132 ∨ 87472 < event.content.chars then
    .error (.unexpectedMessage "NIP-44 content (132–87472 chars)"
      (toString event.content.chars ++ " chars"))
  else
    match event.content.cipher with
    | none => .error .nip44
    | some cipher =>
        if !s.opens event cipher then .error .nip44
        else if 65535 < cipher.bytes then
          .error (.unexpectedMessage "plaintext ≤ 65535 bytes"
            (toString cipher.bytes ++ " bytes"))
        else
          match cipher.message with
          | none => .error .json
          | some message => .ok message

/-- The checks a method makes of the session before anything else. -/
def checkAdmitted (state : SessionState) (role : Role) : Except PairingError Unit := do
  s.checkExpired now
  s.expectState state
  s.expectRole role

/-- The checks of a method that takes an event from the peer. -/
def receive (state : SessionState) (role : Role) : Except PairingError PairingMessage := do
  s.checkAdmitted now state role
  s.validateEventFromPeer event
  s.decryptMessage event

def recordEvent : PairingSession :=
  { s with processedIds := s.processedIds ++ [event.event.id] }

def enter (state : SessionState) : PairingSession := { s with state := state }

def buildEvent (message : PairingMessage) : Except PairingError Outgoing :=
  match s.peerPubkey with
  | none => .error (.invalidPubkey "no peer pubkey set")
  | some peer => if message.size ≤ env.maxPlaintext then .ok ⟨peer, message⟩ else .error .nip44

end PairingSession

/-- What a method that succeeded gives its caller: the event it built, the
event it accepted and what that said, the payload it returns, the code it
drew. -/
structure Told where
  sent : Option Outgoing := none
  accepted : Option (PairingEvent × PairingMessage) := none
  received : Option (PayloadType × String) := none
  code : Option String := none
deriving DecidableEq

/-- A method's result, with the session it leaves. -/
abbrev Reply := PairingSession × Except PairingError Told

namespace PairingSession

variable (env : PairingEnv) (s : PairingSession) (now : Nat) (event : PairingEvent)

/-- `?`: on an error the session stays as it is. -/
def orFail {α : Type} (result : Except PairingError α) (next : α → Reply) : Reply :=
  match result with
  | .error e => (s, .error e)
  | .ok a => next a

/-- Build an event and move on, or fail where the session is. -/
def sendAndEnter (message : PairingMessage) (state : SessionState) : Reply :=
  s.orFail (s.buildEvent env message) fun outgoing =>
    (s.enter state, .ok { sent := some outgoing })

/-! ### The source -/

/-- The checks of an offer, down to its session id. -/
def readOffer : Except PairingError (PairingMessage × Bool) := do
  s.checkAdmitted now .waiting .source
  s.validateEventBasics event
  let message ← s.decryptMessage event
  match message with
  | .offer sessionId version confirmation =>
      if version ≠ 1 then
        .error (.unexpectedMessage "version 1" ("version " ++ toString version))
      else if Bytes32.ofHex sessionId = some s.sessionId then
        .ok (message, confirmation == some "desktop-code-v1")
      else .error .invalidSessionId
  | other => .error (unexpected "offer" other)

/-- `handle_offer_with_confirmation`, and `handle_offer` over it. -/
def handleOffer : Reply :=
  s.orFail (s.readOffer now event) fun offer =>
    let locked := { s with peerPubkey := some event.event.pubkey }
    match env.sharedKey s.keys.secretKey event.event.pubkey with
    | none => (locked, .error .signingError)
    | some ecdh =>
        let sas := env.deriveSas ecdh s.sessionSecret
        ({ locked with
            sasCode := some sas.1
            sasInput := some sas.2
            state := .confirming
            processedIds := s.processedIds ++ [event.event.id]
            desktopCodeRequested := offer.2 },
          .ok { accepted := some (event, offer.1) })

/-- The proof `confirm_sas` sends. -/
def sasProof : Except PairingError PairingMessage :=
  match s.sasInput, s.peerPubkey with
  | none, _ => .error .sasMismatch
  | some _, none => .error (.invalidPubkey "no peer")
  | some sasInput, some peer =>
      .ok (.sasConfirm (env.deriveTranscriptHash s.sessionId s.keys.publicKey peer sasInput
        s.sessionSecret).toHex)

def confirmSas : Reply :=
  s.orFail (s.checkAdmitted now .confirming .source) fun _ =>
    s.orFail (s.sasProof env) fun proof => s.sendAndEnter env proof .transferring

def handleReturnPayload : Reply :=
  s.orFail (s.receive now event .transferring .source) fun message =>
    match message with
    | .payload payloadType payload =>
        ((s.enter .payloadExchanged).recordEvent event,
          .ok { accepted := some (event, message), received := some (payloadType, payload) })
    | other => (s, .error (unexpected "payload" other))

def sendSourceComplete (success : Bool) : Reply :=
  s.orFail (s.checkAdmitted now .payloadExchanged .source) fun _ =>
    s.sendAndEnter env (.complete success) (if success then .completed else .aborted)

def sendPayload (payloadType : PayloadType) (payload : String) : Reply :=
  s.orFail (s.checkAdmitted now .transferring .source) fun _ =>
    s.sendAndEnter env (.payload payloadType payload) .payloadExchanged

def handleComplete : Reply :=
  s.orFail (s.receive now event .payloadExchanged .source) fun message =>
    match message with
    | .complete true =>
        ((s.enter .completed).recordEvent event, .ok { accepted := some (event, message) })
    | .complete false =>
        (s.enter .aborted,
          .error (.unexpectedMessage "complete(success=true)" "complete(success=false)"))
    | other => (s, .error (unexpected "complete" other))

/-! ### The target -/

def newTarget (keys : Keys) (qr : QrPayload) : Except PairingError (PairingSession × Outgoing) :=
  match env.sharedKey keys.secretKey qr.sourcePubkey with
  | none => .error .signingError
  | some ecdh =>
      let sas := env.deriveSas ecdh qr.sessionSecret
      let session : PairingSession := {
        role := .target
        state := .waiting
        keys := keys
        sessionSecret := qr.sessionSecret
        peerPubkey := some qr.sourcePubkey
        sessionId := env.deriveSessionId qr.sessionSecret
        sasCode := some sas.1
        sasInput := some sas.2
        processedIds := []
        createdAt := now
        timeout := defaultTimeout
        desktopCodeRequested := false
        desktopCode := none
        codeAttempts := 0 }
      match session.buildEvent env (.offer session.sessionId.toHex 1 none) with
      | .error e => .error e
      | .ok offer => .ok (session.enter .confirming, offer)

/-- The hash the target expects; the source is the peer. -/
def expectedHash : Except PairingError Bytes32 :=
  match s.sasInput, s.peerPubkey with
  | none, _ => .error .sasMismatch
  | some _, none => .error (.invalidPubkey "no peer")
  | some sasInput, some peer =>
      .ok (env.deriveTranscriptHash s.sessionId peer s.keys.publicKey sasInput s.sessionSecret)

def handleSasConfirm : Reply :=
  s.orFail (s.receive now event .confirming .target) fun message =>
    match message with
    | .sasConfirm transcriptHash =>
        s.orFail (s.expectedHash env) fun expected =>
          if Bytes32.ofHex transcriptHash = some expected then
            let accepted := (s.enter .awaitingConfirmation).recordEvent event
            match s.sasCode with
            | none => (accepted, .error .sasMismatch)
            | some _ => (accepted, .ok { accepted := some (event, message) })
          else (s.enter .aborted, .error .transcriptMismatch)
    | other => (s, .error (unexpected "sas-confirm" other))

def confirmTargetSas : Reply :=
  s.orFail (s.checkAdmitted now .awaitingConfirmation .target) fun _ =>
    (s.enter .transferring, .ok {})

def handlePayload : Reply :=
  s.orFail (s.receive now event .transferring .target) fun message =>
    match message with
    | .payload payloadType payload =>
        ((s.enter .payloadExchanged).recordEvent event,
          .ok { accepted := some (event, message), received := some (payloadType, payload) })
    | other => (s, .error (unexpected "payload" other))

def sendComplete : Reply :=
  s.orFail (s.checkAdmitted now .payloadExchanged .target) fun _ =>
    s.sendAndEnter env (.complete true) .completed

/-! ### Both sides -/

def terminalError : PairingError :=
  .unexpectedMessage "non-terminal state" ("state " ++ s.state.toText)

def abort (reason : AbortReason) : Reply :=
  if s.state.isTerminal then (s, .error s.terminalError)
  else
    match s.peerPubkey with
    | none => (s.enter .aborted, .ok {})
    | some _ => s.sendAndEnter env (.abort reason) .aborted

def handleAbort : Reply :=
  if s.state.isTerminal then (s, .error s.terminalError)
  else if s.peerPubkey.isNone then
    (s, .error (.invalidPubkey "cannot accept abort before peer is known"))
  else
    s.orFail (s.validateEventFromPeer event) fun _ =>
      s.orFail (s.decryptMessage event) fun message =>
        match message with
        | .abort _ => ((s.enter .aborted).recordEvent event,
            .ok { accepted := some (event, message) })
        | other => (s, .error (unexpected "abort" other))

/-! ### Desktop codes -/

/-- `start_desktop_code`, with the number it draws. -/
def startDesktopCode (draw : Nat) : Reply :=
  s.orFail (do s.checkExpired now; s.expectRole .source; s.expectState .confirming) fun _ =>
    if !s.desktopCodeRequested || s.desktopCode.isSome then (s, .error .sasMismatch)
    else
      s.orFail (s.buildEvent env .desktopCode) fun challenge =>
        let code := formatSas (draw % 1000000)
        ({ s with desktopCode := some code }, .ok { sent := some challenge, code := some code })

/-- A submission on its way to the comparison. -/
structure Submission where
  expected : String
  code : String
  requestId : String
deriving DecidableEq

/-- `handle_target_code` up to its comparison. -/
def readSubmission : Except PairingError Submission := do
  s.checkExpired now
  s.expectRole .source
  s.expectState .confirming
  s.validateEventFromPeer event
  match s.desktopCode with
  | none => .error .sasMismatch
  | some expected =>
      match ← s.decryptMessage event with
      | .codeSubmit code requestId => .ok ⟨expected, code, requestId⟩
      | other => .error (unexpected "code-submit" other)

/-- `5u8.saturating_sub(self.code_attempts)`. -/
def remainingAttempts : Nat := 5 - s.codeAttempts

/-- The session once a submission was compared; the counter is a `u8`. -/
def judged : PairingSession :=
  { s.recordEvent event with codeAttempts := (s.codeAttempts + 1) % 256 }

def dropCode : PairingSession := { s with desktopCode := none }

/-- The submission was right: `confirm_sas` at a later look at the clock. -/
def acceptCode (submission : Submission) : Reply :=
  let proof := (s.judged event).dropCode.confirmSas env now
  (proof.1, proof.2.map fun told => { told with
    accepted := some (event, .codeSubmit submission.code submission.requestId) })

/-- The submission was wrong. The session ends with the budget, but only after
the rejection is built. -/
def rejectCode (submission : Submission) : Reply :=
  let remaining := (s.judged event).remainingAttempts
  (s.judged event).orFail
    ((s.judged event).buildEvent env (.codeRejected submission.requestId remaining))
    fun rejection =>
      (if remaining = 0 then (s.judged event).dropCode.enter .aborted else s.judged event,
        .ok { sent := some rejection,
              accepted := some (event, .codeSubmit submission.code submission.requestId) })

/-- `handle_target_code`; `confirm_sas` looks at the clock again, `later`
nanoseconds on. -/
def handleTargetCode (later : Nat) : Reply :=
  s.orFail (s.readSubmission now event) fun submission =>
    if submission.code = submission.expected then s.acceptCode env (now + later) event submission
    else s.rejectCode env event submission

end PairingSession

/-! ## Runs -/

inductive PairingCall where
  | handleOffer (event : PairingEvent)
  | confirmSas
  | handleReturnPayload (event : PairingEvent)
  | sendSourceComplete (success : Bool)
  | sendPayload (payloadType : PayloadType) (payload : String)
  | handleComplete (event : PairingEvent)
  | handleSasConfirm (event : PairingEvent)
  | confirmTargetSas
  | handlePayload (event : PairingEvent)
  | sendComplete
  | abort (reason : AbortReason)
  | handleAbort (event : PairingEvent)
  | startDesktopCode (draw : Nat)
  | handleTargetCode (event : PairingEvent) (later : Nat)
deriving DecidableEq

def PairingSession.call (env : PairingEnv) (s : PairingSession) (now : Nat) : PairingCall → Reply
  | .handleOffer event => s.handleOffer env now event
  | .confirmSas => s.confirmSas env now
  | .handleReturnPayload event => s.handleReturnPayload now event
  | .sendSourceComplete success => s.sendSourceComplete env now success
  | .sendPayload payloadType payload => s.sendPayload env now payloadType payload
  | .handleComplete event => s.handleComplete now event
  | .handleSasConfirm event => s.handleSasConfirm env now event
  | .confirmTargetSas => s.confirmTargetSas now
  | .handlePayload event => s.handlePayload now event
  | .sendComplete => s.sendComplete env now
  | .abort reason => s.abort env reason
  | .handleAbort event => s.handleAbort event
  | .startDesktopCode draw => s.startDesktopCode env now draw
  | .handleTargetCode event later => s.handleTargetCode env now event later

/-- A call, and how long it came after the one before. -/
structure PairingMove where
  wait : Nat
  call : PairingCall
deriving DecidableEq

/-- A session with the history of its calls. -/
structure PairingRun where
  session : PairingSession
  now : Nat
  sent : List Outgoing := []
  accepted : List (PairingEvent × PairingMessage) := []
  received : List (PayloadType × String) := []
  /-- The codes drawn by `start_desktop_code`. -/
  codes : List String := []
  /-- The submissions compared with the code of their time. -/
  compared : List PairingSession.Submission := []
  /-- `confirm_target_sas` succeeded. -/
  approved : Bool := false
deriving DecidableEq

/-- What a call compares with the desktop code. -/
def PairingSession.comparison (s : PairingSession) (now : Nat) :
    PairingCall → List PairingSession.Submission
  | .handleTargetCode event _ => (s.readSubmission now event).toOption.toList
  | _ => []

/-- The time a call itself takes between its two looks at the clock. -/
def PairingCall.duration : PairingCall → Nat
  | .handleTargetCode _ later => later
  | _ => 0

/-- The history with one more call. -/
def PairingRun.note (r : PairingRun) (now : Nat) (call : PairingCall) (reply : Reply) :
    PairingRun :=
  let told := reply.2.toOption.getD {}
  { session := reply.1
    now := now + call.duration
    sent := r.sent ++ told.sent.toList
    accepted := r.accepted ++ told.accepted.toList
    received := r.received ++ told.received.toList
    codes := r.codes ++ told.code.toList
    compared := r.compared ++ r.session.comparison now call
    approved := r.approved || (call == .confirmTargetSas && reply.2.toBool) }

def PairingRun.step (env : PairingEnv) (r : PairingRun) (m : PairingMove) : PairingRun :=
  let now := r.now + m.wait
  r.note now m.call (r.session.call env now m.call)

/-- A session from its first call on. -/
def pairing (env : PairingEnv) (start : PairingRun) : Machine PairingRun PairingMove :=
  ⟨start, PairingRun.step env⟩

/-- `new_source`. -/
def sourceStart (env : PairingEnv) (keys : Keys) (sessionSecret : Bytes32) (now : Nat) :
    PairingRun where
  session := .newSource env now keys sessionSecret
  now := now

/-- `new_target`, which has sent its offer. -/
def targetStart (env : PairingEnv) (keys : Keys) (qr : QrPayload) (now : Nat) :
    Except PairingError PairingRun := do
  let (session, offer) ← PairingSession.newTarget env now keys qr
  return { session := session, now := now, sent := [offer] }

/-- The desktop command `confirm_pairing_sas` on the session: the plain SAS
route, and the payload after it. -/
def confirmPairingSas (payload : String) : List PairingMove :=
  [⟨0, .confirmSas⟩, ⟨0, .sendPayload .custom payload⟩]

/-! ## A source, a target and the network between them -/

/-- The event a call is given. -/
def PairingCall.event? : PairingCall → Option PairingEvent
  | .handleOffer event => some event
  | .handleReturnPayload event => some event
  | .handleComplete event => some event
  | .handleSasConfirm event => some event
  | .handlePayload event => some event
  | .handleAbort event => some event
  | .handleTargetCode event _ => some event
  | _ => none

def Sealed.between (cipher : Sealed) (one other : PublicKey) : Bool :=
  (cipher.one == one && cipher.other == other) || (cipher.one == other && cipher.other == one)

structure PairState where
  source : PairingRun
  target : PairingRun
deriving DecidableEq

inductive PairMove where
  | source (m : PairingMove)
  | target (m : PairingMove)
deriving DecidableEq

def PairMove.move : PairMove → PairingMove
  | .source m => m
  | .target m => m

namespace PairState

variable (p : PairState)

def step (env : PairingEnv) : PairMove → PairState
  | .source m => { p with source := p.source.step env m }
  | .target m => { p with target := p.target.step env m }

/-- One of the two sealed this for the other. -/
def wrote (message : PairingMessage) : Bool :=
  p.source.sent.contains ⟨p.target.session.keys.publicKey, message⟩ ||
    p.target.sent.contains ⟨p.source.session.keys.publicKey, message⟩

/-- The network delivers what it likes, but has no ciphertext between the two
keys that neither of them sealed. -/
def unforged (m : PairMove) : Bool :=
  match m.move.call.event?.bind (·.content.cipher) with
  | none => true
  | some cipher =>
      !cipher.between p.source.session.keys.publicKey p.target.session.keys.publicKey ||
        cipher.message.all p.wrote

end PairState

/-- Both sessions from their first calls on, each at its own clock. -/
def pairingOfBoth (env : PairingEnv) (source target : PairingRun) : Machine PairState PairMove :=
  ⟨⟨source, target⟩, fun p => p.step env⟩

end Buzz.Pairing
