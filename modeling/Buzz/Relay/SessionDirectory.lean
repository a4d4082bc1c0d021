import Buzz.Core.Text
import Buzz.Lib.HashMap
import Buzz.Lib.Machine

/-!
# The fenced session directory

A session of the relay mesh has one owner at a time, and Redis says who. Two
keys belong to a session: the lease, which expires, and the generation
counter, which does not. Every change is one Lua script, so it happens at one
moment; everything around it is not. The answer may get lost, the caller may
have given up before the script runs, and an acquisition whose write fence
lapsed in the meantime discards the lease it has just minted.

A lease travels as text, `owner|generation|profile`, written by Lua and read
back by Lua patterns in one place and by Rust in another.
-/

namespace Buzz.Relay

open Buzz.Lib

/-! ## Redis -/

structure RedisValue where
  text : String
  /-- The last millisecond the key is there; `none` without a TTL. -/
  expireAt : Option Nat
deriving DecidableEq

/-- The keys of a Redis server and its clock, in milliseconds. -/
structure Redis where
  now : Nat
  keys : HMap String RedisValue

namespace Redis

variable (r : Redis)

def isLive (v : RedisValue) : Bool :=
  match v.expireAt with
  | none => true
  | some t => r.now ≤ t

/-- `GET`: an expired key is not there. -/
def get (key : String) : Option String :=
  ((r.keys.lookup key).filter r.isLive).map (·.text)

/-- `INCR`, with the new value. It fails on a text that is no number and at
the end of the 64-bit range. -/
def incr (key : String) : Option (Redis × Int) :=
  match (r.keys.lookup key).filter r.isLive with
  | none => some ({ r with keys := r.keys.insert key ⟨toString (1 : Int), none⟩ }, 1)
  | some v =>
      match string2ll v.text.toList with
      | none => none
      | some n =>
          if i64Max ≤ n then none
          else
            some ({ r with keys := r.keys.insert key { v with text := toString (n + 1) } }, n + 1)

/-- `SET … PX`. An expiry past the end of the clock is an error. -/
def setPx (key text : String) (ttlMs : Nat) : Option Redis :=
  if r.now + ttlMs < 2 ^ 63 then
    some { r with keys := r.keys.insert key ⟨text, some (r.now + ttlMs)⟩ }
  else none

/-- `PEXPIRE`, on a key that is there. -/
def pexpire (key : String) (ttlMs : Nat) : Option Redis :=
  match r.keys.lookup key with
  | none => some r
  | some v =>
      if r.now + ttlMs < 2 ^ 63 then
        some { r with keys := r.keys.insert key { v with expireAt := some (r.now + ttlMs) } }
      else none

def del (key : String) : Redis := { r with keys := r.keys.erase key }

end Redis

/-! ## What Lua does with a lease -/

/-- The digits of `n` rounded to fourteen places, and the exponent of ten of
the first one. Ties go to the even digit. -/
def roundTo14 (n : Nat) : Nat × Nat :=
  let exponent := (Nat.toDigits 10 n).length - 1
  let unit := 10 ^ (exponent - 13)
  let kept := n / unit
  let rest := n % unit
  let kept := if unit < 2 * rest ∨ (2 * rest = unit ∧ kept % 2 = 1) then kept + 1 else kept
  if kept = 10 ^ 14 then (10 ^ 13, exponent + 1) else (kept, exponent)

/-- C's `%.14g` of a whole number: plain digits as long as fourteen places
hold them, and a power of ten after that. -/
def formatG14 (n : Nat) : String :=
  if n < 10 ^ 14 then toString n
  else
    let (kept, exponent) := roundTo14 n
    let digits := ((Nat.toDigits 10 kept).reverse.dropWhile (· = '0')).reverse
    let mantissa := digits.take 1 ++ (if digits.length = 1 then [] else '.' :: digits.drop 1)
    String.ofList mantissa ++ "e+" ++ toString exponent

/-- Lua's `tostring` of a number that came from Redis. -/
def luaTostring (n : Int) : String :=
  if n < 0 then "-" ++ formatG14 n.natAbs else formatG14 n.natAbs

/-- `string.match(current, '^([^|]+)|([^|]+)|([^|]+)$')`. -/
def matchLease (current : String) : Option (String × String × String) :=
  match current.toList.splitOn '|' with
  | [owner, generation, profile] =>
      if owner ≠ [] ∧ generation ≠ [] ∧ profile ≠ [] then
        some (String.ofList owner, String.ofList generation, String.ofList profile)
      else none
  | _ => none

/-! ## Leases -/

abbrev RuntimeId := Bytes32

inductive Profile where
  | reliableStream
  | realtimeMedia
  | huddleControl
deriving DecidableEq

def Profile.asWireStr : Profile → String
  | reliableStream => "reliable-stream"
  | realtimeMedia => "realtime-media"
  | huddleControl => "huddle-control"

def profileFromWire : String → Option Profile
  | "reliable-stream" => some .reliableStream
  | "realtime-media" => some .realtimeMedia
  | "huddle-control" => some .huddleControl
  | _ => none

structure SessionLease where
  communityId : CommunityId
  sessionId : Uuid
  ownerRuntimeId : RuntimeId
  generation : Nat
  profile : Profile
deriving DecidableEq

structure FencedHeader where
  sessionId : Uuid
  generation : Nat
  ownerRuntimeId : RuntimeId
deriving DecidableEq

structure SessionKeys where
  lease : String
  generation : String

variable (communityId : CommunityId)

def SessionKeys.new (sessionId : Uuid) : SessionKeys :=
  let base := "buzz:" ++ communityId.uuid.toText ++ ":tunnel:" ++ sessionId.toText
  { lease := base ++ ":lease", generation := base ++ ":generation" }

inductive DirectoryError where
  | redis
  | pool
  | malformedLease (communityId : CommunityId) (sessionId : Uuid) (value : String)
  | malformedGeneration (communityId : CommunityId) (sessionId : Uuid) (value : String)
  | unexpectedScriptStatus (status : String)
  | invalidLeaseTtl
  | communityWriteFenced
  /-- An `expect` that found nothing. -/
  | panicked (message : String)
deriving DecidableEq

def parseLease (sessionId : Uuid) (value : String) :
    Except DirectoryError SessionLease :=
  let malformed := DirectoryError.malformedLease communityId sessionId value
  match value.toList.splitOn '|' with
  | ownerHex :: generation :: profile :: rest =>
      match parseU64 generation, profileFromWire (String.ofList profile), hexDecode ownerHex with
      | some generation, some profile, some ownerBytes =>
          if h : generation ≠ 0 ∧ rest = [] ∧ ownerBytes.length = 32 then
            .ok ⟨communityId, sessionId, ⟨ownerBytes, h.2.2⟩, generation, profile⟩
          else .error malformed
      | _, _, _ => .error malformed
  | _ => .error malformed

def parseOptionalLease (sessionId : Uuid) (value : String) :
    Except DirectoryError (Option SessionLease) :=
  if value = "" then .ok none else (parseLease communityId sessionId value).map some

def parseOptionalGeneration (sessionId : Uuid) (value : String) :
    Except DirectoryError (Option Nat) :=
  let malformed := DirectoryError.malformedGeneration communityId sessionId value
  if value = "" then .ok none
  else
    match parseU64 value.toList with
    | some generation => if generation = 0 then .error malformed else .ok (some generation)
    | none => .error malformed

/-! ## The scripts -/

/-- What a script returns: status, lease value, known generation. -/
abbrev Reply := String × String × String

/-- `ACQUIRE_SCRIPT`. A script that fails keeps what it has done so far. -/
def acquireScript (r : Redis) (keys : SessionKeys) (owner profile : String) (ttlMs : Nat) :
    Redis × Option Reply :=
  match r.get keys.lease with
  | some current => (r, some ("exists", current, (r.get keys.generation).getD ""))
  | none =>
      match r.incr keys.generation with
      | none => (r, none)
      | some (r, generation) =>
          let value := owner ++ "|" ++ luaTostring generation ++ "|" ++ profile
          match r.setPx keys.lease value ttlMs with
          | none => (r, none)
          | some r => (r, some ("acquired", value, luaTostring generation))

/-- The test both other scripts make, on a value they have just read. -/
def heldBy (current owner generation : String) : Bool :=
  match matchLease current with
  | some (currentOwner, currentGeneration, _) =>
      currentOwner = owner ∧ currentGeneration = generation
  | none => false

/-- `redis.call('GET', generation_key) or current_generation or ''`. -/
def knownGeneration (r : Redis) (keys : SessionKeys) (current : String) : String :=
  (r.get keys.generation).getD (((matchLease current).map (·.2.1)).getD "")

/-- `RENEW_SCRIPT`. -/
def renewScript (r : Redis) (keys : SessionKeys) (owner generation : String) (ttlMs : Nat) :
    Redis × Option Reply :=
  match r.get keys.lease with
  | none => (r, some ("missing", "", (r.get keys.generation).getD ""))
  | some current =>
      if heldBy current owner generation then
        match r.pexpire keys.lease ttlMs with
        | none => (r, none)
        | some r => (r, some ("renewed", current, knownGeneration r keys current))
      else (r, some ("lost", current, knownGeneration r keys current))

/-- `RELEASE_SCRIPT`. -/
def releaseScript (r : Redis) (keys : SessionKeys) (owner generation : String) :
    Redis × Option Reply :=
  match r.get keys.lease with
  | none => (r, some ("missing", "", (r.get keys.generation).getD ""))
  | some current =>
      if heldBy current owner generation then
        let r := r.del keys.lease
        (r, some ("released", current, knownGeneration r keys current))
      else (r, some ("lost", current, knownGeneration r keys current))

/-- `VALIDATE_SCRIPT`. -/
def validateScript (r : Redis) (keys : SessionKeys) : String × String :=
  ((r.get keys.lease).getD "", (r.get keys.generation).getD "")

/-! ## Reads -/

/-- The live lease, if there is one. -/
def lookupLease (r : Redis) (communityId : CommunityId) (sessionId : Uuid) :
    Except DirectoryError (Option SessionLease) :=
  match r.get (SessionKeys.new communityId sessionId).lease with
  | none => .ok none
  | some value => (parseLease communityId sessionId value).map some

inductive MeshError where
  | transport (error : DirectoryError)
  | staleGeneration (sessionId : Uuid) (frameGeneration knownGeneration : Nat)
  | noActiveLease (sessionId : Uuid) (frameGeneration knownGeneration : Nat)
      (frameOwnerRuntimeId : RuntimeId)
  | futureGeneration (sessionId : Uuid) (frameGeneration knownGeneration : Nat)
  | ownerMismatch (sessionId : Uuid) (generation : Nat)
      (frameOwnerRuntimeId currentOwnerRuntimeId : RuntimeId)
deriving DecidableEq

/-- `validate_fenced_header`, once Redis has answered. -/
def validateFencedHeader (r : Redis) (communityId : CommunityId) (fenced : FencedHeader) :
    Except MeshError Unit :=
  let (leaseValue, known) := validateScript r (SessionKeys.new communityId fenced.sessionId)
  match parseOptionalGeneration communityId fenced.sessionId known,
      parseOptionalLease communityId fenced.sessionId leaseValue with
  | .error e, _ => .error (.transport e)
  | .ok _, .error e => .error (.transport e)
  | .ok known, .ok current =>
      let knownFromCounter := known.getD 0
      let known := max ((current.map (·.generation)).getD knownFromCounter) knownFromCounter
      if 0 < known ∧ fenced.generation < known then
        .error (.staleGeneration fenced.sessionId fenced.generation known)
      else
        match current with
        | none =>
            .error (.noActiveLease fenced.sessionId fenced.generation known
              fenced.ownerRuntimeId)
        | some current =>
            if fenced.generation ≠ current.generation then
              .error (.futureGeneration fenced.sessionId fenced.generation current.generation)
            else if fenced.ownerRuntimeId ≠ current.ownerRuntimeId then
              .error (.ownerMismatch fenced.sessionId fenced.generation fenced.ownerRuntimeId
                current.ownerRuntimeId)
            else .ok ()

/-! ## Calls -/

inductive Operation where
  /-- `acquire` and `takeover`, which are the same. -/
  | acquire (communityId : CommunityId) (sessionId : Uuid) (owner : RuntimeId)
      (profile : Profile)
  | renew (lease : SessionLease)
  | release (lease : SessionLease)
deriving DecidableEq

inductive CallResult where
  | acquired (lease : SessionLease)
  | exists_ (lease : SessionLease)
  | renewed (lease : SessionLease)
  | lost (current : Option SessionLease) (knownGeneration : Option Nat)
  | released (lease : SessionLease)
  | notOwner (current : Option SessionLease) (knownGeneration : Option Nat)
deriving DecidableEq

inductive CallPhase where
  | waiting
  /-- Redis has answered; the answer may still be on its way. -/
  | replied (reply : Reply)
  /-- `discard_unverified`, of a lease this call has minted. -/
  | discarding (lease : SessionLease)
  | returned (result : Except DirectoryError CallResult)
deriving DecidableEq

/-- The script's answer, if anybody still waits for it. -/
def CallPhase.answer : CallPhase → Option Reply → CallPhase
  | waiting, some reply => replied reply
  | waiting, none => returned (.error .redis)
  | phase, _ => phase

structure DirectoryCall where
  operation : Operation
  /-- `lease_ttl.as_millis()` of the directory the call is made on. -/
  ttlMs : Nat
  /-- The script has not run yet. It may still after the caller gave up. -/
  pending : Bool := true
  phase : CallPhase := .waiting
deriving DecidableEq

structure DirectoryState where
  redis : Redis
  calls : List DirectoryCall
  /-- Every generation that was ever counted, with the call it was counted
  for, as the lease that carries it. Nothing reads this. -/
  minted : List (Nat × SessionLease)

/-- `ttl_ms`, where a call makes use of it. -/
def Operation.validTtl : Operation → Nat → Bool
  | release _, _ => true
  | _, ttlMs => 0 < ttlMs ∧ (ttlMs : Int) ≤ i64Max

/-- The script of a call, sent with its arguments as text. -/
def Operation.exec (op : Operation) (ttlMs : Nat) (r : Redis) : Redis × Option Reply :=
  match op with
  | acquire communityId sessionId owner profile =>
      acquireScript r (SessionKeys.new communityId sessionId) owner.toHex profile.asWireStr ttlMs
  | renew lease =>
      renewScript r (SessionKeys.new lease.communityId lease.sessionId)
        lease.ownerRuntimeId.toHex (toString lease.generation) ttlMs
  | release lease =>
      releaseScript r (SessionKeys.new lease.communityId lease.sessionId)
        lease.ownerRuntimeId.toHex (toString lease.generation)

/-- The lease an acquisition counts a generation for, before the script runs. -/
def Operation.mints (op : Operation) (r : Redis) : Option SessionLease :=
  match op with
  | acquire communityId sessionId owner profile =>
      let keys := SessionKeys.new communityId sessionId
      match r.get keys.lease, r.incr keys.generation with
      | none, some (_, generation) =>
          some ⟨communityId, sessionId, owner, generation.toNat, profile⟩
      | _, _ => none
  | _ => none

/-- `acquire`'s last match. -/
def acquireResult (status : String) (lease : SessionLease) : Except DirectoryError CallResult :=
  if status = "acquired" then .ok (.acquired lease)
  else if status = "exists" then .ok (.exists_ lease)
  else .error (.unexpectedScriptStatus status)

/-- `renew`'s last match. -/
def renewResult (lease : SessionLease) (status : String) (current : Option SessionLease)
    (known : String) : Except DirectoryError CallResult :=
  if status = "renewed" then
    match current with
    | some current => .ok (.renewed current)
    | none => .error (.panicked "renewed returns lease")
  else if status = "missing" ∨ status = "lost" then
    (parseOptionalGeneration lease.communityId lease.sessionId known).map (.lost current ·)
  else .error (.unexpectedScriptStatus status)

/-- `release`'s last match. -/
def releaseResult (lease : SessionLease) (status : String) (current : Option SessionLease)
    (known : String) : Except DirectoryError CallResult :=
  if status = "released" then
    match current with
    | some current => .ok (.released current)
    | none => .error (.panicked "released returns lease")
  else if status = "missing" ∨ status = "lost" then
    (parseOptionalGeneration lease.communityId lease.sessionId known).map (.notOwner current ·)
  else .error (.unexpectedScriptStatus status)

/-- What `renew` and `release` make of an answer: it counts for nothing when
the serving write was no longer fenced after the script, nor when its lease
could not be given back. -/
def settleFenced (lease : SessionLease) (value : String) (verified finished : Bool)
    (result : Option SessionLease → Except DirectoryError CallResult) :
    Except DirectoryError CallResult :=
  if ¬verified then .error .communityWriteFenced
  else
    match parseOptionalLease lease.communityId lease.sessionId value with
    | .error e => .error e
    | .ok current => if ¬finished then .error .communityWriteFenced else result current

/-- What a call makes of the answer. -/
def Operation.settle (op : Operation) (reply : Reply) (verified finished : Bool) : CallPhase :=
  let (status, value, known) := reply
  match op with
  | acquire communityId sessionId _ _ =>
      match parseLease communityId sessionId value with
      | .error e => .returned (.error e)
      | .ok lease =>
          if verified then .returned (acquireResult status lease)
          else if status = "acquired" then .discarding lease
          else .returned (.error .communityWriteFenced)
  | renew lease =>
      .returned (settleFenced lease value verified finished
        fun current => renewResult lease status current known)
  | release lease =>
      .returned (settleFenced lease value verified finished
        fun current => releaseResult lease status current known)

inductive DirectoryMove where
  /-- Time passes; leases run out. -/
  | tick (ms : Nat)
  | call (op : Operation) (ttlMs : Nat)
  /-- The call gives up, before its script ran or with the answer lost: the
  community is fenced, no connection, the connection broke, the heartbeat died. -/
  | abandon (i : Nat) (e : DirectoryError)
  /-- Redis runs the script of the call. -/
  | exec (i : Nat)
  | settle (i : Nat) (verified finished : Bool)
  /-- The discard's script, when it reaches Redis. -/
  | discard (i : Nat) (reached : Bool)
deriving DecidableEq

namespace DirectoryState

variable (s : DirectoryState)

def setCall (i : Nat) (c : DirectoryCall) : DirectoryState :=
  { s with calls := s.calls.set i c }

def begin_ (op : Operation) (ttlMs : Nat) : DirectoryState :=
  let c : DirectoryCall :=
    if op.validTtl ttlMs then { operation := op, ttlMs }
    else { operation := op, ttlMs, pending := false, phase := .returned (.error .invalidLeaseTtl) }
  { s with calls := s.calls ++ [c] }

def abandon (i : Nat) (c : DirectoryCall) (e : DirectoryError) :
    DirectoryState :=
  match c.phase with
  | .waiting | .replied _ => s.setCall i { c with phase := .returned (.error e) }
  | _ => s

def exec (i : Nat) (c : DirectoryCall) : DirectoryState :=
  if c.pending then
    let (redis, reply) := c.operation.exec c.ttlMs s.redis
    { s.setCall i { c with pending := false, phase := c.phase.answer reply } with
      redis
      minted := s.minted ++ ((c.operation.mints s.redis).map (i, ·)).toList }
  else s

def settle (i : Nat) (c : DirectoryCall) (verified finished : Bool) :
    DirectoryState :=
  match c.phase with
  | .replied reply => s.setCall i { c with phase := c.operation.settle reply verified finished }
  | _ => s

def discard (i : Nat) (c : DirectoryCall) (reached : Bool) :
    DirectoryState :=
  match c.phase with
  | .discarding lease =>
      let keys := SessionKeys.new lease.communityId lease.sessionId
      let s := s.setCall i { c with phase := .returned (.error .communityWriteFenced) }
      if reached then
        { s with
          redis := (releaseScript s.redis keys lease.ownerRuntimeId.toHex
            (toString lease.generation)).1 }
      else s
  | _ => s

def onCall (i : Nat) (f : DirectoryCall → DirectoryState) :
    DirectoryState :=
  match s.calls[i]? with
  | some c => f c
  | none => s

def step : DirectoryMove → DirectoryState
  | .tick ms => { s with redis := { s.redis with now := s.redis.now + ms } }
  | .call op ttlMs => s.begin_ op ttlMs
  | .abandon i e => s.onCall i fun c => s.abandon i c e
  | .exec i => s.onCall i fun c => s.exec i c
  | .settle i verified finished => s.onCall i fun c => s.settle i c verified finished
  | .discard i reached => s.onCall i fun c => s.discard i c reached

/-- The generations counted for one session, oldest first. -/
def mintedFor (communityId : CommunityId) (sessionId : Uuid) :
    List (Nat × SessionLease) :=
  s.minted.filter fun m => m.2.communityId = communityId ∧ m.2.sessionId = sessionId

end DirectoryState

/-- Everything starts with an empty store and no call. -/
def sessionDirectory (now : Nat) : Machine DirectoryState DirectoryMove where
  init := ⟨⟨now, ∅⟩, [], []⟩
  step := DirectoryState.step

end Buzz.Relay
