import Buzz.Auth.DenyMap
import Buzz.Lib.Machine

/-!
# Disconnect commands of an identity issuer

A command is a signed token that any pod may receive, any number of times. The
pod authenticates it, holds a slot in its own deny map, claims `(iss, jti)` in
a store all pods share, and commits the slot.

What comes out of the token's decoding, the key set and the signature check is
taken as given with each call: either the claims or the error. Everything the
verifier does with the claims is below.

The shared store is a map with expiring keys. `try_claim` sends `SET … NX EX`;
the store carries it out at some moment, and the reply may get lost or find
nobody waiting. A pod's clock is the store's shifted by a constant.
-/

namespace Buzz.Auth

open Buzz.Lib

def nanosPerSec : Int := 1000000000

def seconds (n : Nat) : Int := n * nanosPerSec

/-- The last instant `chrono` can represent. -/
def maxUtc : Int := 8210266876799999999999

def checkedAdd (t : Int) (d : Int) : Option Int :=
  if t + d ≤ maxUtc then some (t + d) else none

/-- The parts of an `IssuerPolicy` a command is checked against, with the
bounds its constructor enforces. -/
structure IssuerPolicy where
  commandAudiences : List String
  skewSeconds : Nat
  maximumAssertionAgeSeconds : Nat
  skew_le : skewSeconds ≤ 300
  age_pos : 0 < maximumAssertionAgeSeconds
  age_le : maximumAssertionAgeSeconds ≤ 86400

structure CommandIssuerPolicy where
  maximumCommandAgeSeconds : Nat
  authorizedPrincipals : List String
  denySetCapacity : Nat
  age_pos : 0 < maximumCommandAgeSeconds
  age_le : maximumCommandAgeSeconds ≤ 60
  capacity_pos : 0 < denySetCapacity

inductive CommandError where
  | evidenceRejected
  | authorizationDenied
  | denySetFull
  | authorizationUnavailable
  | untilExceedsCeiling
deriving DecidableEq

/-- A decoded token, its signature verified. A claim that is missing, empty or
of another type is `none`. -/
structure CommandClaims where
  iss : String
  aud : List String
  iat : Option Int
  exp : Option Int
  method : Option String
  path : Option String
  cmd : Option String
  targetPubkey : Option PublicKey
  deniedUntil : Option Int
  jti : Option String
  sub : Option String

structure AuthenticatedCommand where
  targetPubkey : PublicKey
  issuer : String
  sub : String
  jti : String
  effectiveExpiry : Int
  deniedUntil : Int
  skewSeconds : Nat
deriving DecidableEq

/-- The policies of the issuers that may send commands. -/
abbrev CommandPolicies := HMap String (IssuerPolicy × CommandIssuerPolicy)

/-- The HTTP request around the token. -/
structure CommandRequest where
  method : String
  path : String
  bodyPubkey : PublicKey

def maxJtiBytes : Nat := 512

def require {α : Type} (x : Option α) : Except CommandError α :=
  match x with
  | some a => .ok a
  | none => .error .evidenceRejected

def check (b : Bool) (e : CommandError) : Except CommandError Unit :=
  if b then .ok () else .error e

/-- `authenticate_at`, from the claims on. -/
def authenticateAt (policies : CommandPolicies) (claims : CommandClaims)
    (request : CommandRequest) (now : Int) : Except CommandError AuthenticatedCommand := do
  let (base, command) ← require (policies.lookup claims.iss)
  check (claims.aud.any (base.commandAudiences.contains ·)) .evidenceRejected
  let iat ← require claims.iat
  let exp ← require claims.exp
  let iatPlusAge ← require (checkedAdd iat (seconds command.maximumCommandAgeSeconds))
  check (now < exp) .evidenceRejected
  let nowPlusSkew ← require (checkedAdd now (seconds base.skewSeconds))
  check (iat ≤ nowPlusSkew) .evidenceRejected
  check (now < iatPlusAge) .evidenceRejected
  let method ← require claims.method
  let path ← require claims.path
  let cmd ← require claims.cmd
  check (method = request.method) .evidenceRejected
  check (path = request.path) .evidenceRejected
  check (cmd = "disconnect") .evidenceRejected
  let target ← require claims.targetPubkey
  let deniedUntil ← require claims.deniedUntil
  let ceiling ← require (checkedAdd nowPlusSkew (seconds base.maximumAssertionAgeSeconds))
  check (deniedUntil ≤ ceiling) .untilExceedsCeiling
  let jti ← require claims.jti
  check (jti.utf8ByteSize ≤ maxJtiBytes) .evidenceRejected
  let sub ← require claims.sub
  check (command.authorizedPrincipals.contains sub) .authorizationDenied
  check (target = request.bodyPubkey) .authorizationDenied
  return { targetPubkey := target, issuer := claims.iss, sub, jti
           effectiveExpiry := min exp iatPlusAge, deniedUntil
           skewSeconds := base.skewSeconds }

/-- `claim_ttl_secs`: the rest of the validity, rounded up, plus the skew. -/
def claimTtlSecs (effectiveExpiry now : Int) (skewSeconds : Nat) : Nat :=
  let remaining := effectiveExpiry - now
  let whole := remaining.tdiv nanosPerSec + (if 0 < remaining.tmod nanosPerSec then 1 else 0)
  (max whole 0).toNat + skewSeconds

def defaultReplayTtlSecs : Nat := 120

def maxReplayTtlSecs : Nat := 3600

/-! ## Pods, calls and the store -/

/-- Where a `verify` call stands. -/
inductive CallPhase where
  /-- The slot is held, the claim is asked for. -/
  | awaiting
  | ok
  | failed (e : CommandError)
  /-- The future was dropped. -/
  | dropped
deriving DecidableEq

structure VerifyCall where
  pod : Nat
  cmd : AuthenticatedCommand
  /-- The call's reading of its clock, and when it was taken. -/
  now : Int
  readAt : Int
  phase : CallPhase := .awaiting
  /-- When the store carried out the `SET`, and what it answered. -/
  applied : Option (Int × Bool) := none

structure Pod where
  denyMap : NipFiDenyMap
  /-- The pod's clock minus the store's. -/
  offset : Int
  /-- Ghosts: the times the deny map was given, and the entries committed or
  merged into it. -/
  given : List Int := []
  entered : List (String × PublicKey × Int) := []

structure Cluster where
  time : Int := 0
  pods : List Pod
  /-- Key to the moment it expires. -/
  claims : HMap (String × String) Int := ∅
  calls : List VerifyCall := []

inductive ClusterMove where
  | tick (nanos : Nat)
  /-- A call up to its first await. -/
  | verify (pod : Nat) (evidence : Except CommandError CommandClaims) (request : CommandRequest)
  /-- The store carries out a call's `SET`. -/
  | apply (call : Nat)
  /-- The reply arrives. -/
  | reply (call : Nat)
  /-- The claim ends in an error. -/
  | claimError (call : Nat)
  | drop (call : Nat)
  | merge (pod : Nat) (issuer : String) (key : PublicKey) (deniedUntil now : Int)

namespace Cluster

def setPod (s : Cluster) (i : Nat) (p : Pod) : Cluster := { s with pods := s.pods.set i p }

def setCall (s : Cluster) (i : Nat) (c : VerifyCall) : Cluster :=
  { s with calls := s.calls.set i c }

/-- How far a call comes before it has to wait. -/
inductive Begun where
  | refused (e : CommandError)
  | held (cmd : AuthenticatedCommand)

/-- `verify` up to `try_claim`. -/
def begin (policies : CommandPolicies) (p : Pod) (evidence : Except CommandError CommandClaims)
    (request : CommandRequest) (now : Int) : Pod × Begun :=
  match evidence.bind (authenticateAt policies · request now) with
  | .error e => (p, .refused e)
  | .ok cmd =>
      let (denyMap, e) := p.denyMap.reserve cmd.issuer cmd.jti cmd.targetPubkey now
      let p' := { p with denyMap, given := p.given ++ [now] }
      match e with
      | some .jtiAlreadyReserved => (p', .refused .authorizationDenied)
      | some .capacityExceeded => (p', .refused .denySetFull)
      | none => (p', .held cmd)

/-- `SET key 1 NX EX ttl`. -/
def setNx (s : Cluster) (key : String × String) (ttlSecs : Nat) : Cluster × Bool :=
  if (s.claims.lookup key).any (s.time < ·) then (s, false)
  else ({ s with claims := s.claims.insert key (s.time + seconds ttlSecs) }, true)

/-- The TTL a call asks for, as the guard clamps it. -/
def claimTtl (c : VerifyCall) : Nat :=
  max defaultReplayTtlSecs
    (min (claimTtlSecs c.cmd.effectiveExpiry c.now c.cmd.skewSeconds) maxReplayTtlSecs)

/-- Give a call's slot back. -/
def releaseSlot (s : Cluster) (c : VerifyCall) : Cluster :=
  match s.pods[c.pod]? with
  | none => s
  | some p =>
      s.setPod c.pod
        { p with denyMap := p.denyMap.release c.cmd.issuer c.cmd.jti c.cmd.targetPubkey }

def commitSlot (s : Cluster) (c : VerifyCall) : Cluster :=
  match s.pods[c.pod]? with
  | none => s
  | some p =>
      s.setPod c.pod
        { p with
            denyMap := p.denyMap.commit c.cmd.issuer c.cmd.jti c.cmd.effectiveExpiry
              c.cmd.targetPubkey c.cmd.deniedUntil
            entered := p.entered ++ [(c.cmd.issuer, c.cmd.targetPubkey, c.cmd.deniedUntil)] }

/-- End a waiting call. -/
def finish (s : Cluster) (i : Nat) (c : VerifyCall) (phase : CallPhase) : Cluster :=
  (if phase = .ok then s.commitSlot c else s.releaseSlot c).setCall i { c with phase }

def step (policies : CommandPolicies) (s : Cluster) : ClusterMove → Cluster
  | .tick nanos => { s with time := s.time + nanos }
  | .verify i evidence request =>
      match s.pods[i]? with
      | none => s
      | some p =>
          let now := s.time + p.offset
          match begin policies p evidence request now with
          | (p', .refused _) => s.setPod i p'
          | (p', .held cmd) =>
              let call : VerifyCall := { pod := i, cmd, now, readAt := s.time }
              { s.setPod i p' with calls := s.calls ++ [call] }
  | .apply i =>
      match s.calls[i]? with
      | none => s
      | some c =>
          if c.applied.isSome then s
          else
            let (s', claimed) := s.setNx (c.cmd.issuer, c.cmd.jti) (claimTtl c)
            s'.setCall i { c with applied := some (s.time, claimed) }
  | .reply i =>
      match s.calls[i]? with
      | none => s
      | some c =>
          match c.phase, c.applied with
          | .awaiting, some (_, true) => s.finish i c .ok
          | .awaiting, some (_, false) => s.finish i c (.failed .authorizationDenied)
          | _, _ => s
  | .claimError i =>
      match s.calls[i]? with
      | none => s
      | some c =>
          if c.phase = .awaiting then s.finish i c (.failed .authorizationUnavailable) else s
  | .drop i =>
      match s.calls[i]? with
      | none => s
      | some c => if c.phase = .awaiting then s.finish i c .dropped else s
  | .merge i issuer key deniedUntil now =>
      match s.pods[i]? with
      | none => s
      | some p =>
          let (denyMap, result) := p.denyMap.mergeCrossPodDeny issuer key deniedUntil now
          let entered :=
            if result = .merged then p.entered ++ [(issuer, key, deniedUntil)] else p.entered
          s.setPod i { p with denyMap, entered, given := p.given ++ [now] }

end Cluster

/-- A deployment: its issuers, and the clocks of its pods. -/
structure Deployment where
  policies : CommandPolicies
  offsets : List Int

def defaultDenySetCapacity : Nat := 50000

namespace Deployment

/-- The deny map a pod starts with: a shard for each issuer that may send
commands. -/
def denyMap (d : Deployment) : NipFiDenyMap :=
  let capacities := d.policies.entries.map fun e => (e.1, e.2.2.denySetCapacity)
  .new (capacities.foldl (fun m ic => max m ic.2) defaultDenySetCapacity) capacities

def init (d : Deployment) : Cluster where
  pods := d.offsets.map fun offset => { denyMap := d.denyMap, offset }

def machine (d : Deployment) : Machine Cluster ClusterMove where
  init := d.init
  step := Cluster.step d.policies

end Deployment

end Buzz.Auth
