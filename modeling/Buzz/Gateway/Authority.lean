import Buzz.Core.Text
import Buzz.Lib.HashMap
import Buzz.Lib.Machine

/-!
# The push gateway's authority store

An installation of the app enrols its push token with the gateway and delegates
delivery to relays, one delegation for each relay key. A relay's delivery is
admitted against the delegation and the installation as they are at that moment.
The store is kept twice in the source: `PostgresAuthorityStore`, which production
runs, and `MemoryAuthorityStore`, the reference the tests run. Both are here, call
by call, and a gateway that gives every call to the two of them.

A relay key is the 32 bytes behind the 64 lower-case hex digits the handlers insist
on, an event id those behind `to_hex`. SQL's `now()` is the time of the request. The
challenges have tables of their own and are left out.
-/

namespace Buzz.Gateway

open Buzz.Lib

structure NewInstallation where
  id : Uuid
  appAttestKeyId : List UInt8
  appAttestPublicKey : List UInt8
  assertionCounter : UInt32
  tokenCiphertext : List UInt8
  tokenFingerprint : Bytes32
  endpointEpoch : Int
  expiresAt : Int
deriving DecidableEq

structure Installation where
  id : Uuid
  appAttestKeyId : List UInt8
  appAttestPublicKey : List UInt8
  assertionCounter : UInt32
  tokenCiphertext : List UInt8
  tokenFingerprint : Bytes32
  endpointEpoch : Int
  expiresAt : Int
  revoked : Bool
deriving DecidableEq

structure Delegation where
  id : Uuid
  installationId : Uuid
  relayPubkey : PublicKey
  endpointEpoch : Int
  generation : Int
  notBefore : Int
  expiresAt : Int
  revoked : Bool
deriving DecidableEq

structure DeliveryAuthority where
  delegationId : Uuid
  installationId : Uuid
  relayPubkey : PublicKey
  tokenCiphertext : List UInt8
  endpointEpoch : Int
  generation : Int
  expiresAt : Int
deriving DecidableEq

structure DeliveryPermit where
  authority : DeliveryAuthority
  relayPubkey : PublicKey
  requestId : Uuid
deriving DecidableEq

inductive DeliveryDisposition where
  | terminal
  | retryable
deriving DecidableEq

inductive AuthorityError where
  | rejected
  | conflict
  | unavailable
deriving DecidableEq

/-- The arguments of `authorize_delivery`, but for the quota and the time. -/
structure DeliveryRequest where
  delegationId : Uuid
  relay : PublicKey
  epoch : Int
  generation : Int
  eventId : EventId
  requestId : Uuid
  requestExpiresAt : Int
deriving DecidableEq

/-- The limits of `Config::from_env`. -/
structure GatewayConfig where
  maxGrantLifetimeSeconds : Int
  maxInstallationLifetimeSeconds : Int := 7776000
  endpointQuotaWindowSeconds : Int := 10
  endpointQuotaMaxDeliveries : Int := 10
  grant_bounds : 1 ≤ maxGrantLifetimeSeconds ∧ maxGrantLifetimeSeconds ≤ 31536000
  installation_bounds :
    1 ≤ maxInstallationLifetimeSeconds ∧ maxInstallationLifetimeSeconds ≤ 31536000 := by decide
  window_bounds :
    1 ≤ endpointQuotaWindowSeconds ∧ endpointQuotaWindowSeconds ≤ 86400 := by decide
  deliveries_bounds :
    1 ≤ endpointQuotaMaxDeliveries ∧ endpointQuotaMaxDeliveries ≤ 10000 := by decide

/-- The defaults, with the given lifetime of a grant. -/
def GatewayConfig.ofGrantLifetime (seconds : Int) (h : 1 ≤ seconds ∧ seconds ≤ 31536000) :
    GatewayConfig where
  maxGrantLifetimeSeconds := seconds
  grant_bounds := h

/-- The row of a new installation. -/
def NewInstallation.row (n : NewInstallation) : Installation where
  id := n.id
  appAttestKeyId := n.appAttestKeyId
  appAttestPublicKey := n.appAttestPublicKey
  assertionCounter := n.assertionCounter
  tokenCiphertext := n.tokenCiphertext
  tokenFingerprint := n.tokenFingerprint
  endpointEpoch := n.endpointEpoch
  expiresAt := n.expiresAt
  revoked := false

namespace Installation

/-- An installation that stands in the way of another one. -/
def live (i : Installation) (now : Int) : Bool := !i.revoked && now ≤ i.expiresAt

/-- The same app instance, or the same push token. -/
def owns (i : Installation) (n : NewInstallation) : Bool :=
  i.appAttestKeyId = n.appAttestKeyId || i.tokenFingerprint = n.tokenFingerprint

/-- A row a new installation takes the place of. -/
def replacedBy (i : Installation) (n : NewInstallation) (now : Int) : Bool :=
  i.owns n && i.expiresAt < now

end Installation

namespace Delegation

/-- The table has one row for an installation and a relay. -/
def key (d : Delegation) : Uuid × PublicKey := (d.installationId, d.relayPubkey)

end Delegation

/-- `expected.checked_add(1)` gives the new epoch. -/
def nextEpoch (expected new : Int) : Bool := expected < i64Max && new = expected + 1

/-- What a delivery is admitted with. -/
def DeliveryRequest.authority (r : DeliveryRequest) (installationId : Uuid) (i : Installation)
    (d : Delegation) : DeliveryAuthority where
  delegationId := r.delegationId
  installationId := installationId
  relayPubkey := r.relay
  tokenCiphertext := i.tokenCiphertext
  endpointEpoch := r.epoch
  generation := r.generation
  expiresAt := d.expiresAt

def DeliveryRequest.permit (r : DeliveryRequest) (installationId : Uuid) (i : Installation)
    (d : Delegation) : DeliveryPermit where
  authority := r.authority installationId i d
  relayPubkey := r.relay
  requestId := r.requestId

/-! ## PostgreSQL -/

/-- A row of `push_gateway_endpoint_quotas`. -/
structure QuotaRow where
  windowStartedAt : Int
  admitted : Int
  updatedAt : Int
deriving DecidableEq

/-- The tables. The unique indexes on key and token look at the rows that are not
revoked. -/
structure PgStore where
  installations : HMap Uuid Installation := ∅
  delegations : HMap (Uuid × PublicKey) Delegation := ∅
  endpointQuotas : HMap Bytes32 QuotaRow := ∅
  deliveryAuthReplays : HMap (PublicKey × EventId) Int := ∅
  deliveryRequestReplays : HMap (PublicKey × Uuid) Int := ∅

/-- `at`, and what the server says to the parameters of one statement. -/
def bindTimes (times : List Int) : Option AuthorityError :=
  if times.any fun secs => (fromTimestamp secs).isNone then some .rejected
  else if times.any (· < minTimestamptz) then some .unavailable
  else none

/-- The `CHECK` constraints on an installation. -/
def NewInstallation.checked (n : NewInstallation) : Bool :=
  1 ≤ n.appAttestKeyId.length && n.appAttestKeyId.length ≤ 128 &&
    33 ≤ n.appAttestPublicKey.length && n.appAttestPublicKey.length ≤ 256 &&
    1 ≤ n.tokenCiphertext.length && n.tokenCiphertext.length ≤ 2048 && 0 < n.endpointEpoch

/-- Those on a delegation. -/
def Delegation.checked (d : Delegation) : Bool :=
  0 < d.endpointEpoch && 0 < d.generation && d.notBefore < d.expiresAt

variable (cfg : GatewayConfig)

/-- The upsert of the quota: a new window, or one more delivery in this one. -/
def GatewayConfig.takeQuota (row : Option QuotaRow) (now : Int) :
    Option QuotaRow :=
  match row with
  | none => some ⟨now, 1, now⟩
  | some q =>
      if q.windowStartedAt ≤ now - cfg.endpointQuotaWindowSeconds then some ⟨now, 1, now⟩
      else if q.admitted < cfg.endpointQuotaMaxDeliveries then
        some ⟨q.windowStartedAt, q.admitted + 1, now⟩
      else none

namespace PgStore

variable (s : PgStore)

def createInstallation (n : NewInstallation) (now : Int) :
    Except AuthorityError PgStore :=
  if (fromTimestamp now).isNone then .error .rejected
  else if s.installations.entries.any fun e => e.2.owns n && e.2.live now then .error .conflict
  else
    let expired (id : Uuid) : Bool := (s.installations.lookup id).any (·.replacedBy n now)
    let delegations := s.delegations.retain fun key _ => !expired key.1
    let installations := s.installations.retain fun _ i => !i.replacedBy n now
    match bindTimes [n.expiresAt] with
    | some e => .error e
    | none =>
        if !n.checked then .error .unavailable
        -- `ON CONFLICT DO NOTHING`: the id, or a row that is not revoked.
        else if (installations.lookup n.id).isSome ||
            installations.entries.any fun e => e.2.owns n && !e.2.revoked then .error .conflict
        else .ok { s with installations := installations.insert n.id n.row, delegations }

def advanceAssertionCounter (id : Uuid) (previous next : UInt32) :
    Except AuthorityError PgStore :=
  if next ≤ previous then .error .rejected
  else
    match s.installations.lookup id with
    | none => .error .rejected
    | some i =>
        if i.assertionCounter ≠ previous then .error .rejected
        else .ok { s with
          installations := s.installations.insert id { i with assertionCounter := next } }

def upsertDelegation (d : Delegation) : Except AuthorityError PgStore :=
  match s.installations.lookup d.installationId with
  | none => .error .rejected
  | some i =>
      if i.revoked || i.endpointEpoch ≠ d.endpointEpoch then .error .rejected
      else
        match bindTimes [d.notBefore, d.expiresAt] with
        | some e => .error e
        | none =>
            if !d.checked then .error .unavailable
            -- `WHERE EXCLUDED.generation > push_gateway_delegations.generation`
            else if (s.delegations.lookup d.key).any (d.generation ≤ ·.generation) then
              .error .rejected
            -- The id is the primary key.
            else if s.delegations.entries.any fun e => e.1 ≠ d.key && e.2.id = d.id then
              .error .unavailable
            else .ok { s with
              delegations := s.delegations.insert d.key { d with revoked := false }
              installations := s.installations.insert d.installationId
                { i with expiresAt := max i.expiresAt d.expiresAt } }

def rotateEndpoint (id : Uuid) (expected new : Int) (ciphertext : List UInt8)
    (fingerprint : Bytes32) : Except AuthorityError PgStore :=
  if !nextEpoch expected new then .error .rejected
  else
    match s.installations.lookup id with
    | none => .error .rejected
    | some i =>
        if i.endpointEpoch ≠ expected || i.revoked then .error .rejected
        else if ciphertext = [] || 2048 < ciphertext.length ||
            s.installations.entries.any fun e =>
              e.1 ≠ id && e.2.tokenFingerprint = fingerprint && !e.2.revoked then
          .error .unavailable
        else .ok { s with
          installations := s.installations.insert id
            { i with
              endpointEpoch := new, tokenCiphertext := ciphertext
              tokenFingerprint := fingerprint } }

def revokeDelegation (id : Uuid) (relay : PublicKey) (expectedGeneration : Int) :
    Except AuthorityError PgStore :=
  match s.delegations.lookup (id, relay) with
  | none => .error .rejected
  | some d =>
      if d.generation ≠ expectedGeneration then .error .rejected
      else if d.revoked then .ok s
      else .ok { s with delegations := s.delegations.insert (id, relay) { d with revoked := true } }

def revokeInstallation (id : Uuid) (expected new : Int) :
    Except AuthorityError PgStore :=
  if !nextEpoch expected new then .error .rejected
  else
    match s.installations.lookup id with
    | none => .error .rejected
    | some i =>
        if i.endpointEpoch = expected && !i.revoked then
          .ok { s with
            installations := s.installations.insert id
              { i with endpointEpoch := new, revoked := true } }
        else if i.endpointEpoch = new && i.revoked then .ok s
        else .error .rejected

/-- The row `FOR UPDATE` of a delegation's id, with its installation. -/
def delegationById (id : Uuid) : Option (Installation × Delegation) :=
  (s.delegations.entries.find? fun e => e.2.id = id).bind fun e =>
    (s.installations.lookup e.2.installationId).map fun i => (i, e.2)

def authorizeDelivery (cfg : GatewayConfig) (r : DeliveryRequest) (now : Int) :
    Except AuthorityError (PgStore × DeliveryPermit) :=
  match s.delegationById r.delegationId with
  | none => .error .rejected
  | some (i, d) =>
      match bindTimes [now] with
      | some e => .error e
      | none =>
          if i.revoked || i.endpointEpoch ≠ r.epoch || i.expiresAt < now then .error .rejected
          else if d.relayPubkey ≠ r.relay || d.endpointEpoch ≠ r.epoch ||
              d.generation ≠ r.generation || d.revoked || now < d.notBefore ||
              d.expiresAt < now then .error .rejected
          else if r.requestExpiresAt < now || d.expiresAt < r.requestExpiresAt then
            .error .rejected
          else
            match cfg.takeQuota (s.endpointQuotas.lookup i.tokenFingerprint) now with
            | none => .error .rejected
            | some quota =>
                if (s.deliveryAuthReplays.lookup (r.relay, r.eventId)).isSome ||
                    (s.deliveryRequestReplays.lookup (r.relay, r.requestId)).isSome then
                  .error .rejected
                else .ok ({ s with
                    endpointQuotas := s.endpointQuotas.insert i.tokenFingerprint quota
                    deliveryAuthReplays := s.deliveryAuthReplays.insert (r.relay, r.eventId)
                      r.requestExpiresAt
                    deliveryRequestReplays := s.deliveryRequestReplays.insert
                      (r.relay, r.requestId) r.requestExpiresAt },
                  r.permit d.installationId i d)

def finishDelivery (relay : PublicKey) (requestId : Uuid) :
    DeliveryDisposition → PgStore
  | .terminal => s
  | .retryable =>
      { s with deliveryRequestReplays := s.deliveryRequestReplays.erase (relay, requestId) }

/-- A delegation goes with its own expiry, or with its installation's. -/
def reapExpired (now : Int) : Except AuthorityError PgStore :=
  match bindTimes [now] with
  | some e => .error e
  | none => .ok
      { deliveryAuthReplays := s.deliveryAuthReplays.retain fun _ expiresAt => now ≤ expiresAt
        deliveryRequestReplays :=
          s.deliveryRequestReplays.retain fun _ expiresAt => now ≤ expiresAt
        endpointQuotas := s.endpointQuotas.retain fun _ q => now - 86400 ≤ q.updatedAt
        delegations := s.delegations.retain fun key d =>
          !(d.expiresAt < now || (s.installations.lookup key.1).any (·.expiresAt < now))
        installations := s.installations.retain fun _ i => now ≤ i.expiresAt }

end PgStore

/-! ## Memory -/

structure MemoryStore where
  installations : HMap Uuid Installation := ∅
  tokenOwners : HMap Bytes32 Uuid := ∅
  delegations : HMap (Uuid × PublicKey) Delegation := ∅
  delegationIds : HMap Uuid (Uuid × PublicKey) := ∅
  deliveryAuthReplays : HMap (PublicKey × EventId) Int := ∅
  deliveryRequestReplays : HMap (PublicKey × Uuid) Int := ∅
  endpointQuotas : HMap Bytes32 (Int × Int) := ∅

/-- `i64::saturating_sub`. -/
def saturatingSub (a b : Int) : Int := max (-i64Max - 1) (min i64Max (a - b))

namespace MemoryStore

variable (s : MemoryStore)

/-- The loop over `replaced`: the installations, the tokens they had, and their
delegations. -/
def replace (replaced : Uuid → Installation → Bool) : MemoryStore :=
  let gone (id : Uuid) : Bool := (s.installations.lookup id).any (replaced id)
  { s with
    installations := s.installations.retain fun id i => !replaced id i
    tokenOwners := s.tokenOwners.retain fun fingerprint _ =>
      !s.installations.entries.any fun e => replaced e.1 e.2 && e.2.tokenFingerprint = fingerprint
    delegations := s.delegations.retain fun key _ => !gone key.1
    delegationIds := s.delegationIds.retain fun _ key => !gone key.1 }

def createInstallation (n : NewInstallation) (now : Int) :
    Except AuthorityError MemoryStore :=
  if (s.installations.lookup n.id).isSome then .error .rejected
  else if s.installations.entries.any fun e => e.2.owns n && e.2.live now then .error .conflict
  else
    let s' := s.replace fun _ i => i.replacedBy n now
    .ok { s' with
      tokenOwners := s'.tokenOwners.insert n.tokenFingerprint n.id
      installations := s'.installations.insert n.id n.row }

def advanceAssertionCounter (id : Uuid) (previous next : UInt32) :
    Except AuthorityError MemoryStore :=
  if next ≤ previous then .error .rejected
  else
    match s.installations.lookup id with
    | none => .error .rejected
    | some i =>
        if i.assertionCounter ≠ previous then .error .rejected
        else .ok { s with
          installations := s.installations.insert id { i with assertionCounter := next } }

def upsertDelegation (d : Delegation) : Except AuthorityError MemoryStore :=
  match s.installations.lookup d.installationId with
  | none => .error .rejected
  | some i =>
      if i.revoked || i.endpointEpoch ≠ d.endpointEpoch || d.generation < 1 ||
          d.expiresAt ≤ d.notBefore then .error .rejected
      else if (s.delegations.lookup d.key).any (d.generation ≤ ·.generation) ||
          (s.delegationIds.lookup d.id).isSome then .error .rejected
      else .ok { s with
        installations := s.installations.insert d.installationId
          { i with expiresAt := max i.expiresAt d.expiresAt }
        delegationIds := s.delegationIds.insert d.id d.key
        delegations := s.delegations.insert d.key d }

def rotateEndpoint (id : Uuid) (expected new : Int) (ciphertext : List UInt8)
    (fingerprint : Bytes32) : Except AuthorityError MemoryStore :=
  if !nextEpoch expected new then .error .rejected
  else
    match s.installations.lookup id with
    | none => .error .rejected
    | some i =>
        if i.revoked || i.endpointEpoch ≠ expected then .error .rejected
        else if (s.tokenOwners.lookup fingerprint).any (· ≠ id) then .error .rejected
        else .ok { s with
          tokenOwners := (s.tokenOwners.erase i.tokenFingerprint).insert fingerprint id
          installations := s.installations.insert id
            { i with
              endpointEpoch := new, tokenCiphertext := ciphertext
              tokenFingerprint := fingerprint } }

def revokeDelegation (id : Uuid) (relay : PublicKey) (expectedGeneration : Int) :
    Except AuthorityError MemoryStore :=
  match s.delegations.lookup (id, relay) with
  | none => .error .rejected
  | some old =>
      if expectedGeneration ≠ old.generation then .error .rejected
      else if old.revoked then .ok s
      else .ok { s with
        delegations := s.delegations.insert (id, relay) { old with revoked := true } }

def revokeInstallation (id : Uuid) (expected new : Int) :
    Except AuthorityError MemoryStore :=
  if !nextEpoch expected new then .error .rejected
  else
    match s.installations.lookup id with
    | none => .error .rejected
    | some i =>
        if i.revoked && i.endpointEpoch = new then .ok s
        else if i.revoked || i.endpointEpoch ≠ expected then .error .rejected
        else .ok { s with
          installations := s.installations.insert id
            { i with endpointEpoch := new, revoked := true } }

/-- The entry of the quota, in the window of `now`. -/
def quotaAt (cfg : GatewayConfig) (quota : Option (Int × Int)) (now : Int) : Int × Int :=
  let quota := quota.getD (now, 0)
  if cfg.endpointQuotaWindowSeconds ≤ saturatingSub now quota.1 then (now, 0) else quota

/-- The entry of the quota is there from the first look at it on. -/
def authorizeDelivery (cfg : GatewayConfig) (r : DeliveryRequest) (now : Int) :
    MemoryStore × Except AuthorityError DeliveryPermit :=
  let found := (s.delegationIds.lookup r.delegationId).bind fun key =>
    (s.delegations.lookup key).bind fun d =>
      (s.installations.lookup d.installationId).map fun i => (i, d)
  match found with
  | none => (s, .error .rejected)
  | some (i, d) =>
      if d.revoked || i.revoked || d.id ≠ r.delegationId || d.relayPubkey ≠ r.relay ||
          d.endpointEpoch ≠ r.epoch || d.generation ≠ r.generation ||
          i.endpointEpoch ≠ r.epoch || now < d.notBefore || d.expiresAt < now ||
          i.expiresAt < now || r.requestExpiresAt < now || d.expiresAt < r.requestExpiresAt then
        (s, .error .rejected)
      else if (s.deliveryAuthReplays.lookup (r.relay, r.eventId)).isSome ||
          (s.deliveryRequestReplays.lookup (r.relay, r.requestId)).isSome then
        (s, .error .rejected)
      else
        let quota := quotaAt cfg (s.endpointQuotas.lookup i.tokenFingerprint) now
        if cfg.endpointQuotaMaxDeliveries ≤ quota.2 then
          ({ s with endpointQuotas := s.endpointQuotas.insert i.tokenFingerprint quota },
            .error .rejected)
        else
          ({ s with
              endpointQuotas := s.endpointQuotas.insert i.tokenFingerprint
                (quota.1, quota.2 + 1)
              deliveryAuthReplays := s.deliveryAuthReplays.insert (r.relay, r.eventId)
                r.requestExpiresAt
              deliveryRequestReplays := s.deliveryRequestReplays.insert
                (r.relay, r.requestId) r.requestExpiresAt },
            .ok (r.permit i.id i d))

def finishDelivery (relay : PublicKey) (requestId : Uuid) :
    DeliveryDisposition → MemoryStore
  | .terminal => s
  | .retryable =>
      { s with deliveryRequestReplays := s.deliveryRequestReplays.erase (relay, requestId) }

/-- Installations and delegations stay. -/
def reapExpired (now : Int) : MemoryStore :=
  { s with
    deliveryAuthReplays := s.deliveryAuthReplays.retain fun _ expiresAt => now ≤ expiresAt
    deliveryRequestReplays :=
      s.deliveryRequestReplays.retain fun _ expiresAt => now ≤ expiresAt
    endpointQuotas := s.endpointQuotas.retain fun _ quota => saturatingSub now quota.1 < 86400 }

end MemoryStore

/-! ## Calls -/

inductive AuthorityCall where
  | createInstallation (n : NewInstallation)
  | advanceAssertionCounter (id : Uuid) (previous next : UInt32)
  | upsertDelegation (d : Delegation)
  | rotateEndpoint (id : Uuid) (expected new : Int) (ciphertext : List UInt8)
      (fingerprint : Bytes32)
  | revokeDelegation (id : Uuid) (relay : PublicKey) (expectedGeneration : Int)
  | revokeInstallation (id : Uuid) (expected new : Int)
  | authorizeDelivery (request : DeliveryRequest)
  | finishDelivery (relay : PublicKey) (requestId : Uuid) (disposition : DeliveryDisposition)
  | reapExpired

/-- What a call answers: a permit, if it is an admission. -/
abbrev CallResult := Except AuthorityError (Option DeliveryPermit)

/-- The tables after a transaction: as they were, if it failed. -/
def settle {σ : Type} (s : σ) : Except AuthorityError σ → σ × CallResult
  | .ok s' => (s', .ok none)
  | .error e => (s, .error e)

def PgStore.call (s : PgStore) (cfg : GatewayConfig) (now : Int) :
    AuthorityCall → PgStore × CallResult
  | .createInstallation n => settle s (s.createInstallation n now)
  | .advanceAssertionCounter id previous next =>
      settle s (s.advanceAssertionCounter id previous next)
  | .upsertDelegation d => settle s (s.upsertDelegation d)
  | .rotateEndpoint id expected new ciphertext fingerprint =>
      settle s (s.rotateEndpoint id expected new ciphertext fingerprint)
  | .revokeDelegation id relay expectedGeneration =>
      settle s (s.revokeDelegation id relay expectedGeneration)
  | .revokeInstallation id expected new => settle s (s.revokeInstallation id expected new)
  | .authorizeDelivery request =>
      match s.authorizeDelivery cfg request now with
      | .ok (s', permit) => (s', .ok (some permit))
      | .error e => (s, .error e)
  | .finishDelivery relay requestId disposition =>
      (s.finishDelivery relay requestId disposition, .ok none)
  | .reapExpired => settle s (s.reapExpired now)

def MemoryStore.call (s : MemoryStore) (cfg : GatewayConfig) (now : Int) :
    AuthorityCall → MemoryStore × CallResult
  | .createInstallation n => settle s (s.createInstallation n now)
  | .advanceAssertionCounter id previous next =>
      settle s (s.advanceAssertionCounter id previous next)
  | .upsertDelegation d => settle s (s.upsertDelegation d)
  | .rotateEndpoint id expected new ciphertext fingerprint =>
      settle s (s.rotateEndpoint id expected new ciphertext fingerprint)
  | .revokeDelegation id relay expectedGeneration =>
      settle s (s.revokeDelegation id relay expectedGeneration)
  | .revokeInstallation id expected new => settle s (s.revokeInstallation id expected new)
  | .authorizeDelivery request =>
      match s.authorizeDelivery cfg request now with
      | (s', .ok permit) => (s', .ok (some permit))
      | (s', .error e) => (s', .error e)
  | .finishDelivery relay requestId disposition =>
      (s.finishDelivery relay requestId disposition, .ok none)
  | .reapExpired => (s.reapExpired now, .ok none)

/-! ## The gateway -/

/-- A call that went through in PostgreSQL, with its permit. -/
structure Entry where
  now : Int
  call : AuthorityCall
  permit : Option DeliveryPermit

/-- The two stores, and what the handlers' calls were so far. -/
structure GatewayState where
  pg : PgStore := {}
  memory : MemoryStore := {}
  clock : Int := minTimestamptz
  /-- The ids `Uuid::new_v4` gave out. -/
  ids : List Uuid := []
  log : List Entry := []

structure GatewayMove where
  now : Int
  call : AuthorityCall

def AuthorityCall.newIds : AuthorityCall → List Uuid
  | .createInstallation n => [n.id]
  | .upsertDelegation d => [d.id]
  | _ => []

def GatewayState.step (s : GatewayState) (m : GatewayMove) :
    GatewayState :=
  let (pg, result) := s.pg.call cfg m.now m.call
  { pg
    memory := (s.memory.call cfg m.now m.call).1
    clock := m.now
    ids := m.call.newIds ++ s.ids
    log := s.log ++ (match result with
      | .ok permit => [⟨m.now, m.call, permit⟩]
      | .error _ => []) }

def gatewayMachine : Machine GatewayState GatewayMove where
  init := {}
  step := GatewayState.step cfg

/-- The checks of the handlers. The ids are new, the key, its id and the sealed token
have the lengths `verify_attestation` and `seal` give them. -/
def AuthorityCall.checked (now : Int) : AuthorityCall → Bool
  | .createInstallation n =>
      n.endpointEpoch = 1 && now < n.expiresAt &&
        n.expiresAt ≤ now + cfg.maxInstallationLifetimeSeconds && n.assertionCounter = 0 &&
        n.appAttestKeyId.length = 32 && n.appAttestPublicKey.length = 65 &&
        1 ≤ n.tokenCiphertext.length && n.tokenCiphertext.length ≤ 2048
  | .advanceAssertionCounter _ _ _ => true
  | .upsertDelegation d =>
      1 ≤ d.endpointEpoch && 1 ≤ d.generation && d.notBefore ≤ now + 300 &&
        d.notBefore < d.expiresAt && d.expiresAt ≤ now + cfg.maxGrantLifetimeSeconds &&
        !d.revoked
  | .rotateEndpoint _ expected new ciphertext _ =>
      1 ≤ expected && new = min i64Max (expected + 1) && 1 ≤ ciphertext.length &&
        ciphertext.length ≤ 2048
  | .revokeDelegation _ _ expectedGeneration => 1 ≤ expectedGeneration
  | .revokeInstallation _ expected new => 1 ≤ expected && new = min i64Max (expected + 1)
  | .authorizeDelivery request =>
      1 ≤ request.epoch && 1 ≤ request.generation && now ≤ request.requestExpiresAt
  | .finishDelivery _ _ _ => true
  | .reapExpired => true

/-- A call as the handlers and the reaper make it: the clock does not go back, and it is
one `chrono` and the server can hold. -/
def Admitted (s : GatewayState) (m : GatewayMove) : Prop :=
  s.clock ≤ m.now ∧ (fromTimestamp m.now).isSome ∧ (∀ id ∈ m.call.newIds, id ∉ s.ids) ∧
    m.call.checked cfg m.now

instance (cfg : GatewayConfig) (s : GatewayState) (m : GatewayMove) :
    Decidable (Admitted cfg s m) :=
  inferInstanceAs (Decidable (_ ∧ _))

end Buzz.Gateway
