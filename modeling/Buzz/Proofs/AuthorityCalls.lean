import Buzz.Gateway.Authority

/-!
# What the authority store's calls do

One lemma for each call of the two stores: when it goes through, and what the tables
are then. The results about whole runs cite these and do not look into the calls again.
-/

namespace Buzz.Gateway

open Buzz.Lib

variable {s s' : PgStore} {m m' : MemoryStore} {n : NewInstallation} {d : Delegation}
  {i : Installation} {now : Int}

theorem ite_error_eq_ok {ε α : Type} {p : Prop} [Decidable p] {e : ε} {a : Except ε α} {b : α} :
    (if p then .error e else a) = .ok b ↔ ¬ p ∧ a = .ok b := by
  by_cases hp : p <;> simp [hp]

theorem any_entries_eq_false {κ ν : Type} [DecidableEq κ] {t : HMap κ ν}
    {p : (_ : κ) × ν → Bool} :
    ¬ t.entries.any p = true ↔ ∀ k v, t.lookup k = some v → p ⟨k, v⟩ = false := by
  rw [Bool.not_eq_true, List.any_eq_false]
  constructor
  · intro h k v hv
    exact Bool.eq_false_iff.2 (h ⟨k, v⟩ (HMap.mem_entries_iff.2 hv))
  · intro h e he
    exact Bool.eq_false_iff.1 (h e.1 e.2 (HMap.mem_entries_iff.1 he))

/-- No installation with the key or the token of the new one is live. -/
theorem none_live {installations : HMap Uuid Installation} :
    (¬ (installations.entries.any fun e => e.2.owns n && e.2.live now) = true) ↔
      ∀ id i, installations.lookup id = some i → i.owns n = true → i.live now = false := by
  rw [any_entries_eq_false]
  simp only [Bool.and_eq_false_imp]

theorem any_lookup_eq_false {ν : Type} {o : Option ν} {p : ν → Bool} :
    ¬ o.any p = true ↔ ∀ v, o = some v → p v = false := by
  cases o with
  | none => simp
  | some v => simp

theorem bindTimes_singleton {secs : Int} :
    bindTimes [secs] = none ↔ (fromTimestamp secs).isSome ∧ minTimestamptz ≤ secs := by
  unfold bindTimes
  cases h : fromTimestamp secs with
  | none => simp [h]
  | some t => simp [h]

/-- What no longer stands in the way of a new installation is gone. -/
theorem Installation.revoked_or_replaced (h : i.owns n = true) (hdead : i.live now = false)
    (hrevoked : i.revoked = false) : i.replacedBy n now = true := by
  unfold Installation.live at hdead
  unfold Installation.replacedBy
  rw [hrevoked, Bool.not_false, Bool.true_and, decide_eq_false_iff_not] at hdead
  rw [h, Bool.true_and, decide_eq_true_eq]
  exact Int.not_le.1 hdead

/-! ## Enrolment -/

namespace PgStore

/-- The tables when a new installation has taken its place. -/
def enrolled (s : PgStore) (n : NewInstallation) (now : Int) : PgStore :=
  { s with
    installations := (s.installations.retain fun _ i => !i.replacedBy n now).insert n.id n.row
    delegations := s.delegations.retain fun key _ =>
      !(s.installations.lookup key.1).any (·.replacedBy n now) }

theorem lookup_enrolled_installations {id : Uuid} (hne : id ≠ n.id) :
    (s.enrolled n now).installations.lookup id =
      (s.installations.lookup id).filter (!·.replacedBy n now) := by
  show ((s.installations.retain _).insert n.id n.row).lookup id = _
  rw [HMap.lookup_insert_ite, if_neg hne, HMap.lookup_retain]

theorem lookup_enrolled_delegations {key : Uuid × PublicKey} :
    (s.enrolled n now).delegations.lookup key = (s.delegations.lookup key).filter
      fun _ => !(s.installations.lookup key.1).any (·.replacedBy n now) := by
  show (s.delegations.retain _).lookup key = _
  rw [HMap.lookup_retain]

theorem createInstallation_eq_ok :
    s.createInstallation n now = .ok s' ↔
      (fromTimestamp now).isSome ∧
      (∀ id i, s.installations.lookup id = some i → i.owns n = true → i.live now = false) ∧
      bindTimes [n.expiresAt] = none ∧ n.checked = true ∧
      (∀ i, s.installations.lookup n.id = some i → i.replacedBy n now = true) ∧
      s' = s.enrolled n now := by
  unfold createInstallation
  rw [ite_error_eq_ok, ite_error_eq_ok, none_live, Bool.not_eq_true, Option.isNone_eq_false_iff]
  refine and_congr_right fun _ => and_congr_right fun hdead => ?_
  cases hbind : bindTimes [n.expiresAt] with
  | some e => simp
  | none =>
      rw [ite_error_eq_ok, ite_error_eq_ok]
      -- After the deletes no row that is not revoked has the key or the token.
      have hfree : ((s.installations.retain fun _ i => !i.replacedBy n now).entries.any
          fun e => e.2.owns n && !e.2.revoked) = false := by
        rw [← Bool.not_eq_true, any_entries_eq_false]
        intro id i hi
        rw [HMap.lookup_retain, Option.filter_eq_some_iff] at hi
        rw [Bool.and_eq_false_imp]
        intro howns
        cases hrevoked : i.revoked with
        | true => rfl
        | false =>
            have hreplaced := i.revoked_or_replaced howns (hdead id i hi.1 howns) hrevoked
            rw [hreplaced] at hi
            cases hi.2
      have hid : (¬ ((s.installations.retain fun _ i => !i.replacedBy n now).lookup
          n.id).isSome = true) ↔
          ∀ i, s.installations.lookup n.id = some i → i.replacedBy n now = true := by
        rw [HMap.lookup_retain]
        cases s.installations.lookup n.id with
        | none => simp
        | some i => simp
      rw [hfree, Bool.or_false, hid]
      simp only [Bool.not_eq_true', Bool.not_eq_false, true_and, Except.ok.injEq]
      exact and_congr_right fun _ => and_congr_right fun _ => eq_comm

/-! ## The other calls -/

/-- One installation is written over. -/
def updated (s : PgStore) (id : Uuid) (i : Installation) : PgStore :=
  { s with installations := s.installations.insert id i }

theorem advanceAssertionCounter_eq_ok {id : Uuid} {previous next : UInt32} :
    s.advanceAssertionCounter id previous next = .ok s' ↔
      previous < next ∧ ∃ i, s.installations.lookup id = some i ∧
        i.assertionCounter = previous ∧ s' = s.updated id { i with assertionCounter := next } := by
  unfold advanceAssertionCounter
  rw [ite_error_eq_ok, UInt32.not_le]
  refine and_congr_right fun _ => ?_
  cases s.installations.lookup id with
  | none => simp
  | some i =>
      rw [ite_error_eq_ok, not_ne_iff, Except.ok.injEq]
      simp only [Option.some.injEq, exists_eq_left']
      exact and_congr_right fun _ => eq_comm

/-- The tables with a delegation renewed. -/
def delegated (s : PgStore) (d : Delegation) (i : Installation) : PgStore :=
  { s with
    delegations := s.delegations.insert d.key { d with revoked := false }
    installations := s.installations.insert d.installationId
      { i with expiresAt := max i.expiresAt d.expiresAt } }

theorem upsertDelegation_eq_ok :
    s.upsertDelegation d = .ok s' ↔
      ∃ i, s.installations.lookup d.installationId = some i ∧ i.revoked = false ∧
        i.endpointEpoch = d.endpointEpoch ∧ bindTimes [d.notBefore, d.expiresAt] = none ∧
        d.checked = true ∧
        (∀ old, s.delegations.lookup d.key = some old → old.generation < d.generation) ∧
        (∀ key old, s.delegations.lookup key = some old → key ≠ d.key → old.id ≠ d.id) ∧
        s' = s.delegated d i := by
  unfold upsertDelegation
  cases s.installations.lookup d.installationId with
  | none => simp
  | some i =>
      rw [ite_error_eq_ok]
      simp only [Option.some.injEq, exists_eq_left']
      cases bindTimes [d.notBefore, d.expiresAt] with
      | some e => simp
      | none =>
          rw [ite_error_eq_ok, ite_error_eq_ok, ite_error_eq_ok, any_lookup_eq_false,
            any_entries_eq_false, Except.ok.injEq, eq_comm (b := s')]
          simp only [Bool.or_eq_true, decide_eq_true_eq, not_or, Bool.not_eq_true,
            not_ne_iff, Bool.not_eq_true', Bool.not_eq_false, decide_eq_false_iff_not,
            Int.not_le, Bool.and_eq_false_imp, true_and, and_assoc]
          rfl

/-- The tables with a new token. -/
def rotated (i : Installation) (new : Int) (ciphertext : List UInt8) (fingerprint : Bytes32) :
    Installation :=
  { i with
    endpointEpoch := new, tokenCiphertext := ciphertext, tokenFingerprint := fingerprint }

theorem rotateEndpoint_eq_ok {id : Uuid} {expected new : Int} {ciphertext : List UInt8}
    {fingerprint : Bytes32} :
    s.rotateEndpoint id expected new ciphertext fingerprint = .ok s' ↔
      nextEpoch expected new = true ∧ ∃ i, s.installations.lookup id = some i ∧
        i.endpointEpoch = expected ∧ i.revoked = false ∧ ciphertext ≠ [] ∧
        ciphertext.length ≤ 2048 ∧
        (∀ id' i', s.installations.lookup id' = some i' → id' ≠ id →
          i'.tokenFingerprint = fingerprint → i'.revoked = true) ∧
        s' = s.updated id (rotated i new ciphertext fingerprint) := by
  have hfree : (s.installations.entries.any fun e =>
        e.1 ≠ id && e.2.tokenFingerprint = fingerprint && !e.2.revoked) = false ↔
      ∀ id' i', s.installations.lookup id' = some i' → id' ≠ id →
        i'.tokenFingerprint = fingerprint → i'.revoked = true := by
    rw [← Bool.not_eq_true, any_entries_eq_false]
    simp only [Bool.and_eq_false_imp, Bool.and_eq_true, decide_eq_true_eq, and_imp,
      Bool.not_eq_false']
  unfold rotateEndpoint
  rw [ite_error_eq_ok]
  cases s.installations.lookup id with
  | none => simp
  | some i =>
      rw [ite_error_eq_ok, ite_error_eq_ok, Except.ok.injEq, eq_comm (b := s')]
      simp only [Bool.or_eq_true, decide_eq_true_eq, not_or, not_ne_iff, Bool.not_eq_true,
        Bool.not_eq_true', Bool.not_eq_false, Nat.not_lt, and_assoc, Option.some.injEq,
        exists_eq_left', hfree]
      rfl

/-- The tables with a delegation taken back; a second time nothing changes. -/
def withoutDelegation (s : PgStore) (key : Uuid × PublicKey) (d : Delegation) : PgStore :=
  if d.revoked then s
  else { s with delegations := s.delegations.insert key { d with revoked := true } }

theorem revokeDelegation_eq_ok {id : Uuid} {relay : PublicKey} {generation : Int} :
    s.revokeDelegation id relay generation = .ok s' ↔
      ∃ d, s.delegations.lookup (id, relay) = some d ∧ d.generation = generation ∧
        s' = s.withoutDelegation (id, relay) d := by
  unfold revokeDelegation withoutDelegation
  cases s.delegations.lookup (id, relay) with
  | none => simp
  | some d =>
      rw [ite_error_eq_ok, not_ne_iff]
      simp only [Option.some.injEq, exists_eq_left']
      refine and_congr_right fun _ => ?_
      cases d.revoked with
      | true => simp [eq_comm]
      | false => simp [eq_comm]

theorem revokeInstallation_eq_ok {id : Uuid} {expected new : Int} :
    s.revokeInstallation id expected new = .ok s' ↔
      nextEpoch expected new = true ∧ ∃ i, s.installations.lookup id = some i ∧
        ((i.revoked = true ∧ i.endpointEpoch = new ∧ s' = s) ∨
          (i.revoked = false ∧ i.endpointEpoch = expected ∧
            s' = s.updated id { i with endpointEpoch := new, revoked := true })) := by
  unfold revokeInstallation
  rw [ite_error_eq_ok, Bool.not_eq_true', Bool.not_eq_false]
  refine and_congr_right fun _ => ?_
  cases s.installations.lookup id with
  | none => simp
  | some i =>
      simp only [Option.some.injEq, exists_eq_left']
      cases hrevoked : i.revoked with
      | true =>
          by_cases hepoch : i.endpointEpoch = new
          · simp [hepoch, eq_comm]
          · simp [hepoch]
      | false =>
          by_cases hepoch : i.endpointEpoch = expected
          · simp [hepoch, updated, eq_comm]
          · simp [hepoch]

end PgStore

/-! ## Deliveries -/

/-- The delegation and the installation are live, in time, and at the granted epoch and
generation. -/
structure Grants (i : Installation) (d : Delegation) (r : DeliveryRequest) (now : Int) : Prop where
  installation_live : i.revoked = false
  installation_time : now ≤ i.expiresAt
  installation_epoch : i.endpointEpoch = r.epoch
  delegation_live : d.revoked = false
  delegation_time : d.notBefore ≤ now ∧ now ≤ d.expiresAt
  delegation_epoch : d.endpointEpoch = r.epoch
  generation : d.generation = r.generation
  relay : d.relayPubkey = r.relay
  request_time : now ≤ r.requestExpiresAt ∧ r.requestExpiresAt ≤ d.expiresAt

namespace PgStore

variable {cfg : GatewayConfig} {r : DeliveryRequest} {permit : DeliveryPermit}

theorem delegationById_eq_some {id : Uuid} (h : s.delegationById id = some (i, d)) :
    ∃ key, s.delegations.lookup key = some d ∧ d.id = id ∧
      s.installations.lookup d.installationId = some i := by
  obtain ⟨e, he, hi⟩ := Option.bind_eq_some_iff.1 h
  obtain ⟨i', hi', heq⟩ := Option.map_eq_some_iff.1 hi
  cases heq
  have hid := List.find?_some he
  exact ⟨e.1, HMap.mem_entries_iff.1 (List.mem_of_find?_eq_some he), of_decide_eq_true hid, hi'⟩

/-- The tables with a delivery admitted. -/
def withDelivery (s : PgStore) (r : DeliveryRequest) (i : Installation) (quota : QuotaRow) :
    PgStore :=
  { s with
    endpointQuotas := s.endpointQuotas.insert i.tokenFingerprint quota
    deliveryAuthReplays := s.deliveryAuthReplays.insert (r.relay, r.eventId) r.requestExpiresAt
    deliveryRequestReplays :=
      s.deliveryRequestReplays.insert (r.relay, r.requestId) r.requestExpiresAt }

theorem authorizeDelivery_eq_ok :
    s.authorizeDelivery cfg r now = .ok (s', permit) ↔
      ∃ i d quota, s.delegationById r.delegationId = some (i, d) ∧ bindTimes [now] = none ∧
        Grants i d r now ∧
        cfg.takeQuota (s.endpointQuotas.lookup i.tokenFingerprint) now = some quota ∧
        s.deliveryAuthReplays.lookup (r.relay, r.eventId) = none ∧
        s.deliveryRequestReplays.lookup (r.relay, r.requestId) = none ∧
        s' = s.withDelivery r i quota ∧ permit = r.permit d.installationId i d := by
  unfold authorizeDelivery
  cases s.delegationById r.delegationId with
  | none => simp
  | some found =>
      obtain ⟨i, d⟩ := found
      cases bindTimes [now] with
      | some e => simp
      | none =>
          rw [ite_error_eq_ok, ite_error_eq_ok, ite_error_eq_ok]
          have hgrants : Grants i d r now ↔
              ¬ (i.revoked || i.endpointEpoch ≠ r.epoch || i.expiresAt < now) = true ∧
              ¬ (d.relayPubkey ≠ r.relay || d.endpointEpoch ≠ r.epoch ||
                d.generation ≠ r.generation || d.revoked || now < d.notBefore ||
                d.expiresAt < now) = true ∧
              ¬ (r.requestExpiresAt < now || d.expiresAt < r.requestExpiresAt) = true := by
            simp only [Bool.or_eq_true, decide_eq_true_eq, not_or, not_ne_iff, Bool.not_eq_true,
              Int.not_lt]
            constructor
            · intro h
              exact ⟨⟨⟨h.installation_live, h.installation_epoch⟩, h.installation_time⟩,
                ⟨⟨⟨⟨⟨h.relay, h.delegation_epoch⟩, h.generation⟩, h.delegation_live⟩,
                  h.delegation_time.1⟩, h.delegation_time.2⟩, h.request_time⟩
            · rintro ⟨⟨⟨h₁, h₂⟩, h₃⟩, ⟨⟨⟨⟨⟨h₄, h₅⟩, h₆⟩, h₇⟩, h₈⟩, h₉⟩, h₁₀⟩
              exact ⟨h₁, h₃, h₂, h₇, ⟨h₈, h₉⟩, h₅, h₆, h₄, h₁₀⟩
          rw [← and_assoc, ← and_assoc, and_assoc (a := ¬ _), ← hgrants]
          cases hquota : cfg.takeQuota (s.endpointQuotas.lookup i.tokenFingerprint) now with
          | none =>
              constructor
              · rintro ⟨-, h⟩
                cases h
              · rintro ⟨_, _, _, hfound, -, -, hsome, -⟩
                cases hfound
                rw [hquota] at hsome
                cases hsome
          | some quota =>
              rw [ite_error_eq_ok, Except.ok.injEq, Prod.mk.injEq, eq_comm (b := s'),
                eq_comm (b := permit)]
              simp only [Bool.or_eq_true, not_or, Bool.not_eq_true, Option.isSome_eq_false_iff,
                Option.isNone_iff_eq_none, Option.some.injEq, Prod.mk.injEq, true_and, and_assoc]
              constructor
              · rintro ⟨hlive, hreplays⟩
                exact ⟨i, d, quota, rfl, rfl, hlive, hquota, hreplays⟩
              · rintro ⟨_, _, _, rfl, rfl, hlive, hsome, hreplays⟩
                rw [hquota] at hsome
                cases hsome
                exact ⟨hlive, hreplays⟩

/-- The tables after a sweep. -/
def reaped (s : PgStore) (now : Int) : PgStore :=
  { deliveryAuthReplays := s.deliveryAuthReplays.retain fun _ expiresAt => now ≤ expiresAt
    deliveryRequestReplays := s.deliveryRequestReplays.retain fun _ expiresAt => now ≤ expiresAt
    endpointQuotas := s.endpointQuotas.retain fun _ q => now - 86400 ≤ q.updatedAt
    delegations := s.delegations.retain fun key d =>
      !(d.expiresAt < now || (s.installations.lookup key.1).any (·.expiresAt < now))
    installations := s.installations.retain fun _ i => now ≤ i.expiresAt }

theorem lookup_reaped_installations {id : Uuid} :
    (s.reaped now).installations.lookup id = some i ↔
      s.installations.lookup id = some i ∧ now ≤ i.expiresAt := by
  show (s.installations.retain _).lookup id = some i ↔ _
  rw [HMap.lookup_retain, Option.filter_eq_some_iff, decide_eq_true_eq]

theorem lookup_reaped_delegations {key : Uuid × PublicKey} :
    (s.reaped now).delegations.lookup key = some d ↔
      s.delegations.lookup key = some d ∧ now ≤ d.expiresAt ∧
        ∀ i, s.installations.lookup key.1 = some i → now ≤ i.expiresAt := by
  show (s.delegations.retain _).lookup key = some d ↔ _
  rw [HMap.lookup_retain, Option.filter_eq_some_iff, Bool.not_eq_true', Bool.or_eq_false_iff,
    decide_eq_false_iff_not, Int.not_lt, ← Bool.not_eq_true, any_lookup_eq_false]
  simp only [decide_eq_false_iff_not, Int.not_lt]

theorem reapExpired_eq_ok : s.reapExpired now = .ok s' ↔ bindTimes [now] = none ∧
    s' = s.reaped now := by
  unfold reapExpired
  cases bindTimes [now] with
  | some e => simp
  | none => simp [reaped, eq_comm]

end PgStore

/-! ## Memory -/

namespace MemoryStore

variable {cfg : GatewayConfig} {r : DeliveryRequest} {permit : DeliveryPermit}

/-- The maps when a new installation has taken its place. -/
def enrolled (m : MemoryStore) (n : NewInstallation) (now : Int) : MemoryStore :=
  let m' := m.replace fun _ i => i.replacedBy n now
  { m' with
    tokenOwners := m'.tokenOwners.insert n.tokenFingerprint n.id
    installations := m'.installations.insert n.id n.row }

theorem createInstallation_eq_ok :
    m.createInstallation n now = .ok m' ↔
      m.installations.lookup n.id = none ∧
      (∀ id i, m.installations.lookup id = some i → i.owns n = true → i.live now = false) ∧
      m' = m.enrolled n now := by
  unfold createInstallation
  rw [ite_error_eq_ok, ite_error_eq_ok, none_live, Bool.not_eq_true, Option.isSome_eq_false_iff,
    Option.isNone_iff_eq_none, Except.ok.injEq, eq_comm (b := m')]
  rfl

theorem lookup_enrolled_installations {id : Uuid} (hne : id ≠ n.id) :
    (m.enrolled n now).installations.lookup id =
      (m.installations.lookup id).filter (!·.replacedBy n now) := by
  show ((m.installations.retain _).insert n.id n.row).lookup id = _
  rw [HMap.lookup_insert_ite, if_neg hne, HMap.lookup_retain]

theorem lookup_enrolled_delegations {key : Uuid × PublicKey} :
    (m.enrolled n now).delegations.lookup key = (m.delegations.lookup key).filter
      fun _ => !(m.installations.lookup key.1).any (·.replacedBy n now) :=
  HMap.lookup_retain m.delegations _ key

theorem lookup_enrolled_ids {id : Uuid} :
    (m.enrolled n now).delegationIds.lookup id = (m.delegationIds.lookup id).filter
      fun key => !(m.installations.lookup key.1).any (·.replacedBy n now) :=
  HMap.lookup_retain m.delegationIds _ id

theorem lookup_enrolled_owners {fingerprint : Bytes32} (hne : fingerprint ≠ n.tokenFingerprint)
    (hkept : ∀ id i, m.installations.lookup id = some i → i.replacedBy n now = true →
      i.tokenFingerprint ≠ fingerprint) :
    (m.enrolled n now).tokenOwners.lookup fingerprint = m.tokenOwners.lookup fingerprint := by
  show ((m.tokenOwners.retain _).insert n.tokenFingerprint n.id).lookup fingerprint = _
  rw [HMap.lookup_insert_ite, if_neg hne]
  refine HMap.lookup_retain_of_true _ fun _ => ?_
  rw [Bool.not_eq_true', ← Bool.not_eq_true, any_entries_eq_false]
  intro id i hi
  rw [Bool.and_eq_false_imp]
  exact fun hreplaced => decide_eq_false (hkept id i hi hreplaced)

/-- One installation is written over. -/
def updated (m : MemoryStore) (id : Uuid) (i : Installation) : MemoryStore :=
  { m with installations := m.installations.insert id i }

theorem advanceAssertionCounter_eq_ok {id : Uuid} {previous next : UInt32} :
    m.advanceAssertionCounter id previous next = .ok m' ↔
      previous < next ∧ ∃ i, m.installations.lookup id = some i ∧
        i.assertionCounter = previous ∧ m' = m.updated id { i with assertionCounter := next } := by
  unfold advanceAssertionCounter
  rw [ite_error_eq_ok, UInt32.not_le]
  refine and_congr_right fun _ => ?_
  cases m.installations.lookup id with
  | none => simp
  | some i =>
      rw [ite_error_eq_ok, not_ne_iff, Except.ok.injEq]
      simp only [Option.some.injEq, exists_eq_left']
      exact and_congr_right fun _ => eq_comm

/-- The maps with a delegation renewed. -/
def delegated (m : MemoryStore) (d : Delegation) (i : Installation) : MemoryStore :=
  { m with
    installations := m.installations.insert d.installationId
      { i with expiresAt := max i.expiresAt d.expiresAt }
    delegationIds := m.delegationIds.insert d.id d.key
    delegations := m.delegations.insert d.key d }

theorem upsertDelegation_eq_ok :
    m.upsertDelegation d = .ok m' ↔
      ∃ i, m.installations.lookup d.installationId = some i ∧ i.revoked = false ∧
        i.endpointEpoch = d.endpointEpoch ∧ 1 ≤ d.generation ∧ d.notBefore < d.expiresAt ∧
        (∀ old, m.delegations.lookup d.key = some old → old.generation < d.generation) ∧
        m.delegationIds.lookup d.id = none ∧ m' = m.delegated d i := by
  have hgeneration : (m.delegations.lookup d.key).any (d.generation ≤ ·.generation) = false ↔
      ∀ old, m.delegations.lookup d.key = some old → old.generation < d.generation := by
    rw [← Bool.not_eq_true, any_lookup_eq_false]
    simp only [decide_eq_false_iff_not, Int.not_le]
  unfold upsertDelegation
  cases m.installations.lookup d.installationId with
  | none => simp
  | some i =>
      rw [ite_error_eq_ok, ite_error_eq_ok, Except.ok.injEq, eq_comm (b := m')]
      simp only [Option.some.injEq, exists_eq_left', Bool.or_eq_true, decide_eq_true_eq, not_or,
        Bool.not_eq_true, not_ne_iff, Int.not_le, Int.not_lt, hgeneration,
        Option.isSome_eq_false_iff, Option.isNone_iff_eq_none, and_assoc]
      rfl

/-- The maps with a new token. -/
def rotated (m : MemoryStore) (id : Uuid) (i : Installation) (new : Int)
    (ciphertext : List UInt8) (fingerprint : Bytes32) : MemoryStore :=
  { m with
    tokenOwners := (m.tokenOwners.erase i.tokenFingerprint).insert fingerprint id
    installations :=
      m.installations.insert id (PgStore.rotated i new ciphertext fingerprint) }

theorem rotateEndpoint_eq_ok {id : Uuid} {expected new : Int} {ciphertext : List UInt8}
    {fingerprint : Bytes32} :
    m.rotateEndpoint id expected new ciphertext fingerprint = .ok m' ↔
      nextEpoch expected new = true ∧ ∃ i, m.installations.lookup id = some i ∧
        i.revoked = false ∧ i.endpointEpoch = expected ∧
        (∀ owner, m.tokenOwners.lookup fingerprint = some owner → owner = id) ∧
        m' = m.rotated id i new ciphertext fingerprint := by
  unfold rotateEndpoint
  rw [ite_error_eq_ok]
  cases m.installations.lookup id with
  | none => simp
  | some i =>
      rw [ite_error_eq_ok, ite_error_eq_ok, any_lookup_eq_false, Except.ok.injEq,
        eq_comm (b := m')]
      simp only [Option.some.injEq, exists_eq_left', Bool.or_eq_true, decide_eq_true_eq, not_or,
        Bool.not_eq_true, not_ne_iff, Bool.not_eq_true', Bool.not_eq_false,
        decide_eq_false_iff_not, and_assoc]
      rfl

/-- The maps with a delegation taken back; a second time nothing changes. -/
def withoutDelegation (m : MemoryStore) (key : Uuid × PublicKey) (d : Delegation) : MemoryStore :=
  if d.revoked then m
  else { m with delegations := m.delegations.insert key { d with revoked := true } }

theorem revokeDelegation_eq_ok {id : Uuid} {relay : PublicKey} {generation : Int} :
    m.revokeDelegation id relay generation = .ok m' ↔
      ∃ d, m.delegations.lookup (id, relay) = some d ∧ d.generation = generation ∧
        m' = m.withoutDelegation (id, relay) d := by
  unfold revokeDelegation withoutDelegation
  cases m.delegations.lookup (id, relay) with
  | none => simp
  | some d =>
      rw [ite_error_eq_ok, not_ne_iff, eq_comm (a := generation)]
      simp only [Option.some.injEq, exists_eq_left']
      refine and_congr_right fun _ => ?_
      cases d.revoked with
      | true => simp [eq_comm]
      | false => simp [eq_comm]

theorem revokeInstallation_eq_ok {id : Uuid} {expected new : Int} :
    m.revokeInstallation id expected new = .ok m' ↔
      nextEpoch expected new = true ∧ ∃ i, m.installations.lookup id = some i ∧
        ((i.revoked = true ∧ i.endpointEpoch = new ∧ m' = m) ∨
          (i.revoked = false ∧ i.endpointEpoch = expected ∧
            m' = m.updated id { i with endpointEpoch := new, revoked := true })) := by
  unfold revokeInstallation
  rw [ite_error_eq_ok, Bool.not_eq_true', Bool.not_eq_false]
  refine and_congr_right fun _ => ?_
  cases m.installations.lookup id with
  | none => simp
  | some i =>
      simp only [Option.some.injEq, exists_eq_left']
      cases hrevoked : i.revoked with
      | true =>
          by_cases hepoch : i.endpointEpoch = new
          · simp [hepoch, eq_comm]
          · simp [hepoch]
      | false =>
          by_cases hepoch : i.endpointEpoch = expected
          · simp [hepoch, updated, eq_comm]
          · simp [hepoch]

/-- The delegation of an id, with its installation. -/
def delegationById (m : MemoryStore) (id : Uuid) : Option (Installation × Delegation) :=
  (m.delegationIds.lookup id).bind fun key =>
    (m.delegations.lookup key).bind fun d =>
      (m.installations.lookup d.installationId).map fun i => (i, d)

/-- What `authorize_delivery` wants before it looks at the quota. -/
structure Allows (m : MemoryStore) (r : DeliveryRequest) (now : Int) (i : Installation)
    (d : Delegation) : Prop where
  found : m.delegationById r.delegationId = some (i, d)
  current : d.id = r.delegationId
  grants : Grants i d r now
  auth : m.deliveryAuthReplays.lookup (r.relay, r.eventId) = none
  request : m.deliveryRequestReplays.lookup (r.relay, r.requestId) = none

theorem grants_iff :
    ¬ (d.revoked || i.revoked || d.id ≠ r.delegationId || d.relayPubkey ≠ r.relay ||
      d.endpointEpoch ≠ r.epoch || d.generation ≠ r.generation || i.endpointEpoch ≠ r.epoch ||
      now < d.notBefore || d.expiresAt < now || i.expiresAt < now || r.requestExpiresAt < now ||
      d.expiresAt < r.requestExpiresAt) = true ↔ d.id = r.delegationId ∧ Grants i d r now := by
  simp only [Bool.or_eq_true, decide_eq_true_eq, not_or, not_ne_iff, Bool.not_eq_true, Int.not_lt]
  constructor
  · rintro ⟨⟨⟨⟨⟨⟨⟨⟨⟨⟨⟨h₁, h₂⟩, h₃⟩, h₄⟩, h₅⟩, h₆⟩, h₇⟩, h₈⟩, h₉⟩, h₁₀⟩, h₁₁⟩, h₁₂⟩
    exact ⟨h₃, h₂, h₁₀, h₇, h₁, ⟨h₈, h₉⟩, h₅, h₆, h₄, ⟨h₁₁, h₁₂⟩⟩
  · rintro ⟨hid, h⟩
    exact ⟨⟨⟨⟨⟨⟨⟨⟨⟨⟨⟨h.delegation_live, h.installation_live⟩, hid⟩, h.relay⟩,
      h.delegation_epoch⟩, h.generation⟩, h.installation_epoch⟩, h.delegation_time.1⟩,
      h.delegation_time.2⟩, h.installation_time⟩, h.request_time.1⟩, h.request_time.2⟩

/-- The maps with a delivery admitted. -/
def withDelivery (m : MemoryStore) (r : DeliveryRequest) (i : Installation) (quota : Int × Int) :
    MemoryStore :=
  { m with
    endpointQuotas := m.endpointQuotas.insert i.tokenFingerprint (quota.1, quota.2 + 1)
    deliveryAuthReplays := m.deliveryAuthReplays.insert (r.relay, r.eventId) r.requestExpiresAt
    deliveryRequestReplays :=
      m.deliveryRequestReplays.insert (r.relay, r.requestId) r.requestExpiresAt }

theorem authorizeDelivery_of_allows (h : m.Allows r now i d) :
    m.authorizeDelivery cfg r now =
      let quota := quotaAt cfg (m.endpointQuotas.lookup i.tokenFingerprint) now
      if cfg.endpointQuotaMaxDeliveries ≤ quota.2 then
        ({ m with endpointQuotas := m.endpointQuotas.insert i.tokenFingerprint quota },
          .error .rejected)
      else (m.withDelivery r i quota, .ok (r.permit i.id i d)) := by
  have hfound : (m.delegationIds.lookup r.delegationId).bind _ = some (i, d) := h.found
  unfold authorizeDelivery
  rw [hfound]
  dsimp only
  rw [if_neg (grants_iff.2 ⟨h.current, h.grants⟩), h.auth, h.request]
  rfl

theorem authorizeDelivery_of_refused (h : ∀ i d, ¬ m.Allows r now i d) :
    m.authorizeDelivery cfg r now = (m, .error .rejected) := by
  unfold authorizeDelivery
  dsimp only
  split
  · rfl
  · next i d hfound =>
      split
      · rfl
      · next hgrants =>
          rw [grants_iff] at hgrants
          split
          · rfl
          · next hreplays =>
              rw [Bool.or_eq_true, not_or, Bool.not_eq_true, Bool.not_eq_true,
                Option.isSome_eq_false_iff, Option.isSome_eq_false_iff,
                Option.isNone_iff_eq_none, Option.isNone_iff_eq_none] at hreplays
              exact absurd ⟨hfound, hgrants.1, hgrants.2, hreplays.1, hreplays.2⟩ (h i d)

end MemoryStore

end Buzz.Gateway
