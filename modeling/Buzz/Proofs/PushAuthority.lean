import Buzz.Proofs.AuthorityCalls

/-!
# Delivery authority is revocable and single-use

The laws are about the calls that went through, in their order. What carries them is
how much of the past the tables still show: the generation an installation and a relay
have reached, that a delegation or an installation was revoked, the newest token, the
event and request ids in use.

The sweep of expired rows takes a delegation with its generation while the installation
stays. A later delegation can be of any generation then. `keepsGenerations` is the
condition that it does not.
-/

namespace Buzz.Gateway

open Buzz.Lib GatewayState PgStore

variable {cfg : GatewayConfig} {s s' : PgStore} {now : Int} {c : AuthorityCall}
  {permit : Option DeliveryPermit}

/-! ## One call -/

/-- Everything a call that goes through can do. -/
inductive PgCall (cfg : GatewayConfig) (s : PgStore) (now : Int) :
    AuthorityCall → Option DeliveryPermit → PgStore → Prop
  | create (n : NewInstallation) :
      PgCall cfg s now (.createInstallation n) none (s.enrolled n now)
  | advance (id : Uuid) (previous next : UInt32) (i : Installation)
      (hi : s.installations.lookup id = some i) :
      PgCall cfg s now (.advanceAssertionCounter id previous next) none
        (s.updated id { i with assertionCounter := next })
  | upsert (d : Delegation) (i : Installation)
      (hi : s.installations.lookup d.installationId = some i)
      (hgeneration : ∀ old, s.delegations.lookup d.key = some old →
        old.generation < d.generation) :
      PgCall cfg s now (.upsertDelegation d) none (s.delegated d i)
  | rotate (id : Uuid) (expected new : Int) (ciphertext : List UInt8) (fingerprint : Bytes32)
      (i : Installation) (hi : s.installations.lookup id = some i) :
      PgCall cfg s now (.rotateEndpoint id expected new ciphertext fingerprint) none
        (s.updated id (rotated i new ciphertext fingerprint))
  | revoke (id : Uuid) (relay : PublicKey) (d : Delegation)
      (hd : s.delegations.lookup (id, relay) = some d) :
      PgCall cfg s now (.revokeDelegation id relay d.generation) none
        { s with delegations := s.delegations.insert (id, relay) { d with revoked := true } }
  | revokeAgain (id : Uuid) (relay : PublicKey) (d : Delegation)
      (hd : s.delegations.lookup (id, relay) = some d) (hrevoked : d.revoked = true) :
      PgCall cfg s now (.revokeDelegation id relay d.generation) none s
  | revokeAll (id : Uuid) (expected new : Int) (i : Installation)
      (hi : s.installations.lookup id = some i) :
      PgCall cfg s now (.revokeInstallation id expected new) none
        (s.updated id { i with endpointEpoch := new, revoked := true })
  | revokeAllAgain (id : Uuid) (expected new : Int) (i : Installation)
      (hi : s.installations.lookup id = some i) (hrevoked : i.revoked = true) :
      PgCall cfg s now (.revokeInstallation id expected new) none s
  | authorize (r : DeliveryRequest) (i : Installation) (d : Delegation) (quota : QuotaRow)
      (hfound : s.delegationById r.delegationId = some (i, d)) (hgrants : Grants i d r now)
      (hauth : s.deliveryAuthReplays.lookup (r.relay, r.eventId) = none)
      (hrequest : s.deliveryRequestReplays.lookup (r.relay, r.requestId) = none) :
      PgCall cfg s now (.authorizeDelivery r) (some (r.permit d.installationId i d))
        (s.withDelivery r i quota)
  | finish (relay : PublicKey) (requestId : Uuid) (disposition : DeliveryDisposition) :
      PgCall cfg s now (.finishDelivery relay requestId disposition) none
        (s.finishDelivery relay requestId disposition)
  | reap : PgCall cfg s now .reapExpired none (s.reaped now)

theorem settle_eq_ok {σ : Type} {s s' : σ} {r : Except AuthorityError σ}
    (h : settle s r = (s', .ok permit)) : r = .ok s' ∧ permit = none := by
  cases r with
  | error e => cases h
  | ok s' =>
      cases h
      exact ⟨rfl, rfl⟩

theorem PgStore.call_cases (h : s.call cfg now c = (s', .ok permit)) :
    PgCall cfg s now c permit s' := by
  cases c with
  | createInstallation n =>
      obtain ⟨hok, rfl⟩ := settle_eq_ok h
      obtain ⟨-, -, -, -, -, rfl⟩ := createInstallation_eq_ok.1 hok
      exact .create n
  | advanceAssertionCounter id previous next =>
      obtain ⟨hok, rfl⟩ := settle_eq_ok h
      obtain ⟨-, i, hi, -, rfl⟩ := advanceAssertionCounter_eq_ok.1 hok
      exact .advance id previous next i hi
  | upsertDelegation d =>
      obtain ⟨hok, rfl⟩ := settle_eq_ok h
      obtain ⟨i, hi, -, -, -, -, hgeneration, -, rfl⟩ := upsertDelegation_eq_ok.1 hok
      exact .upsert d i hi hgeneration
  | rotateEndpoint id expected new ciphertext fingerprint =>
      obtain ⟨hok, rfl⟩ := settle_eq_ok h
      obtain ⟨-, i, hi, -, -, -, -, -, rfl⟩ := rotateEndpoint_eq_ok.1 hok
      exact .rotate id expected new ciphertext fingerprint i hi
  | revokeDelegation id relay generation =>
      obtain ⟨hok, rfl⟩ := settle_eq_ok h
      obtain ⟨d, hd, rfl, rfl⟩ := revokeDelegation_eq_ok.1 hok
      unfold withoutDelegation
      split
      · next hrevoked => exact .revokeAgain id relay d hd hrevoked
      · exact .revoke id relay d hd
  | revokeInstallation id expected new =>
      obtain ⟨hok, rfl⟩ := settle_eq_ok h
      obtain ⟨-, i, hi, ⟨hrevoked, -, rfl⟩ | ⟨-, -, rfl⟩⟩ :=
        revokeInstallation_eq_ok.1 hok
      · exact .revokeAllAgain id expected new i hi hrevoked
      · exact .revokeAll id expected new i hi
  | authorizeDelivery r =>
      unfold call at h
      dsimp only at h
      split at h
      · next s'' p hok =>
          obtain ⟨i, d, quota, hfound, -, hgrants, -, hauth, hrequest, rfl, rfl⟩ :=
            authorizeDelivery_eq_ok.1 hok
          cases h
          exact .authorize r i d quota hfound hgrants hauth hrequest
      · cases h
  | finishDelivery relay requestId disposition =>
      cases h
      exact .finish relay requestId disposition
  | reapExpired =>
      obtain ⟨hok, rfl⟩ := settle_eq_ok h
      obtain ⟨-, rfl⟩ := reapExpired_eq_ok.1 hok
      exact .reap

/-! ## What a call leaves -/

/-- The token a call gives an installation. -/
def AuthorityCall.tokenFor (id : Uuid) : AuthorityCall → Option (List UInt8)
  | .createInstallation n => if n.id = id then some n.tokenCiphertext else none
  | .rotateEndpoint id' _ _ ciphertext _ => if id' = id then some ciphertext else none
  | _ => none

/-- An installation's row, before and after a call. -/
structure InstallationKept (c : AuthorityCall) (i i' : Installation) (id : Uuid) : Prop where
  same : i'.id = i.id
  revoked : i.revoked = true → i'.revoked = true
  token : i'.tokenCiphertext = (c.tokenFor id).getD i.tokenCiphertext

theorem InstallationKept.refl {id : Uuid} (i : Installation) (h : c.tokenFor id = none) :
    InstallationKept c i i id :=
  ⟨rfl, fun hrevoked => hrevoked, by rw [h]; rfl⟩

/-- A delegation's row, before and after: a later generation, or the same one. -/
def Delegation.Passes (d d' : Delegation) : Prop :=
  d.generation < d'.generation ∨
    d'.generation = d.generation ∧ (d.revoked = true → d'.revoked = true)

theorem Delegation.Passes.refl (d : Delegation) : d.Passes d := .inr ⟨rfl, fun h => h⟩

theorem PgStore.lookup_updated {id₀ id : Uuid} {i₀ i₁ i' : Installation}
    (hi : (s.installations.insert id₀ i₁).lookup id = some i')
    (hi₀ : s.installations.lookup id₀ = some i₀) (hkept : InstallationKept c i₀ i₁ id₀)
    (hother : id₀ ≠ id → c.tokenFor id = none) :
    ∃ i, s.installations.lookup id = some i ∧ InstallationKept c i i' id := by
  rcases HMap.lookup_insert_cases hi with ⟨rfl, rfl⟩ | ⟨hne, hold⟩
  · exact ⟨i₀, hi₀, hkept⟩
  · exact ⟨i', hold, .refl i' (hother fun heq => hne heq.symm)⟩

namespace PgCall

section

variable (h : PgCall cfg s now c permit s')
include h

/-- An installation that is there after a call is a new one, or was there before. -/
theorem installations {id : Uuid} {i' : Installation}
    (hi : s'.installations.lookup id = some i') :
    (∃ n, c = .createInstallation n ∧ n.id = id ∧ i' = n.row) ∨
      ∃ i, s.installations.lookup id = some i ∧ InstallationKept c i i' id := by
  cases h with
  | create n =>
      rcases HMap.lookup_insert_cases hi with ⟨rfl, rfl⟩ | ⟨hne, hold⟩
      · exact .inl ⟨n, rfl, rfl, rfl⟩
      · rw [HMap.lookup_retain, Option.filter_eq_some_iff] at hold
        exact .inr ⟨i', hold.1, .refl i' (if_neg fun heq => hne heq.symm)⟩
  | advance id₀ previous next i₀ hi₀ =>
      exact .inr (lookup_updated hi hi₀ ⟨rfl, fun h => h, rfl⟩ fun _ => rfl)
  | upsert d i₀ hi₀ =>
      exact .inr (lookup_updated hi hi₀ ⟨rfl, fun h => h, rfl⟩ fun _ => rfl)
  | rotate id₀ expected new ciphertext fingerprint i₀ hi₀ =>
      have htoken : (AuthorityCall.rotateEndpoint id₀ expected new ciphertext
          fingerprint).tokenFor id₀ = some ciphertext := if_pos rfl
      refine .inr (lookup_updated hi hi₀ ⟨rfl, fun h => h, ?_⟩ fun hne => if_neg hne)
      rw [htoken]
      rfl
  | revokeAll id₀ expected new i₀ hi₀ =>
      exact .inr (lookup_updated hi hi₀ ⟨rfl, fun _ => rfl, rfl⟩ fun _ => rfl)
  | reap =>
      exact .inr ⟨i', (lookup_reaped_installations.1 hi).1, .refl i' rfl⟩
  | finish relay requestId disposition =>
      have hsame : (s.finishDelivery relay requestId disposition).installations =
          s.installations := by
        cases disposition <;> rfl
      rw [hsame] at hi
      exact .inr ⟨i', hi, .refl i' rfl⟩
  | revoke | revokeAgain | revokeAllAgain | authorize => exact .inr ⟨i', hi, .refl i' rfl⟩

/-- A delegation's generation is passed on, unless the installation goes. -/
theorem delegations
    (hfresh : ∀ n, c = .createInstallation n → s.installations.lookup n.id = none)
    (hreap : c = .reapExpired → ∀ key d, s.delegations.lookup key = some d → d.expiresAt < now →
      ∀ i, s.installations.lookup key.1 = some i → i.expiresAt < now)
    {key : Uuid × PublicKey} {d : Delegation}
    (hd : s.delegations.lookup key = some d) :
    s'.installations.lookup key.1 = none ∨
      ∃ d', s'.delegations.lookup key = some d' ∧ d.Passes d' := by
  have hpasses : ∀ {key₀ : Uuid × PublicKey} {d₁ : Delegation},
      (∀ d₀, s.delegations.lookup key₀ = some d₀ → d₀.Passes d₁) →
      ∃ d', (s.delegations.insert key₀ d₁).lookup key = some d' ∧ d.Passes d' := by
    intro key₀ d₁ h₁
    rw [HMap.lookup_insert_ite]
    split
    · next heq => exact ⟨d₁, rfl, h₁ d (heq ▸ hd)⟩
    · exact ⟨d, hd, .refl d⟩
  cases h with
  | create n =>
      rw [lookup_enrolled_delegations, hd, Option.filter_some]
      cases hgone : (s.installations.lookup key.1).any (·.replacedBy n now) with
      | false => exact .inr ⟨d, rfl, .refl d⟩
      | true =>
          left
          obtain ⟨i, hi, hreplaced⟩ := (Option.any_eq_true _ _).1 hgone
          have hne : key.1 ≠ n.id := by
            intro heq
            rw [heq, hfresh n rfl] at hi
            cases hi
          rw [lookup_enrolled_installations hne, hi, Option.filter_some, hreplaced]
          rfl
  | upsert d₀ i₀ hi₀ hgeneration =>
      exact .inr (hpasses fun old hold => .inl (hgeneration old hold))
  | revoke id relay d₀ hd₀ =>
      refine .inr (hpasses fun old hold => ?_)
      rw [hd₀] at hold
      cases hold
      exact .inr ⟨rfl, fun _ => rfl⟩
  | reap =>
      by_cases hgone : ∃ i, (s.reaped now).installations.lookup key.1 = some i
      · obtain ⟨i, hi⟩ := hgone
        obtain ⟨hi, hlive⟩ := lookup_reaped_installations.1 hi
        have htime : now ≤ d.expiresAt := by
          by_contra hexpired
          exact absurd (hreap rfl key d hd (Int.not_le.1 hexpired) i hi) (Int.not_lt.2 hlive)
        refine .inr ⟨d, lookup_reaped_delegations.2 ⟨hd, htime, ?_⟩, .refl d⟩
        intro i' hi'
        rw [hi] at hi'
        cases hi'
        exact hlive
      · exact .inl (Option.eq_none_iff_forall_ne_some.2 fun i hi => hgone ⟨i, hi⟩)
  | finish relay requestId disposition =>
      have hsame : (s.finishDelivery relay requestId disposition).delegations =
          s.delegations := by
        cases disposition <;> rfl
      rw [hsame]
      exact .inr ⟨d, hd, .refl d⟩
  | advance | rotate | revokeAgain | revokeAll | revokeAllAgain | authorize =>
      exact .inr ⟨d, hd, .refl d⟩

/-- A delegation that is there after a call was just made, or was there before. -/
theorem delegation_cases {key : Uuid × PublicKey} {d' : Delegation}
    (hd' : s'.delegations.lookup key = some d') :
    (∃ d i, c = .upsertDelegation d ∧ key = d.key ∧ d'.key = d.key ∧
      s.installations.lookup d.installationId = some i) ∨
    ∃ d, s.delegations.lookup key = some d ∧ d'.key = d.key := by
  cases h with
  | create n =>
      rw [lookup_enrolled_delegations, Option.filter_eq_some_iff] at hd'
      exact .inr ⟨d', hd'.1, rfl⟩
  | upsert d i hi =>
      rcases HMap.lookup_insert_cases hd' with ⟨rfl, rfl⟩ | ⟨-, hold⟩
      · exact .inl ⟨d, i, rfl, rfl, rfl, hi⟩
      · exact .inr ⟨d', hold, rfl⟩
  | revoke id relay d hd =>
      rcases HMap.lookup_insert_cases hd' with ⟨rfl, rfl⟩ | ⟨-, hold⟩
      · exact .inr ⟨d, hd, rfl⟩
      · exact .inr ⟨d', hold, rfl⟩
  | reap => exact .inr ⟨d', (lookup_reaped_delegations.1 hd').1, rfl⟩
  | finish relay requestId disposition =>
      have hsame : (s.finishDelivery relay requestId disposition).delegations =
          s.delegations := by
        cases disposition <;> rfl
      exact .inr ⟨d', hsame ▸ hd', rfl⟩
  | advance | rotate | revokeAgain | revokeAll | revokeAllAgain | authorize =>
      exact .inr ⟨d', hd', rfl⟩

/-- An event id stays in use until its time is over. -/
theorem authReplays {key : PublicKey × EventId} {expiresAt : Int}
    (hkey : s.deliveryAuthReplays.lookup key = some expiresAt) :
    s'.deliveryAuthReplays.lookup key = some expiresAt ∨ expiresAt < now := by
  cases h with
  | authorize r i d quota _ _ hauth =>
      have hne : key ≠ (r.relay, r.eventId) := by
        intro heq
        rw [heq, hauth] at hkey
        cases hkey
      left
      show (s.deliveryAuthReplays.insert _ _).lookup key = _
      rw [HMap.lookup_insert_ite, if_neg hne, hkey]
  | reap =>
      by_cases htime : now ≤ expiresAt
      · left
        show (s.deliveryAuthReplays.retain _).lookup key = _
        rw [HMap.lookup_retain, hkey, Option.filter_some, decide_eq_true htime]
        rfl
      · exact .inr (Int.not_le.1 htime)
  | finish relay requestId disposition => cases disposition <;> exact .inl hkey
  | create | advance | upsert | rotate | revoke | revokeAgain | revokeAll | revokeAllAgain =>
      exact .inl hkey

/-- A request id stays in use until it is given back, or its time is over. -/
theorem requestReplays {key : PublicKey × Uuid} {expiresAt : Int}
    (hkey : s.deliveryRequestReplays.lookup key = some expiresAt) :
    s'.deliveryRequestReplays.lookup key = some expiresAt ∨
      c = .finishDelivery key.1 key.2 .retryable ∨ c = .reapExpired ∧ expiresAt < now := by
  cases h with
  | authorize r i d quota _ _ _ hrequest =>
      have hne : key ≠ (r.relay, r.requestId) := by
        intro heq
        rw [heq, hrequest] at hkey
        cases hkey
      left
      show (s.deliveryRequestReplays.insert _ _).lookup key = _
      rw [HMap.lookup_insert_ite, if_neg hne, hkey]
  | reap =>
      by_cases htime : now ≤ expiresAt
      · left
        show (s.deliveryRequestReplays.retain _).lookup key = _
        rw [HMap.lookup_retain, hkey, Option.filter_some, decide_eq_true htime]
        rfl
      · exact .inr (.inr ⟨rfl, Int.not_le.1 htime⟩)
  | finish relay requestId disposition =>
      cases disposition with
      | terminal => exact .inl hkey
      | retryable =>
          by_cases heq : key = (relay, requestId)
          · rw [heq]
            exact .inr (.inl rfl)
          · left
            show (s.deliveryRequestReplays.erase _).lookup key = _
            rw [HMap.lookup_erase_ite, if_neg heq, hkey]
  | create | advance | upsert | rotate | revoke | revokeAgain | revokeAll | revokeAllAgain =>
      exact .inl hkey

end

end PgCall

/-! ## The state -/

/-- The newest token an installation was given. -/
def newestToken (log : List Entry) (id : Uuid) : Option (List UInt8) :=
  log.reverse.findSome? fun e => e.call.tokenFor id

theorem newestToken_snoc (log : List Entry) (e : Entry) (id : Uuid) :
    newestToken (log ++ [e]) id = (e.call.tokenFor id).or (newestToken log id) := by
  unfold newestToken
  rw [List.reverse_append, List.reverse_singleton, List.singleton_append, List.findSome?_cons]
  cases e.call.tokenFor id <;> rfl

/-- What is known of the delegation of an installation and a relay, while the
installation is there. -/
def PgStore.Marked (s : PgStore) (key : Uuid × PublicKey) (mark : Delegation → Prop) : Prop :=
  s.installations.lookup key.1 = none ∨ ∃ d, s.delegations.lookup key = some d ∧ mark d

/-- The generation was reached. -/
def Delegation.reaches (g : Int) (d : Delegation) : Prop := g ≤ d.generation

/-- The generation was reached, and is not to be used any more. -/
def Delegation.spends (g : Int) (d : Delegation) : Prop :=
  g < d.generation ∨ d.generation = g ∧ d.revoked = true

theorem Delegation.Passes.reaches {g : Int} {d d' : Delegation} (h : d.Passes d')
    (hd : d.reaches g) : d'.reaches g := by
  unfold Delegation.reaches at hd ⊢
  rcases h with h | ⟨h, -⟩ <;> omega

theorem Delegation.Passes.spends {g : Int} {d d' : Delegation} (h : d.Passes d')
    (hd : d.spends g) : d'.spends g := by
  rcases hd with hlt | ⟨rfl, hrevoked⟩
  · refine .inl ?_
    rcases h with h | ⟨h, -⟩ <;> omega
  · rcases h with h | ⟨h, hkept⟩
    · exact .inl h
    · exact .inr ⟨h, hkept hrevoked⟩

/-- The request id may be used again after this. -/
def Entry.releases (e : Entry) (r : DeliveryRequest) : Prop :=
  e.call = .finishDelivery r.relay r.requestId .retryable ∨
    e.call = .reapExpired ∧ r.requestExpiresAt < e.now

/-- The rows bear out the log of accepted calls. -/
structure AuthorityInv (s : GatewayState) : Prop where
  ids : ∀ id i, s.pg.installations.lookup id = some i → id ∈ s.ids
  keys : ∀ key d, s.pg.delegations.lookup key = some d → d.key = key ∧ key.1 ∈ s.ids
  token : ∀ id i, s.pg.installations.lookup id = some i →
    newestToken s.log id = some i.tokenCiphertext
  delegated : ∀ e ∈ s.log, ∀ d, e.call = .upsertDelegation d →
    d.installationId ∈ s.ids ∧ s.pg.Marked d.key (·.reaches d.generation)
  revoked : ∀ e ∈ s.log, ∀ id relay g, e.call = .revokeDelegation id relay g →
    id ∈ s.ids ∧ s.pg.Marked (id, relay) (·.spends g)
  revokedAll : ∀ e ∈ s.log, ∀ id expected new, e.call = .revokeInstallation id expected new →
    id ∈ s.ids ∧ ∀ i, s.pg.installations.lookup id = some i → i.revoked = true
  auths : ∀ e ∈ s.log, ∀ r, e.call = .authorizeDelivery r → r.requestExpiresAt < s.clock ∨
    s.pg.deliveryAuthReplays.lookup (r.relay, r.eventId) = some r.requestExpiresAt
  requests : ∀ pre e post r, s.log = pre ++ e :: post → e.call = .authorizeDelivery r →
    s.pg.deliveryRequestReplays.lookup (r.relay, r.requestId) = some r.requestExpiresAt ∨
      ∃ x ∈ post, x.releases r

/-- A sweep that takes a delegation takes its installation too. -/
def keepsGenerations (s : GatewayState) (m : GatewayMove) : Prop :=
  match m.call with
  | .reapExpired => ∀ e ∈ s.pg.delegations.entries, e.2.expiresAt < m.now →
      ∀ i ∈ s.pg.installations.lookup e.1.1, i.expiresAt < m.now
  | _ => True

theorem PgStore.call_error {e : AuthorityError} (h : s.call cfg now c = (s', .error e)) :
    s' = s := by
  have hsettle : ∀ {r : Except AuthorityError PgStore}, settle s r = (s', .error e) → s' = s := by
    intro r hr
    cases r with
    | ok s'' => cases hr
    | error e' => cases hr; rfl
  cases c with
  | finishDelivery => cases h
  | authorizeDelivery r =>
      unfold call at h
      dsimp only at h
      split at h
      · cases h
      · cases h; rfl
  | createInstallation | advanceAssertionCounter | upsertDelegation | rotateEndpoint
  | revokeDelegation | revokeInstallation | reapExpired => exact hsettle h

instance (s : GatewayState) : DecidablePred (keepsGenerations s) := fun ⟨_, call⟩ =>
  match call with
  | .reapExpired => inferInstanceAs (Decidable (∀ e ∈ s.pg.delegations.entries, _ → _))
  | .createInstallation _ | .advanceAssertionCounter _ _ _ | .upsertDelegation _
  | .rotateEndpoint _ _ _ _ _ | .revokeDelegation _ _ _ | .revokeInstallation _ _ _
  | .authorizeDelivery _ | .finishDelivery _ _ _ => isTrue trivial

/-- A call went through and is in the log, or nothing happened. -/
theorem GatewayState.step_cases (cfg : GatewayConfig) (s : GatewayState) (m : GatewayMove) :
    (∃ permit, PgCall cfg s.pg m.now m.call permit (s.step cfg m).pg ∧
      (s.step cfg m).log = s.log ++ [⟨m.now, m.call, permit⟩]) ∨
    ((s.step cfg m).pg = s.pg ∧ (s.step cfg m).log = s.log) := by
  unfold step
  cases hcall : s.pg.call cfg m.now m.call with
  | mk pg result =>
      cases result with
      | ok permit => exact .inl ⟨permit, call_cases hcall, rfl⟩
      | error e => exact .inr ⟨call_error hcall, List.append_nil _⟩

section Step

variable {g : GatewayState} {m : GatewayMove}

/-- Ids given out stay so, and an installation that is gone stays away. -/
theorem PgCall.stays_gone (h : PgCall cfg g.pg m.now m.call permit (g.step cfg m).pg)
    (hfresh : ∀ id ∈ m.call.newIds, id ∉ g.ids) {id : Uuid} (hid : id ∈ g.ids)
    (hgone : g.pg.installations.lookup id = none) :
    (g.step cfg m).pg.installations.lookup id = none := by
  rw [Option.eq_none_iff_forall_ne_some]
  intro i' hi'
  rcases h.installations hi' with ⟨n, hn, rfl, -⟩ | ⟨i, hi, -⟩
  · refine hfresh n.id ?_ hid
    rw [hn]
    exact List.mem_singleton_self _
  · rw [hgone] at hi
    cases hi

/-- What is known of a delegation stays known. -/
theorem PgStore.Marked.step {key : Uuid × PublicKey} {mark : Delegation → Prop}
    (hmark : g.pg.Marked key mark) (hpasses : ∀ d d', d.Passes d' → mark d → mark d')
    (hid : key.1 ∈ g.ids) (hinv : AuthorityInv g) (hadmitted : Admitted cfg g m)
    (hkeeps : keepsGenerations g m) : (g.step cfg m).pg.Marked key mark := by
  rcases g.step_cases cfg m with ⟨permit, h, -⟩ | ⟨hsame, -⟩
  · rcases hmark with hgone | ⟨d, hd, hdmark⟩
    · exact .inl (h.stays_gone hadmitted.2.2.1 hid hgone)
    · have hfresh : ∀ n, m.call = .createInstallation n →
          g.pg.installations.lookup n.id = none := by
        intro n hn
        rw [Option.eq_none_iff_forall_ne_some]
        intro i hi
        refine hadmitted.2.2.1 n.id ?_ (hinv.ids n.id i hi)
        rw [hn]
        exact List.mem_singleton_self _
      have hreap : m.call = .reapExpired → ∀ key d, g.pg.delegations.lookup key = some d →
          d.expiresAt < m.now → ∀ i, g.pg.installations.lookup key.1 = some i →
          i.expiresAt < m.now := by
        intro hm key d hd hexpired i hi
        unfold keepsGenerations at hkeeps
        rw [hm] at hkeeps
        exact hkeeps ⟨key, d⟩ (HMap.mem_entries_iff.2 hd) hexpired i hi
      rcases h.delegations hfresh hreap hd with hgone | ⟨d', hd', hpass⟩
      · exact .inl hgone
      · exact .inr ⟨d', hd', hpasses d d' hpass hdmark⟩
  · rw [hsame]
    exact hmark

theorem GatewayState.mem_ids {id : Uuid} (h : id ∈ g.ids) : id ∈ (g.step cfg m).ids :=
  List.mem_append_right _ h

/-- An entry of the log is an old one, or the call that went through. -/
theorem GatewayState.mem_log {e : Entry} (he : e ∈ (g.step cfg m).log) :
    e ∈ g.log ∨ (e.call = m.call ∧ PgCall cfg g.pg m.now m.call e.permit (g.step cfg m).pg) := by
  rcases g.step_cases cfg m with ⟨permit, h, hlog⟩ | ⟨-, hlog⟩
  · rw [hlog, List.mem_append, List.mem_singleton] at he
    rcases he with he | rfl
    · exact .inl he
    · exact .inr ⟨rfl, h⟩
  · exact .inl (hlog ▸ he)

namespace AuthorityInv

theorem step_ids (hinv : AuthorityInv g) {id : Uuid} {i : Installation}
    (hi : (g.step cfg m).pg.installations.lookup id = some i) : id ∈ (g.step cfg m).ids := by
  rcases g.step_cases cfg m with ⟨permit, h, -⟩ | ⟨hsame, -⟩
  · rcases h.installations hi with ⟨n, hn, rfl, -⟩ | ⟨i₀, hi₀, -⟩
    · show n.id ∈ m.call.newIds ++ g.ids
      rw [hn]
      exact List.mem_append_left _ (List.mem_singleton_self _)
    · exact mem_ids (hinv.ids id i₀ hi₀)
  · exact mem_ids (hinv.ids id i (hsame ▸ hi))

theorem step_keys (hinv : AuthorityInv g) {key : Uuid × PublicKey} {d : Delegation}
    (hd : (g.step cfg m).pg.delegations.lookup key = some d) :
    d.key = key ∧ key.1 ∈ (g.step cfg m).ids := by
  have hold : ∀ d₀, g.pg.delegations.lookup key = some d₀ → d.key = d₀.key →
      d.key = key ∧ key.1 ∈ (g.step cfg m).ids := by
    intro d₀ hd₀ heq
    obtain ⟨hkey, hid⟩ := hinv.keys key d₀ hd₀
    exact ⟨heq.trans hkey, mem_ids hid⟩
  rcases g.step_cases cfg m with ⟨permit, h, -⟩ | ⟨hsame, -⟩
  · rcases h.delegation_cases hd with ⟨d₀, i, -, rfl, hkey, hi⟩ | ⟨d₀, hd₀, heq⟩
    · exact ⟨hkey, mem_ids (hinv.ids d₀.installationId i hi)⟩
    · exact hold d₀ hd₀ heq
  · exact hold d (hsame ▸ hd) rfl

theorem step_token (hinv : AuthorityInv g) {id : Uuid} {i : Installation}
    (hi : (g.step cfg m).pg.installations.lookup id = some i) :
    newestToken (g.step cfg m).log id = some i.tokenCiphertext := by
  rcases g.step_cases cfg m with ⟨permit, h, hlog⟩ | ⟨hsame, hlog⟩
  · rw [hlog, newestToken_snoc]
    rcases h.installations hi with ⟨n, hn, rfl, rfl⟩ | ⟨i₀, hi₀, hkept⟩
    · have htoken : m.call.tokenFor n.id = some n.tokenCiphertext := by
        rw [hn]
        exact if_pos rfl
      show (m.call.tokenFor n.id).or _ = _
      rw [htoken]
      rfl
    · show (m.call.tokenFor id).or _ = _
      rw [hinv.token id i₀ hi₀, hkept.token]
      cases m.call.tokenFor id <;> rfl
  · rw [hlog]
    exact hinv.token id i (hsame ▸ hi)

variable {e : Entry}

section

variable (hinv : AuthorityInv g)
include hinv

section

variable (hadmitted : Admitted cfg g m)
include hadmitted

theorem step_auths (he : e ∈ (g.step cfg m).log) {r : DeliveryRequest}
    (hr : e.call = .authorizeDelivery r) :
    r.requestExpiresAt < (g.step cfg m).clock ∨
      (g.step cfg m).pg.deliveryAuthReplays.lookup (r.relay, r.eventId) =
        some r.requestExpiresAt := by
  rcases mem_log he with he | ⟨hcall, h⟩
  · rcases hinv.auths e he r hr with htime | hkey
    · exact .inl (Int.lt_of_lt_of_le htime hadmitted.1)
    · rcases g.step_cases cfg m with ⟨permit, h, -⟩ | ⟨hsame, -⟩
      · exact (h.authReplays hkey).symm
      · rw [hsame]
        exact .inr hkey
  · rw [hcall.symm.trans hr] at h
    right
    generalize (g.step cfg m).pg = pg, e.permit = permit at h ⊢
    cases h with
    | authorize r i d quota => exact AList.lookup_insert _

omit hadmitted in
theorem step_requests {pre post : List Entry} {r : DeliveryRequest}
    (hlog : (g.step cfg m).log = pre ++ e :: post)
    (hr : e.call = .authorizeDelivery r) :
    (g.step cfg m).pg.deliveryRequestReplays.lookup (r.relay, r.requestId) =
        some r.requestExpiresAt ∨ ∃ x ∈ post, x.releases r := by
  rcases g.step_cases cfg m with ⟨permit, h, hlog'⟩ | ⟨hsame, hlog'⟩
  · rw [hlog'] at hlog
    rcases List.eq_nil_or_concat post with rfl | ⟨post', x, rfl⟩
    · obtain ⟨-, hx⟩ := List.append_inj' hlog rfl
      cases hx
      rw [show m.call = _ from hr] at h
      left
      generalize (g.step cfg m).pg = pg at h ⊢
      cases h with
      | authorize r i d quota => exact AList.lookup_insert _
    · rw [List.concat_eq_append] at hlog ⊢
      rw [← List.cons_append, ← List.append_assoc] at hlog
      obtain ⟨hpre, hx⟩ := List.append_inj' hlog rfl
      cases hx
      rcases hinv.requests pre e post' r hpre hr with hkey | ⟨x, hx, hrelease⟩
      · rcases h.requestReplays hkey with hkey | hrelease
        · exact .inl hkey
        · exact .inr ⟨_, List.mem_append_right _ (List.mem_singleton_self _), hrelease⟩
      · exact .inr ⟨x, List.mem_append_left _ hx, hrelease⟩
  · rw [hsame]
    exact hinv.requests pre e post r (hlog' ▸ hlog) hr

theorem step_delegated (hkeeps : keepsGenerations g m)
    (he : e ∈ (g.step cfg m).log) {d : Delegation}
    (hd : e.call = .upsertDelegation d) :
    d.installationId ∈ (g.step cfg m).ids ∧
      (g.step cfg m).pg.Marked d.key (·.reaches d.generation) := by
  rcases mem_log he with he | ⟨hcall, h⟩
  · obtain ⟨hid, hmark⟩ := hinv.delegated e he d hd
    exact ⟨mem_ids hid,
      hmark.step (fun _ _ hpass => hpass.reaches) hid hinv hadmitted hkeeps⟩
  · rw [hcall.symm.trans hd] at h
    generalize (g.step cfg m).pg = pg, e.permit = permit at h ⊢
    cases h with
    | upsert d i hi =>
        refine ⟨mem_ids (hinv.ids _ i hi), .inr ⟨_, AList.lookup_insert _, ?_⟩⟩
        exact Int.le_refl _

theorem step_revoked (hkeeps : keepsGenerations g m)
    (he : e ∈ (g.step cfg m).log) {id : Uuid} {relay : PublicKey}
    {generation : Int} (hd : e.call = .revokeDelegation id relay generation) :
    id ∈ (g.step cfg m).ids ∧ (g.step cfg m).pg.Marked (id, relay) (·.spends generation) := by
  rcases mem_log he with he | ⟨hcall, h⟩
  · obtain ⟨hid, hmark⟩ := hinv.revoked e he id relay generation hd
    exact ⟨mem_ids hid,
      hmark.step (fun _ _ hpass => hpass.spends) hid hinv hadmitted hkeeps⟩
  · rw [hcall.symm.trans hd] at h
    generalize (g.step cfg m).pg = pg, e.permit = permit at h ⊢
    cases h with
    | revoke id relay d hrow =>
        exact ⟨mem_ids (hinv.keys _ d hrow).2,
          .inr ⟨_, AList.lookup_insert _, .inr ⟨rfl, rfl⟩⟩⟩
    | revokeAgain id relay d hrow hrevoked =>
        exact ⟨mem_ids (hinv.keys _ d hrow).2,
          .inr ⟨d, hrow, .inr ⟨rfl, hrevoked⟩⟩⟩

theorem step_revokedAll (he : e ∈ (g.step cfg m).log) {id : Uuid}
    {expected new : Int} (hd : e.call = .revokeInstallation id expected new) :
    id ∈ (g.step cfg m).ids ∧
      ∀ i, (g.step cfg m).pg.installations.lookup id = some i → i.revoked = true := by
  rcases mem_log he with he | ⟨hcall, h⟩
  · obtain ⟨hid, hrevoked⟩ := hinv.revokedAll e he id expected new hd
    refine ⟨mem_ids hid, fun i' hi' => ?_⟩
    rcases g.step_cases cfg m with ⟨permit, h, -⟩ | ⟨hsame, -⟩
    · rcases h.installations hi' with ⟨n, hn, rfl, -⟩ | ⟨i, hi, hkept⟩
      · refine absurd hid (hadmitted.2.2.1 n.id ?_)
        rw [hn]
        exact List.mem_singleton_self _
      · exact hkept.revoked (hrevoked i hi)
    · exact hrevoked i' (hsame ▸ hi')
  · rw [hcall.symm.trans hd] at h
    generalize (g.step cfg m).pg = pg, e.permit = permit at h ⊢
    cases h with
    | revokeAll id expected new i hi =>
        refine ⟨mem_ids (hinv.ids _ i hi), fun i' hi' => ?_⟩
        rw [show (g.pg.updated id _).installations.lookup id = _ from AList.lookup_insert _] at hi'
        cases hi'
        rfl
    | revokeAllAgain id expected new i hi hrevoked =>
        refine ⟨mem_ids (hinv.ids _ i hi), fun i' hi' => ?_⟩
        rw [hi] at hi'
        cases hi'
        exact hrevoked

theorem step (hkeeps : keepsGenerations g m) :
    AuthorityInv (g.step cfg m) where
  ids _ _ hi := hinv.step_ids hi
  keys _ _ hd := hinv.step_keys hd
  token _ _ hi := hinv.step_token hi
  delegated _ he _ hd := hinv.step_delegated hadmitted hkeeps he hd
  revoked _ he _ _ _ hd := hinv.step_revoked hadmitted hkeeps he hd
  revokedAll _ he _ _ _ hd := hinv.step_revokedAll hadmitted he hd
  auths _ he _ hr := hinv.step_auths hadmitted he hr
  requests _ _ _ _ hlog hr := hinv.step_requests hlog hr

end

end

end AuthorityInv

end Step

/-! ## The laws -/

/-- Two calls that went through, one after the other. -/
def Entry.Precedes (e e' : Entry) : Prop :=
  match e.call, e'.call with
  | .upsertDelegation d, .upsertDelegation d' => d.key = d'.key → d.generation < d'.generation
  | .revokeDelegation id relay g, .authorizeDelivery _ =>
      ∀ p ∈ e'.permit, p.authority.installationId = id → p.authority.relayPubkey = relay →
        g < p.authority.generation
  | .revokeInstallation id _ _, .authorizeDelivery _ =>
      ∀ p ∈ e'.permit, p.authority.installationId ≠ id
  | .authorizeDelivery r, .authorizeDelivery r' => r.eventId ≠ r'.eventId
  | _, _ => True

/-- Authority that can be taken back, and is used once. -/
structure Revocable (cfg : GatewayConfig) (s : GatewayState) : Prop where
  /-- A permit is for what is live, in time and at the granted epoch and generation. -/
  live : ∀ r now pg p, s.pg.authorizeDelivery cfg r now = .ok (pg, p) →
    ∃ i d, s.pg.installations.lookup p.authority.installationId = some i ∧
      s.pg.delegations.lookup (p.authority.installationId, r.relay) = some d ∧
      d.id = r.delegationId ∧ Grants i d r now
  order : s.log.Pairwise Entry.Precedes
  newest : ∀ pre e post p, s.log = pre ++ e :: post → e.permit = some p →
    newestToken pre p.authority.installationId = some p.authority.tokenCiphertext
  fenced : ∀ pre e mid e' post r r', s.log = pre ++ e :: mid ++ e' :: post →
    e.call = .authorizeDelivery r → e'.call = .authorizeDelivery r' → r.relay = r'.relay →
    r.requestId = r'.requestId → ∃ x ∈ mid, x.releases r

/-- What an event's signature is for: the relay, and the time in the body. -/
structure SignedDelivery where
  relay : PublicKey
  expiresAt : Int

/-- The signature on an event id stands for one body. -/
def Signed (signed : EventId → SignedDelivery) (m : GatewayMove) : Prop :=
  match m.call with
  | .authorizeDelivery r =>
      r.relay = (signed r.eventId).relay ∧ r.requestExpiresAt = (signed r.eventId).expiresAt
  | _ => True

instance (signed : EventId → SignedDelivery) : DecidablePred (Signed signed) := fun ⟨_, call⟩ =>
  match call with
  | .authorizeDelivery _ => inferInstanceAs (Decidable (_ ∧ _))
  | .createInstallation _ | .advanceAssertionCounter _ _ _ | .upsertDelegation _
  | .rotateEndpoint _ _ _ _ _ | .revokeDelegation _ _ _ | .revokeInstallation _ _ _
  | .finishDelivery _ _ _ | .reapExpired => isTrue trivial

theorem AuthorityInv.live {g : GatewayState} (hinv : AuthorityInv g) {r : DeliveryRequest}
    {pg : PgStore} {p : DeliveryPermit} (h : g.pg.authorizeDelivery cfg r now = .ok (pg, p)) :
    ∃ i d, g.pg.installations.lookup p.authority.installationId = some i ∧
      g.pg.delegations.lookup (p.authority.installationId, r.relay) = some d ∧
      d.id = r.delegationId ∧ Grants i d r now := by
  obtain ⟨i, d, quota, hfound, -, hgrants, -, -, -, -, rfl⟩ :=
    authorizeDelivery_eq_ok.1 h
  obtain ⟨key, hd, hid, hi⟩ := delegationById_eq_some hfound
  have hkey : (d.installationId, r.relay) = key := by
    rw [← (hinv.keys key d hd).1, ← hgrants.relay]
    rfl
  exact ⟨i, d, hi, hkey ▸ hd, hid, hgrants⟩

section Laws

variable {signed : EventId → SignedDelivery} {g : GatewayState} {m : GatewayMove}

/-- The entries of the log are signed too. -/
def SignedLog (signed : EventId → SignedDelivery) (log : List Entry) : Prop :=
  ∀ e ∈ log, ∀ r, e.call = .authorizeDelivery r →
    r.relay = (signed r.eventId).relay ∧ r.requestExpiresAt = (signed r.eventId).expiresAt

theorem SignedLog.step (h : SignedLog signed g.log) (hm : Signed signed m) :
    SignedLog signed (g.step cfg m).log := by
  intro e he r hr
  rcases mem_log he with he | ⟨hcall, -⟩
  · exact h e he r hr
  · unfold Signed at hm
    rw [← hcall, hr] at hm
    exact hm

/-- Whatever went through before, the next call keeps the order. -/
theorem AuthorityInv.precedes (hinv : AuthorityInv g) (hadmitted : Admitted cfg g m)
    (hlog : SignedLog signed g.log) (hm : Signed signed m)
    (h : PgCall cfg g.pg m.now m.call permit s') {e : Entry} (he : e ∈ g.log) :
    e.Precedes ⟨m.now, m.call, permit⟩ := by
  unfold Entry.Precedes
  unfold Signed at hm
  dsimp only
  generalize hcall : e.call = earlier
  generalize hlater : m.call = later at h hm
  cases h with
  | upsert d' i hi hgeneration =>
      cases earlier with
      | upsertDelegation d =>
          intro hkey
          rcases (hinv.delegated e he d hcall).2 with hgone | ⟨row, hrow, hreaches⟩
          · have hsame : d.installationId = d'.installationId := congrArg Prod.fst hkey
            rw [show d.key.1 = d'.installationId from hsame, hi] at hgone
            cases hgone
          · exact Int.lt_of_le_of_lt hreaches (hgeneration row (hkey ▸ hrow))
      | _ => exact trivial
  | authorize r' i d quota hfound hgrants hauth hrequest =>
      obtain ⟨key, hd, hid, hi⟩ := delegationById_eq_some hfound
      have hkey := (hinv.keys key d hd).1
      cases earlier with
      | revokeDelegation id relay generation =>
          rintro p hp rfl hrelay
          cases hp
          have hsame : key = (d.installationId, relay) := by
            rw [← hkey, ← hrelay]
            exact Prod.ext rfl hgrants.relay
          rcases (hinv.revoked e he _ _ _ hcall).2 with hgone | ⟨row, hrow, hspends⟩
          · have hnone := hi.symm.trans hgone
            cases hnone
          · rw [hsame] at hd
            obtain rfl : d = row := Option.some.inj (hd.symm.trans hrow)
            rcases hspends with hlt | ⟨-, hrevoked⟩
            · rw [hgrants.generation] at hlt
              exact hlt
            · rw [hgrants.delegation_live] at hrevoked
              cases hrevoked
      | revokeInstallation id expected new =>
          rintro p hp rfl
          cases hp
          have hrevoked := (hinv.revokedAll e he _ _ _ hcall).2 i hi
          rw [hgrants.installation_live] at hrevoked
          cases hrevoked
      | authorizeDelivery r =>
          intro hevent
          obtain ⟨hrelay, htime⟩ := hlog e he r hcall
          obtain ⟨hrelay', htime'⟩ := hm
          rcases hinv.auths e he r hcall with hpast | hused
          · have hfuture := hgrants.request_time.1
            have hclock := hadmitted.1
            rw [htime', ← hevent, ← htime] at hfuture
            omega
          · rw [hrelay, hevent, ← hrelay', hauth] at hused
            cases hused
      | _ => exact trivial
  | create | advance | rotate | revoke | revokeAgain | revokeAll | revokeAllAgain | finish | reap =>
      cases earlier <;> exact trivial

/-- The state, its tables and its log together. -/
structure LawfulRun (cfg : GatewayConfig) (signed : EventId → SignedDelivery)
    (s : GatewayState) : Prop where
  inv : AuthorityInv s
  signedLog : SignedLog signed s.log
  laws : Revocable cfg s

/-- A split of the log around an entry: it is the last one, or the split is an old one. -/
theorem snoc_split {log pre post : List Entry} {x e : Entry}
    (h : log ++ [x] = pre ++ e :: post) :
    (log = pre ∧ x = e ∧ post = []) ∨ ∃ post', post = post' ++ [x] ∧ log = pre ++ e :: post' := by
  rcases List.eq_nil_or_concat post with rfl | ⟨post', y, rfl⟩
  · obtain ⟨hpre, hx⟩ := List.append_inj' h rfl
    exact .inl ⟨hpre, List.cons.inj hx |>.1, rfl⟩
  · rw [List.concat_eq_append, ← List.cons_append, ← List.append_assoc] at h
    obtain ⟨hpre, hx⟩ := List.append_inj' h rfl
    cases hx
    exact .inr ⟨post', List.concat_eq_append, hpre⟩

theorem LawfulRun.step (h : LawfulRun cfg signed g) (hadmitted : Admitted cfg g m)
    (hm : Signed signed m) (hkeeps : keepsGenerations g m) :
    LawfulRun cfg signed (g.step cfg m) := by
  have hinv := h.inv.step hadmitted hkeeps
  refine ⟨hinv, h.signedLog.step hm, fun _ _ _ _ hok => hinv.live hok, ?_, ?_, ?_⟩
  · rcases g.step_cases cfg m with ⟨permit, hcall, hlog⟩ | ⟨-, hlog⟩
    · rw [hlog, List.pairwise_append]
      refine ⟨h.laws.order, List.pairwise_singleton _ _, fun e he x hx => ?_⟩
      rw [List.mem_singleton.1 hx]
      exact h.inv.precedes hadmitted h.signedLog hm hcall he
    · rw [hlog]
      exact h.laws.order
  · intro pre e post p hsplit hp
    rcases g.step_cases cfg m with ⟨permit, hcall, hlog⟩ | ⟨-, hlog⟩
    · rw [hlog] at hsplit
      rcases snoc_split hsplit with ⟨rfl, rfl, -⟩ | ⟨post', -, hold⟩
      · dsimp only at hp
        subst hp
        generalize m.call = c at hcall
        generalize (g.step cfg m).pg = pg at hcall
        cases hcall with
        | authorize r i d quota hfound =>
            obtain ⟨key, -, -, hi⟩ := delegationById_eq_some hfound
            exact h.inv.token _ i hi
      · exact h.laws.newest pre e post' p hold hp
    · exact h.laws.newest pre e post p (hlog ▸ hsplit) hp
  · intro pre e mid e' post r r' hsplit hr hr' hrelay hrequest
    rcases g.step_cases cfg m with ⟨permit, hcall, hlog⟩ | ⟨-, hlog⟩
    · rw [hlog] at hsplit
      rcases snoc_split hsplit with ⟨hlast, rfl, -⟩ | ⟨post', -, hold⟩
      · rcases h.inv.requests pre e mid r hlast hr with hused | hreleased
        · rw [show m.call = _ from hr'] at hcall
          generalize (g.step cfg m).pg = pg at hcall
          cases hcall with
          | authorize r' i d quota _ _ _ hfree =>
              rw [hrelay, hrequest, hfree] at hused
              cases hused
        · exact hreleased
      · exact h.laws.fenced pre e mid e' post' r r' hold hr hr' hrelay hrequest
    · exact h.laws.fenced pre e mid e' post r r' (hlog ▸ hsplit) hr hr' hrelay hrequest

theorem AuthorityInv.init : AuthorityInv {} where
  ids _ _ hi := by cases hi
  keys _ _ hd := by cases hd
  token _ _ hi := by cases hi
  delegated _ he := by cases he
  revoked _ he := by cases he
  revokedAll _ he := by cases he
  auths _ he := by cases he
  requests pre _ _ _ hlog := by cases pre <;> cases hlog

theorem LawfulRun.init : LawfulRun cfg signed {} where
  inv := .init
  signedLog _ he := by cases he
  laws :=
    { live := fun _ _ _ _ hok => AuthorityInv.init.live hok
      order := List.Pairwise.nil
      newest := fun pre _ _ _ hlog => by cases pre <;> cases hlog
      fenced := fun pre _ _ _ _ _ _ hlog => by cases pre <;> cases hlog }

/-- In whatever order the calls come, and whenever the sweeps are made: as long as a
sweep takes no delegation of an installation that stays, authority can be taken back
and is used once. -/
theorem authority_revocable (cfg : GatewayConfig) (signed : EventId → SignedDelivery)
    (ms : List GatewayMove)
    (hms : (gatewayMachine cfg).Meets
      (fun s m => Admitted cfg s m ∧ Signed signed m ∧ keepsGenerations s m)
      (gatewayMachine cfg).init ms) :
    Revocable cfg ((gatewayMachine cfg).run ms) := by
  have hrun := (gatewayMachine cfg).inv_run (I := LawfulRun cfg signed) .init
    (fun s m h hm => h.step hm.1 hm.2.1 hm.2.2) hms
  exact hrun.laws

/-- An hour of delegation at most. -/
def hourConfig : GatewayConfig := .ofGrantLifetime 3600 (by decide)

/-- What the relay asks for. -/
def delivery (id event : UInt8) (generation until' : Int) : DeliveryRequest where
  delegationId := .ofByte id
  relay := .ofByte 7
  epoch := 1
  generation := generation
  eventId := .ofByte event
  requestId := .ofByte event
  requestExpiresAt := until'

/-- An installation that delegates to a relay for a minute and a half, gets a delivery and
takes it back. -/
def takenBack : List GatewayMove :=
  let installation : NewInstallation :=
    { id := .ofByte 1, appAttestKeyId := List.replicate 32 2
      appAttestPublicKey := List.replicate 65 3, assertionCounter := 0, tokenCiphertext := [4]
      tokenFingerprint := .ofByte 5, endpointEpoch := 1, expiresAt := 3600 }
  let delegation : Delegation :=
    { id := .ofByte 6, installationId := .ofByte 1, relayPubkey := .ofByte 7, endpointEpoch := 1
      generation := 5, notBefore := 0, expiresAt := 90, revoked := false }
  [⟨0, .createInstallation installation⟩, ⟨0, .upsertDelegation delegation⟩,
    ⟨40, .authorizeDelivery (delivery 6 9 5 80)⟩,
    ⟨60, .revokeDelegation (.ofByte 1) (.ofByte 7) 5⟩]

/-- The relay's signatures. -/
def signedByRelay (event : EventId) : SignedDelivery :=
  ⟨.ofByte 7, if event = .ofByte 9 then 80 else 150⟩

/-- After a new token and a sweep that takes nothing, too. -/
theorem takenBack_revocable :
    Revocable hourConfig ((gatewayMachine hourConfig).run (takenBack ++
      [⟨70, .rotateEndpoint (.ofByte 1) 1 2 [8] (.ofByte 8)⟩, ⟨80, .reapExpired⟩])) :=
  authority_revocable hourConfig signedByRelay _ (by decide +kernel)

/-- The sweep a little later takes the delegation, and the first generation is as good
as new. -/
def sweptAndDelegated : List GatewayMove :=
  let delegation : Delegation :=
    { id := .ofByte 8, installationId := .ofByte 1, relayPubkey := .ofByte 7, endpointEpoch := 1
      generation := 1, notBefore := 100, expiresAt := 200, revoked := false }
  takenBack ++ [⟨100, .reapExpired⟩, ⟨100, .upsertDelegation delegation⟩,
    ⟨110, .authorizeDelivery (delivery 8 10 1 150)⟩]

theorem revoked_generation_permitted :
    ¬ ∀ ms : List GatewayMove,
      (gatewayMachine hourConfig).Meets
        (fun s m => Admitted hourConfig s m ∧ Signed signedByRelay m)
        (gatewayMachine hourConfig).init ms →
      Revocable hourConfig ((gatewayMachine hourConfig).run ms) := by
  intro h
  have hlaws := h sweptAndDelegated (by decide +kernel)
  have horder := List.pairwise_iff_getElem.1 hlaws.order 3 6 (by decide +kernel)
    (by decide +kernel) (by decide)
  -- The revocation of generation 5, and a permit of generation 1.
  have hlater : (5 : Int) < 1 := horder _ rfl rfl rfl
  exact absurd hlater (by decide)

end Laws

end Buzz.Gateway
