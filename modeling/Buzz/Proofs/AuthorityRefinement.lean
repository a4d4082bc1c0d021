import Buzz.Lib.Swept
import Buzz.Proofs.AuthorityCalls

/-!
# PostgreSQL and the reference store

The two stores get the same calls. PostgreSQL drops what is past its time and forgets
whose token it was when an installation is revoked; memory keeps installations,
delegations and the owner of every token. As long as no call touches what only memory
remembers, a call that PostgreSQL accepts is accepted by memory too, with the same
permit. `keepsUp` names the three calls that can.
-/

namespace Buzz.Gateway

open Buzz.Lib MemoryStore

/-! ## Quotas -/

/-- The quota of a token in the two stores: memory drops it by the start of its window,
PostgreSQL by its last use. -/
def QuotaAgrees (clock : Int) : Option QuotaRow → Option (Int × Int) → Prop
  | none, none => True
  | none, some _ => False
  | some q, some quota =>
      quota = (q.windowStartedAt, q.admitted) ∧ minTimestamptz ≤ q.windowStartedAt ∧
        q.windowStartedAt ≤ q.updatedAt ∧ q.updatedAt ≤ clock
  | some q, none => q.windowStartedAt + 86400 ≤ clock

namespace QuotaAgrees

variable {cfg : GatewayConfig} {clock now : Int} {row : Option QuotaRow}
  {quota : Option (Int × Int)}

theorem mono (h : QuotaAgrees clock row quota) (hle : clock ≤ now) : QuotaAgrees now row quota := by
  cases row with
  | none => cases quota <;> exact h
  | some q =>
      cases quota with
      | none => exact Int.le_trans h hle
      | some quota => exact ⟨h.1, h.2.1, h.2.2.1, Int.le_trans h.2.2.2 hle⟩

/-- No subtraction of times the store has seen overflows. -/
theorem saturatingSub_eq {start : Int} (hnow : (fromTimestamp now).isSome)
    (hstart : minTimestamptz ≤ start) (hle : start ≤ now) :
    saturatingSub now start = now - start := by
  have hmax : now ≤ 8210266876799 := by
    unfold fromTimestamp at hnow
    split at hnow
    · next h => exact h.2
    · cases hnow
  unfold saturatingSub i64Max
  unfold minTimestamptz at hstart
  omega

theorem quotaAt_none : quotaAt cfg none now = (now, 0) := ite_self _

theorem quotaAt_some (entry : Int × Int) :
    quotaAt cfg (some entry) now =
      if cfg.endpointQuotaWindowSeconds ≤ saturatingSub now entry.1 then (now, 0) else entry :=
  rfl

/-- The quota lets a delivery in or not, in both. -/
theorem take (h : QuotaAgrees now row quota) (cfg : GatewayConfig)
    (hnow : (fromTimestamp now).isSome) (hclock : minTimestamptz ≤ now) :
    (∃ q, cfg.takeQuota row now = some q ∧
      (quotaAt cfg quota now).2 < cfg.endpointQuotaMaxDeliveries ∧
      QuotaAgrees now (some q) (some ((quotaAt cfg quota now).1,
        (quotaAt cfg quota now).2 + 1))) ∨
    (cfg.takeQuota row now = none ∧
      cfg.endpointQuotaMaxDeliveries ≤ (quotaAt cfg quota now).2 ∧
      quota = some (quotaAt cfg quota now)) := by
  have hwindow := cfg.window_bounds
  have hmost := cfg.deliveries_bounds
  -- A new window: the first delivery of it.
  have hfirst : cfg.takeQuota row now = some ⟨now, 1, now⟩ →
      quotaAt cfg quota now = (now, 0) →
      ∃ q, cfg.takeQuota row now = some q ∧
        (quotaAt cfg quota now).2 < cfg.endpointQuotaMaxDeliveries ∧
        QuotaAgrees now (some q) (some ((quotaAt cfg quota now).1,
          (quotaAt cfg quota now).2 + 1)) := by
    intro htake hquota
    rw [hquota]
    refine ⟨_, htake, ?_, rfl, hclock, Int.le_refl _, Int.le_refl _⟩
    omega
  cases row with
  | none =>
      cases quota with
      | none => exact .inl (hfirst rfl quotaAt_none)
      | some quota => exact h.elim
  | some q =>
      cases quota with
      | none =>
          have hpast : q.windowStartedAt ≤ now - cfg.endpointQuotaWindowSeconds := by
            have : q.windowStartedAt + 86400 ≤ now := h
            omega
          refine .inl (hfirst ?_ quotaAt_none)
          show (if _ then _ else _) = _
          rw [if_pos hpast]
      | some quota =>
          obtain ⟨rfl, hmin, hupdated, hlast⟩ := h
          have hsub := saturatingSub_eq hnow hmin (Int.le_trans hupdated hlast)
          by_cases hpast : q.windowStartedAt ≤ now - cfg.endpointQuotaWindowSeconds
          · refine .inl (hfirst ?_ ?_)
            · show (if _ then _ else _) = _
              rw [if_pos hpast]
            · rw [quotaAt_some, hsub, if_pos (by omega)]
          · have hquota : quotaAt cfg (some (q.windowStartedAt, q.admitted)) now =
                (q.windowStartedAt, q.admitted) := by
              rw [quotaAt_some, hsub, if_neg (by omega)]
            have htake : cfg.takeQuota (some q) now =
                if q.admitted < cfg.endpointQuotaMaxDeliveries then
                  some ⟨q.windowStartedAt, q.admitted + 1, now⟩ else none := by
              show (if _ then _ else _) = _
              rw [if_neg hpast]
            rw [hquota, htake]
            by_cases hroom : q.admitted < cfg.endpointQuotaMaxDeliveries
            · rw [if_pos hroom]
              exact .inl ⟨_, rfl, hroom, rfl, hmin, Int.le_trans hupdated hlast, Int.le_refl _⟩
            · rw [if_neg hroom]
              exact .inr ⟨rfl, Int.not_lt.1 hroom, rfl⟩

/-- Both are swept. -/
theorem sweep (h : QuotaAgrees now row quota) (hnow : (fromTimestamp now).isSome) :
    QuotaAgrees now (row.filter fun q => now - 86400 ≤ q.updatedAt)
      (quota.filter fun quota => saturatingSub now quota.1 < 86400) := by
  cases row with
  | none =>
      cases quota with
      | none => trivial
      | some quota => exact h.elim
  | some q =>
      rw [Option.filter_some]
      cases quota with
      | none =>
          rw [Option.filter_none]
          split
          · exact h
          · trivial
      | some quota =>
          obtain ⟨rfl, hmin, hupdated, hlast⟩ := h
          have hsub := saturatingSub_eq hnow hmin (Int.le_trans hupdated hlast)
          rw [Option.filter_some]
          simp only [decide_eq_true_eq, hsub]
          by_cases hold : now - q.windowStartedAt < 86400
          · rw [if_pos hold, if_pos (by omega)]
            exact ⟨rfl, hmin, hupdated, hlast⟩
          · rw [if_neg hold]
            split
            · show q.windowStartedAt + 86400 ≤ now
              omega
            · trivial

end QuotaAgrees

/-! ## The two stores -/

/-- The stores agree on every row but for expired ones, which the database may
have swept. -/
structure Refines (pg : PgStore) (memory : MemoryStore) (clock : Int) (ids : List Uuid) :
    Prop where
  since : minTimestamptz ≤ clock
  installations : Swept (·.expiresAt) clock pg.installations memory.installations
  delegations : Swept (·.expiresAt) clock pg.delegations memory.delegations
  known : ∀ id i, memory.installations.lookup id = some i → i.id = id ∧ id ∈ ids
  keys : ∀ key d, memory.delegations.lookup key = some d → d.key = key
  delegationIds : ∀ id key, memory.delegationIds.lookup id = some key → id ∈ ids
  current : ∀ key d, pg.delegations.lookup key = some d →
    memory.delegationIds.lookup d.id = some key
  parents : ∀ key d, pg.delegations.lookup key = some d →
    ∃ i, pg.installations.lookup key.1 = some i ∧ d.expiresAt ≤ i.expiresAt
  auths : ∀ key, pg.deliveryAuthReplays.lookup key = memory.deliveryAuthReplays.lookup key
  requests : ∀ key,
    pg.deliveryRequestReplays.lookup key = memory.deliveryRequestReplays.lookup key
  quotas : ∀ fingerprint, QuotaAgrees clock (pg.endpointQuotas.lookup fingerprint)
    (memory.endpointQuotas.lookup fingerprint)
  owners : ∀ id i, memory.installations.lookup id = some i → i.revoked = false →
    memory.tokenOwners.lookup i.tokenFingerprint = some id
  appKeys : ∀ id id' i i', memory.installations.lookup id = some i →
    memory.installations.lookup id' = some i' → i.revoked = false → i'.revoked = false →
    i.appAttestKeyId = i'.appAttestKeyId → id = id'

namespace Refines

variable {pg : PgStore} {memory : MemoryStore} {clock now : Int} {ids ids' : List Uuid}
  {n : NewInstallation} {d : Delegation} {i : Installation} {i' : Installation}

theorem mono (h : Refines pg memory clock ids) (hle : clock ≤ now) (hids : ids ⊆ ids') :
    Refines pg memory now ids' :=
  { h with
    since := Int.le_trans h.since hle
    installations := h.installations.mono hle
    delegations := h.delegations.mono hle
    known := fun id i hi => ⟨(h.known id i hi).1, hids (h.known id i hi).2⟩
    delegationIds := fun id key hid => hids (h.delegationIds id key hid)
    quotas := fun fingerprint => (h.quotas fingerprint).mono hle }

/-! ### Enrolment -/

section

variable (h : Refines pg memory now ids)
include h

/-- An installation is in the way in both stores or in neither. -/
theorem live_iff :
    (∀ id i, pg.installations.lookup id = some i → i.owns n = true → i.live now = false) ↔
      ∀ id i, memory.installations.lookup id = some i → i.owns n = true →
        i.live now = false := by
  constructor
  · intro hdead id i hi howns
    by_contra hlive
    rw [Bool.not_eq_false] at hlive
    unfold Installation.live at hlive
    rw [Bool.and_eq_true, decide_eq_true_eq] at hlive
    have hpg := h.installations.lookup_of_le hi hlive.2
    have hfalse := hdead id i hpg howns
    unfold Installation.live at hfalse
    rw [hlive.1, decide_eq_true hlive.2] at hfalse
    cases hfalse
  · intro hdead id i hi
    exact hdead id i (h.installations.sub id i hi)

/-- What an enrolment drops in memory, no other installation depends on. -/
theorem enrolled (hid : n.id ∈ ids)
    (hfresh : memory.installations.lookup n.id = none)
    (hdead : ∀ id i, memory.installations.lookup id = some i → i.owns n = true →
      i.live now = false)
    (howners : ∀ id i, memory.installations.lookup id = some i → i.replacedBy n now = true →
      ∀ id' i', memory.installations.lookup id' = some i' → i'.replacedBy n now = false →
      i'.revoked = false → i'.tokenFingerprint ≠ i.tokenFingerprint) :
    Refines (pg.enrolled n now) (memory.enrolled n now) now ids := by
  have hnone : pg.installations.lookup n.id = none := by
    cases hpg : pg.installations.lookup n.id with
    | none => rfl
    | some i =>
        rw [h.installations.sub _ i hpg] at hfresh
        cases hfresh
  -- An installation of memory's after the enrolment: the new one, or one that stays.
  have hcases : ∀ {id : Uuid} {i : Installation},
      (memory.enrolled n now).installations.lookup id = some i → (id = n.id ∧ i = n.row) ∨
        (id ≠ n.id ∧ memory.installations.lookup id = some i ∧ i.replacedBy n now = false) := by
    intro id i hi
    by_cases heq : id = n.id
    · subst heq
      rw [show (memory.enrolled n now).installations.lookup n.id = some n.row from
        AList.lookup_insert _] at hi
      exact .inl ⟨rfl, (Option.some.inj hi).symm⟩
    · rw [lookup_enrolled_installations heq, Option.filter_eq_some_iff,
        Bool.not_eq_true'] at hi
      exact .inr ⟨heq, hi.1, hi.2⟩
  -- One that stays and is not revoked has neither the key nor the token.
  have hapart : ∀ {id : Uuid} {i : Installation}, memory.installations.lookup id = some i →
      i.replacedBy n now = false → i.revoked = false → i.owns n = false := by
    intro id i hi hstays hrevoked
    by_contra howns
    rw [Bool.not_eq_false] at howns
    rw [i.revoked_or_replaced howns (hdead id i hi howns) hrevoked] at hstays
    cases hstays
  -- A delegation of PostgreSQL's that stays has an installation that does.
  have hparent : ∀ {key : Uuid × PublicKey} {d : Delegation},
      (pg.enrolled n now).delegations.lookup key = some d →
      pg.delegations.lookup key = some d ∧ ∃ i, pg.installations.lookup key.1 = some i ∧
        d.expiresAt ≤ i.expiresAt ∧ i.replacedBy n now = false := by
    intro key d hd
    rw [PgStore.lookup_enrolled_delegations, Option.filter_eq_some_iff, Bool.not_eq_true'] at hd
    obtain ⟨i, hi, htime⟩ := h.parents key d hd.1
    have hstays := hd.2
    rw [hi, Option.any_some] at hstays
    exact ⟨hd.1, i, hi, htime, hstays⟩
  refine ⟨h.since, ?_, ?_, ?_, ?_, ?_, ?_, ?_, h.auths, h.requests, h.quotas, ?_, ?_⟩
  · exact (h.installations.retain fun _ _ _ => rfl).insert n.id n.row
  · have hsame : ∀ key d, pg.delegations.lookup key = some d →
        (!(pg.installations.lookup key.1).any (·.replacedBy n now)) =
          !(memory.installations.lookup key.1).any (·.replacedBy n now) := by
      intro key d hd
      obtain ⟨i, hi, -⟩ := h.parents key d hd
      rw [hi, h.installations.sub _ i hi]
    exact h.delegations.retain (p := fun key _ => _) (q := fun key _ => _) hsame
  · intro id i hi
    rcases hcases hi with ⟨rfl, rfl⟩ | ⟨-, hold, -⟩
    · exact ⟨rfl, hid⟩
    · exact h.known id i hold
  · intro key d hd
    rw [lookup_enrolled_delegations, Option.filter_eq_some_iff] at hd
    exact h.keys key d hd.1
  · intro id key hkey
    rw [lookup_enrolled_ids, Option.filter_eq_some_iff] at hkey
    exact h.delegationIds id key hkey.1
  · intro key d hd
    obtain ⟨hold, i, hi, -, hstays⟩ := hparent hd
    rw [lookup_enrolled_ids, h.current key d hold, Option.filter_some,
      h.installations.sub _ i hi, Option.any_some, hstays]
    rfl
  · intro key d hd
    obtain ⟨hold, i, hi, htime, hstays⟩ := hparent hd
    have hne : key.1 ≠ n.id := by
      intro heq
      rw [heq, hnone] at hi
      cases hi
    refine ⟨i, ?_, htime⟩
    rw [PgStore.lookup_enrolled_installations hne, hi, Option.filter_some, hstays]
    rfl
  · intro id i hi hrevoked
    rcases hcases hi with ⟨rfl, rfl⟩ | ⟨hne, hold, hstays⟩
    · exact AList.lookup_insert _
    · have howns := hapart hold hstays hrevoked
      unfold Installation.owns at howns
      rw [Bool.or_eq_false_iff, decide_eq_false_iff_not, decide_eq_false_iff_not] at howns
      rw [lookup_enrolled_owners howns.2 ?_]
      · exact h.owners id i hold hrevoked
      · intro id' i' hi' hreplaced heq
        exact howners id' i' hi' hreplaced id i hold hstays hrevoked heq.symm
  · intro id id' i i' hi hi' hrevoked hrevoked' hkey
    have hother : ∀ {id : Uuid} {i : Installation}, memory.installations.lookup id = some i →
        i.replacedBy n now = false → i.revoked = false →
        i.appAttestKeyId ≠ n.appAttestKeyId := by
      intro id i hold hstays hrevoked heq
      have howns := hapart hold hstays hrevoked
      unfold Installation.owns at howns
      rw [Bool.or_eq_false_iff, decide_eq_false_iff_not] at howns
      exact howns.1 heq
    rcases hcases hi with ⟨rfl, rfl⟩ | ⟨-, hold, hstays⟩
    · rcases hcases hi' with ⟨rfl, rfl⟩ | ⟨-, hold', hstays'⟩
      · rfl
      · exact absurd hkey.symm (hother hold' hstays' hrevoked')
    · rcases hcases hi' with ⟨rfl, rfl⟩ | ⟨-, hold', -⟩
      · exact absurd hkey (hother hold hstays hrevoked)
      · exact h.appKeys id id' i i' hold hold' hrevoked hrevoked' hkey

/-! ### Rows written over -/

/-- An installation's row after a call that leaves its identity and its time. -/
structure Installation.Rewrites (i i' : Installation) : Prop where
  id : i'.id = i.id
  appKey : i'.appAttestKeyId = i.appAttestKeyId
  expiry : i'.expiresAt = i.expiresAt
  revoked : i'.revoked = false → i.revoked = false

omit h in
theorem lookup_rewritten {id id' : Uuid} {i'' : Installation}
    (h : (memory.installations.insert id i').lookup id' = some i'')
    (hi : memory.installations.lookup id = some i)
    (hrewrites : Installation.Rewrites i i') :
    ∃ i₀, memory.installations.lookup id' = some i₀ ∧ Installation.Rewrites i₀ i'' := by
  rcases HMap.lookup_insert_cases h with ⟨rfl, rfl⟩ | ⟨-, hold⟩
  · exact ⟨i, hi, hrewrites⟩
  · exact ⟨i'', hold, rfl, rfl, rfl, fun hrevoked => hrevoked⟩

/-- The parts of the relation a rewritten row does not touch. -/
theorem rewritten {id : Uuid} (owners : HMap Bytes32 Uuid)
    (hi : memory.installations.lookup id = some i)
    (hrewrites : Installation.Rewrites i i')
    (howners : ∀ id' i'', (memory.installations.insert id i').lookup id' = some i'' →
      i''.revoked = false → owners.lookup i''.tokenFingerprint = some id') :
    Refines
      { pg with
        installations :=
          if (pg.installations.lookup id).isSome then pg.installations.insert id i'
          else pg.installations }
      { memory with tokenOwners := owners, installations := memory.installations.insert id i' }
      now ids := by
  refine { h with
    installations := h.installations.rewrite hi hrewrites.expiry
    known := ?_, parents := ?_, owners := howners, appKeys := ?_ }
  · intro id' i'' hi''
    obtain ⟨i₀, hi₀, hrewrites'⟩ := lookup_rewritten hi'' hi hrewrites
    exact ⟨hrewrites'.id.trans (h.known id' i₀ hi₀).1, (h.known id' i₀ hi₀).2⟩
  · intro key d hd
    obtain ⟨i₀, hi₀, htime⟩ := h.parents key d hd
    split
    · rw [HMap.lookup_insert_ite]
      split
      · next heq =>
          rw [heq] at hi₀
          obtain rfl : i₀ = i := h.installations.eq_of_lookup hi₀ hi
          exact ⟨i', rfl, hrewrites.expiry ▸ htime⟩
      · exact ⟨i₀, hi₀, htime⟩
    · exact ⟨i₀, hi₀, htime⟩
  · intro id₁ id₂ i₁ i₂ hi₁ hi₂ hrevoked₁ hrevoked₂ hkey
    obtain ⟨j₁, hj₁, hrewrites₁⟩ := lookup_rewritten hi₁ hi hrewrites
    obtain ⟨j₂, hj₂, hrewrites₂⟩ := lookup_rewritten hi₂ hi hrewrites
    refine h.appKeys id₁ id₂ j₁ j₂ hj₁ hj₂ (hrewrites₁.revoked hrevoked₁)
      (hrewrites₂.revoked hrevoked₂) ?_
    rw [← hrewrites₁.appKey, ← hrewrites₂.appKey, hkey]

omit h in
/-- The row where there is one. -/
theorem ite_updated {id : Uuid} :
    (if (pg.installations.lookup id).isSome then pg.updated id i' else pg) =
      { pg with
        installations :=
          if (pg.installations.lookup id).isSome then pg.installations.insert id i'
          else pg.installations } := by
  split
  · rfl
  · rfl

/-- The same row in both, with its token as it was. -/
theorem updated {id : Uuid} (hi : memory.installations.lookup id = some i)
    (hrewrites : Installation.Rewrites i i')
    (htoken : i'.tokenFingerprint = i.tokenFingerprint) :
    Refines (if (pg.installations.lookup id).isSome then pg.updated id i' else pg)
      (memory.updated id i') now ids := by
  rw [ite_updated]
  refine h.rewritten memory.tokenOwners hi hrewrites ?_
  intro id' i'' hi'' hrevoked
  rcases HMap.lookup_insert_cases hi'' with ⟨rfl, rfl⟩ | ⟨-, hold⟩
  · rw [htoken]
    exact h.owners id' i hi (hrewrites.revoked hrevoked)
  · exact h.owners id' i'' hold hrevoked

/-- The token of one installation, for one that no other has. -/
theorem rotated {id : Uuid} (new : Int) (ciphertext : List UInt8)
    {fingerprint : Bytes32} (hi : memory.installations.lookup id = some i)
    (hlive : i.revoked = false)
    (hfree : ∀ owner, memory.tokenOwners.lookup fingerprint = some owner → owner = id) :
    Refines (if (pg.installations.lookup id).isSome then
        pg.updated id (PgStore.rotated i new ciphertext fingerprint) else pg)
      (memory.rotated id i new ciphertext fingerprint) now ids := by
  have hrewrites : Installation.Rewrites i (PgStore.rotated i new ciphertext fingerprint) :=
    ⟨rfl, rfl, rfl, fun hrevoked => hrevoked⟩
  rw [ite_updated]
  refine h.rewritten
    ((memory.tokenOwners.erase i.tokenFingerprint).insert fingerprint id) hi hrewrites ?_
  intro id' i'' hi'' hrevoked
  rcases HMap.lookup_insert_cases hi'' with ⟨rfl, rfl⟩ | ⟨hne, hold⟩
  · exact AList.lookup_insert _
  · have howner := h.owners id' i'' hold hrevoked
    have hnew : i''.tokenFingerprint ≠ fingerprint := fun heq => hne (hfree id' (heq ▸ howner))
    have hold : i''.tokenFingerprint ≠ i.tokenFingerprint := by
      intro heq
      rw [heq, h.owners id i hi hlive] at howner
      exact hne (Option.some.inj howner).symm
    rw [HMap.lookup_insert_ite, if_neg hnew, HMap.lookup_erase_ite, if_neg hold]
    exact howner

/-! ### Delegations -/

theorem delegated (hi : pg.installations.lookup d.installationId = some i)
    (hfresh : memory.delegationIds.lookup d.id = none) (hid : d.id ∈ ids)
    (hrevoked : d.revoked = false) :
    Refines (pg.delegated d i) (memory.delegated d i) now ids := by
  have hsame : { d with revoked := false } = d := by
    rw [← hrevoked]
  have hmemory := h.installations.sub _ i hi
  -- The row of the installation is the old one, but for the time.
  have hrow : ∀ {id : Uuid} {i' : Installation},
      (memory.delegated d i).installations.lookup id = some i' →
      ∃ i₀, memory.installations.lookup id = some i₀ ∧ i'.id = i₀.id ∧
        i'.appAttestKeyId = i₀.appAttestKeyId ∧ i'.tokenFingerprint = i₀.tokenFingerprint ∧
        i'.revoked = i₀.revoked := by
    intro id i' hi'
    rcases HMap.lookup_insert_cases hi' with ⟨rfl, rfl⟩ | ⟨-, hold⟩
    · exact ⟨i, hmemory, rfl, rfl, rfl, rfl⟩
    · exact ⟨i', hold, rfl, rfl, rfl, rfl⟩
  refine ⟨h.since, ?_, ?_, ?_, ?_, ?_, ?_, ?_, h.auths, h.requests, h.quotas, ?_, ?_⟩
  · exact h.installations.insert _ _
  · show Swept _ now (pg.delegations.insert d.key { d with revoked := false }) _
    rw [hsame]
    exact h.delegations.insert _ _
  · intro id i' hi'
    obtain ⟨i₀, hi₀, hid₀, -⟩ := hrow hi'
    exact ⟨hid₀.trans (h.known id i₀ hi₀).1, (h.known id i₀ hi₀).2⟩
  · intro key d' hd'
    rcases HMap.lookup_insert_cases hd' with ⟨rfl, rfl⟩ | ⟨-, hold⟩
    · rfl
    · exact h.keys key d' hold
  · intro id key hkey
    rcases HMap.lookup_insert_cases hkey with ⟨rfl, rfl⟩ | ⟨-, hold⟩
    · exact hid
    · exact h.delegationIds id key hold
  · intro key d' hd'
    rcases HMap.lookup_insert_cases hd' with ⟨rfl, rfl⟩ | ⟨-, hold⟩
    · exact AList.lookup_insert _
    · have hcurrent := h.current key d' hold
      have hne : d'.id ≠ d.id := by
        intro heq
        rw [heq, hfresh] at hcurrent
        cases hcurrent
      show (memory.delegationIds.insert d.id d.key).lookup d'.id = some key
      rw [HMap.lookup_insert_ite, if_neg hne]
      exact hcurrent
  · intro key d' hd'
    show ∃ i', (pg.installations.insert d.installationId
      { i with expiresAt := max i.expiresAt d.expiresAt }).lookup key.1 = some i' ∧ _
    rcases HMap.lookup_insert_cases hd' with ⟨rfl, rfl⟩ | ⟨-, hold⟩
    · exact ⟨_, AList.lookup_insert _, Int.le_max_right _ _⟩
    · obtain ⟨i₀, hi₀, htime⟩ := h.parents key d' hold
      rw [HMap.lookup_insert_ite]
      split
      · next heq =>
          rw [heq, hi] at hi₀
          cases hi₀
          exact ⟨_, rfl, Int.le_trans htime (Int.le_max_left _ _)⟩
      · exact ⟨i₀, hi₀, htime⟩
  · intro id i' hi' hrevoked'
    obtain ⟨i₀, hi₀, -, -, htoken, hsame⟩ := hrow hi'
    rw [htoken]
    exact h.owners id i₀ hi₀ (hsame ▸ hrevoked')
  · intro id₁ id₂ i₁ i₂ hi₁ hi₂ hrevoked₁ hrevoked₂ hkey
    obtain ⟨j₁, hj₁, -, hkey₁, -, hsame₁⟩ := hrow hi₁
    obtain ⟨j₂, hj₂, -, hkey₂, -, hsame₂⟩ := hrow hi₂
    refine h.appKeys id₁ id₂ j₁ j₂ hj₁ hj₂ (hsame₁ ▸ hrevoked₁) (hsame₂ ▸ hrevoked₂) ?_
    rw [← hkey₁, ← hkey₂, hkey]

/-- A delegation taken back, in both or where it is left. -/
theorem withoutDelegation {key : Uuid × PublicKey}
    (hd : memory.delegations.lookup key = some d) :
    Refines (if (pg.delegations.lookup key).isSome then pg.withoutDelegation key d else pg)
      (memory.withoutDelegation key d) now ids := by
  unfold PgStore.withoutDelegation MemoryStore.withoutDelegation
  cases hrevoked : d.revoked with
  | true =>
      rw [if_pos rfl, if_pos rfl, ite_self]
      exact h
  | false =>
      rw [if_neg Bool.false_ne_true, if_neg Bool.false_ne_true]
      have hswept := h.delegations.rewrite (v := { d with revoked := true }) hd rfl
      cases hpg : pg.delegations.lookup key with
      | none =>
          rw [hpg] at hswept
          refine { h with delegations := hswept, keys := ?_ }
          intro key' d' hd'
          rcases HMap.lookup_insert_cases hd' with ⟨rfl, rfl⟩ | ⟨-, hold⟩
          · exact h.keys key' d hd
          · exact h.keys key' d' hold
      | some d₀ =>
          obtain rfl : d₀ = d := h.delegations.eq_of_lookup hpg hd
          rw [hpg] at hswept
          refine { h with delegations := hswept, keys := ?_, current := ?_, parents := ?_ }
          · intro key' d' hd'
            rcases HMap.lookup_insert_cases hd' with ⟨rfl, rfl⟩ | ⟨-, hold⟩
            · exact h.keys key' d₀ hd
            · exact h.keys key' d' hold
          · intro key' d' hd'
            rcases HMap.lookup_insert_cases hd' with ⟨rfl, rfl⟩ | ⟨-, hold⟩
            · exact h.current key' d₀ hpg
            · exact h.current key' d' hold
          · intro key' d' hd'
            rcases HMap.lookup_insert_cases hd' with ⟨rfl, rfl⟩ | ⟨-, hold⟩
            · exact h.parents key' d₀ hpg
            · exact h.parents key' d' hold

/-! ### Deliveries -/

/-- The two stores find the same delegation, if it is not past its time. -/
theorem delegationById {id : Uuid} {r : DeliveryRequest}
    (hgrants : Grants i d r now) :
    pg.delegationById id = some (i, d) ↔
      memory.delegationById id = some (i, d) ∧ d.id = id := by
  constructor
  · intro hfound
    obtain ⟨key, hd, hid, hi⟩ := PgStore.delegationById_eq_some hfound
    refine ⟨?_, hid⟩
    unfold MemoryStore.delegationById
    rw [← hid, h.current key d hd, Option.bind_some, h.delegations.sub key d hd,
      Option.bind_some, h.installations.sub _ i hi]
    rfl
  · rintro ⟨hfound, hid⟩
    obtain ⟨key, hkey, hrest⟩ := Option.bind_eq_some_iff.1 hfound
    obtain ⟨d', hd', hrest⟩ := Option.bind_eq_some_iff.1 hrest
    obtain ⟨i', hi', heq⟩ := Option.map_eq_some_iff.1 hrest
    cases heq
    have hd := h.delegations.lookup_of_le hd' hgrants.delegation_time.2
    have hi := h.installations.lookup_of_le hi' hgrants.installation_time
    -- The id finds this row: every row's id leads to its own key.
    cases hfind : pg.delegations.entries.find? fun e => e.2.id = id with
    | none =>
        have hmiss := List.find?_eq_none.1 hfind ⟨key, d⟩ (HMap.mem_entries_iff.2 hd)
        exact absurd (decide_eq_true hid) hmiss
    | some e =>
        have he := HMap.mem_entries_iff.1 (List.mem_of_find?_eq_some hfind)
        have hcond := List.find?_some hfind
        have hid' : e.2.id = id := of_decide_eq_true hcond
        have hsame : e.1 = key := by
          have hcurrent := h.current e.1 e.2 he
          rw [hid', hkey] at hcurrent
          exact (Option.some.inj hcurrent).symm
        rw [hsame, hd] at he
        have hrow : d = e.2 := Option.some.inj he
        unfold PgStore.delegationById
        rw [hfind, Option.bind_some, ← hrow, hi]
        rfl

theorem withDelivery {r : DeliveryRequest} {q : QuotaRow} {quota : Int × Int}
    (hquota : QuotaAgrees now (some q) (some (quota.1, quota.2 + 1))) :
    Refines (pg.withDelivery r i q) (memory.withDelivery r i quota) now ids := by
  refine { h with auths := ?_, requests := ?_, quotas := ?_ }
  · intro key
    show (pg.deliveryAuthReplays.insert _ _).lookup key =
      (memory.deliveryAuthReplays.insert _ _).lookup key
    rw [HMap.lookup_insert_ite, HMap.lookup_insert_ite, h.auths key]
  · intro key
    show (pg.deliveryRequestReplays.insert _ _).lookup key =
      (memory.deliveryRequestReplays.insert _ _).lookup key
    rw [HMap.lookup_insert_ite, HMap.lookup_insert_ite, h.requests key]
  · intro fingerprint
    show QuotaAgrees now ((pg.endpointQuotas.insert _ _).lookup fingerprint)
      ((memory.endpointQuotas.insert _ _).lookup fingerprint)
    rw [HMap.lookup_insert_ite, HMap.lookup_insert_ite]
    split
    · exact hquota
    · exact h.quotas fingerprint

/-- Memory's quota, looked at and left as it is. -/
theorem sameQuota {fingerprint : Bytes32} {quota : Int × Int}
    (hquota : memory.endpointQuotas.lookup fingerprint = some quota) :
    Refines pg { memory with endpointQuotas := memory.endpointQuotas.insert fingerprint quota }
      now ids := by
  refine { h with quotas := fun fingerprint' => ?_ }
  rw [HMap.lookup_insert_ite]
  split
  · next heq =>
      rw [heq, ← hquota]
      exact h.quotas fingerprint
  · exact h.quotas fingerprint'

theorem finished (relay : PublicKey) (requestId : Uuid)
    (disposition : DeliveryDisposition) :
    Refines (pg.finishDelivery relay requestId disposition)
      (memory.finishDelivery relay requestId disposition) now ids := by
  cases disposition with
  | terminal => exact h
  | retryable =>
      refine { h with requests := fun key => ?_ }
      show (pg.deliveryRequestReplays.erase _).lookup key =
        (memory.deliveryRequestReplays.erase _).lookup key
      rw [HMap.lookup_erase_ite, HMap.lookup_erase_ite, h.requests key]

/-- A sweep takes from PostgreSQL what is past its time. -/
theorem reaped (hnow : (fromTimestamp now).isSome) :
    Refines (pg.reaped now) (memory.reapExpired now) now ids := by
  refine ⟨h.since, ?_, ?_, h.known, h.keys, h.delegationIds, ?_, ?_, ?_, ?_, ?_, h.owners,
    h.appKeys⟩
  · exact h.installations.sweep fun id i _ hswept => Int.not_le.1 (of_decide_eq_false hswept)
  · have hpast : ∀ key d, pg.delegations.lookup key = some d →
        (!(decide (d.expiresAt < now) ||
          (pg.installations.lookup key.1).any (·.expiresAt < now))) = false →
        d.expiresAt < now := by
      intro key d hd hswept
      rw [Bool.not_eq_false', Bool.or_eq_true, decide_eq_true_eq] at hswept
      rcases hswept with hexpired | hgone
      · exact hexpired
      · -- The installation lives as long as its delegations.
        obtain ⟨i, hi, htime⟩ := h.parents key d hd
        rw [hi, Option.any_some, decide_eq_true_eq] at hgone
        exact Int.lt_of_le_of_lt htime hgone
    exact h.delegations.sweep hpast
  · intro key d hd
    exact h.current key d (PgStore.lookup_reaped_delegations.1 hd).1
  · intro key d hd
    obtain ⟨hold, -, hparent⟩ := PgStore.lookup_reaped_delegations.1 hd
    obtain ⟨i, hi, htime⟩ := h.parents key d hold
    exact ⟨i, PgStore.lookup_reaped_installations.2 ⟨hi, hparent i hi⟩, htime⟩
  · intro key
    show (pg.deliveryAuthReplays.retain _).lookup key =
      (memory.deliveryAuthReplays.retain _).lookup key
    rw [HMap.lookup_retain, HMap.lookup_retain, h.auths key]
  · intro key
    show (pg.deliveryRequestReplays.retain _).lookup key =
      (memory.deliveryRequestReplays.retain _).lookup key
    rw [HMap.lookup_retain, HMap.lookup_retain, h.requests key]
  · intro fingerprint
    show QuotaAgrees now ((pg.endpointQuotas.retain _).lookup fingerprint)
      ((memory.endpointQuotas.retain _).lookup fingerprint)
    rw [HMap.lookup_retain, HMap.lookup_retain]
    exact (h.quotas fingerprint).sweep hnow

end

end Refines

/-! ## One call -/

/-- The stores after a call, and what they said to it. -/
structure Answers (now : Int) (ids : List Uuid) (pg : PgStore × CallResult)
    (memory : MemoryStore × CallResult) : Prop where
  refines : Refines pg.1 memory.1 now ids
  agrees : ∀ permit, pg.2 = .ok permit → memory.2 = .ok permit

/-- The calls that must not touch what only memory remembers. An enrolment that goes
through drops no expired installation whose token another one has by now. A delegation
is of an installation that was not swept, and later than one that was. A rotation is to
a token that is free, or whose owner still has it. -/
def keepsUp (s : GatewayState) (m : GatewayMove) : Prop :=
  match m.call with
  | .createInstallation n =>
      (∀ e ∈ s.memory.installations.entries, e.2.owns n = true → e.2.live m.now = false) →
        bindTimes [n.expiresAt] = none ∧
          ∀ e ∈ s.memory.installations.entries, e.2.replacedBy n m.now = true →
            ∀ e' ∈ s.memory.installations.entries, e'.2.replacedBy n m.now = false →
              e'.2.revoked = false → e'.2.tokenFingerprint ≠ e.2.tokenFingerprint
  | .upsertDelegation d =>
      ∀ i ∈ s.memory.installations.lookup d.installationId, i.revoked = false →
        i.endpointEpoch = d.endpointEpoch →
        bindTimes [d.notBefore, d.expiresAt] = none ∧
          (s.pg.installations.lookup d.installationId).isSome ∧
          (s.pg.delegations.lookup d.key = none →
            ∀ old ∈ s.memory.delegations.lookup d.key, old.generation < d.generation)
  | .rotateEndpoint id expected _ _ fingerprint =>
      ∀ i ∈ s.pg.installations.lookup id, i.revoked = false → i.endpointEpoch = expected →
        ∀ owner ∈ s.memory.tokenOwners.lookup fingerprint, owner ≠ id →
          ∃ i' ∈ s.pg.installations.lookup owner,
            i'.tokenFingerprint = fingerprint ∧ i'.revoked = false
  | _ => True

namespace Answers

variable {cfg : GatewayConfig} {pg : PgStore} {memory : MemoryStore} {now : Int}
  {ids : List Uuid} {n : NewInstallation} {d : Delegation}

/-- Memory accepts what PostgreSQL accepts, or only memory has what the call is about. -/
theorem settle {rp : Except AuthorityError PgStore} {rm : Except AuthorityError MemoryStore}
    (h : Refines pg memory now ids)
    (hok : ∀ pg', rp = .ok pg' → ∃ memory', rm = .ok memory' ∧ Refines pg' memory' now ids)
    (herror : ∀ memory', rm = .ok memory' → (∀ pg', rp ≠ .ok pg') →
      Refines pg memory' now ids) :
    Answers now ids (Gateway.settle pg rp) (Gateway.settle memory rm) := by
  cases rp with
  | ok pg' =>
      obtain ⟨memory', rfl, hrefines⟩ := hok pg' rfl
      exact ⟨hrefines, fun permit hpermit => hpermit⟩
  | error e =>
      cases rm with
      | ok memory' => exact ⟨herror memory' rfl nofun, nofun⟩
      | error e' => exact ⟨h, nofun⟩

section

variable (h : Refines pg memory now ids)
include h

theorem create (hid : n.id ∈ ids)
    (hfresh : memory.installations.lookup n.id = none)
    (hnow : (fromTimestamp now).isSome) (hchecked : n.checked = true)
    (hkeeps : (∀ id i, memory.installations.lookup id = some i → i.owns n = true →
      i.live now = false) →
      bindTimes [n.expiresAt] = none ∧
      ∀ id i, memory.installations.lookup id = some i → i.replacedBy n now = true →
      ∀ id' i', memory.installations.lookup id' = some i' → i'.replacedBy n now = false →
      i'.revoked = false → i'.tokenFingerprint ≠ i.tokenFingerprint) :
    Answers now ids (Gateway.settle pg (pg.createInstallation n now))
      (Gateway.settle memory (memory.createInstallation n now)) := by
  refine settle h ?_ ?_
  · intro pg' hok
    obtain ⟨-, hdead, -, -, -, rfl⟩ := PgStore.createInstallation_eq_ok.1 hok
    have hdead' := h.live_iff.1 hdead
    exact ⟨_, createInstallation_eq_ok.2 ⟨hfresh, hdead', rfl⟩,
      h.enrolled hid hfresh hdead' (hkeeps hdead').2⟩
  · intro memory' hok hrefused
    obtain ⟨-, hdead, -⟩ := createInstallation_eq_ok.1 hok
    refine absurd (PgStore.createInstallation_eq_ok.2
      ⟨hnow, h.live_iff.2 hdead, (hkeeps hdead).1, hchecked, fun i hi => ?_, rfl⟩) (hrefused _)
    rw [h.installations.sub _ i hi] at hfresh
    cases hfresh

theorem advance (id : Uuid) (previous next : UInt32) :
    Answers now ids (Gateway.settle pg (pg.advanceAssertionCounter id previous next))
      (Gateway.settle memory (memory.advanceAssertionCounter id previous next)) := by
  have hrewrites : ∀ i : Installation,
      Refines.Installation.Rewrites i { i with assertionCounter := next } :=
    fun _ => ⟨rfl, rfl, rfl, fun hrevoked => hrevoked⟩
  refine settle h ?_ ?_
  · intro pg' hok
    obtain ⟨hless, i, hi, hprevious, rfl⟩ := PgStore.advanceAssertionCounter_eq_ok.1 hok
    have hi' := h.installations.sub _ i hi
    have hupdated := h.updated hi' (hrewrites i) rfl
    rw [hi] at hupdated
    exact ⟨_, advanceAssertionCounter_eq_ok.2 ⟨hless, i, hi', hprevious, rfl⟩,
      hupdated⟩
  · intro memory' hok hrefused
    obtain ⟨hless, i, hi, hprevious, rfl⟩ := advanceAssertionCounter_eq_ok.1 hok
    have hupdated := h.updated hi (hrewrites i) rfl
    cases hpg : pg.installations.lookup id with
    | none =>
        rw [hpg] at hupdated
        exact hupdated
    | some i' =>
        obtain rfl : i' = i := h.installations.eq_of_lookup hpg hi
        exact absurd (PgStore.advanceAssertionCounter_eq_ok.2 ⟨hless, i', hpg, hprevious, rfl⟩)
          (hrefused _)

theorem upsert (hid : d.id ∈ ids)
    (hfresh : memory.delegationIds.lookup d.id = none)
    (hchecked : d.checked = true) (hrevoked : d.revoked = false)
    (hkeeps : ∀ i, memory.installations.lookup d.installationId = some i → i.revoked = false →
      i.endpointEpoch = d.endpointEpoch →
      bindTimes [d.notBefore, d.expiresAt] = none ∧
      (pg.installations.lookup d.installationId).isSome ∧
      (pg.delegations.lookup d.key = none →
      ∀ old, memory.delegations.lookup d.key = some old → old.generation < d.generation)) :
    Answers now ids (Gateway.settle pg (pg.upsertDelegation d))
      (Gateway.settle memory (memory.upsertDelegation d)) := by
  have hranges : 1 ≤ d.generation ∧ d.notBefore < d.expiresAt := by
    unfold Delegation.checked at hchecked
    simp only [Bool.and_eq_true, decide_eq_true_eq] at hchecked
    exact ⟨hchecked.1.2, hchecked.2⟩
  refine settle h ?_ ?_
  · intro pg' hok
    obtain ⟨i, hi, hlive, hepoch, -, -, hless, -, rfl⟩ := PgStore.upsertDelegation_eq_ok.1 hok
    refine ⟨_, upsertDelegation_eq_ok.2 ⟨i, h.installations.sub _ i hi, hlive, hepoch,
      hranges.1, hranges.2, fun old hold => ?_, hfresh, rfl⟩, h.delegated hi hfresh hid hrevoked⟩
    cases hpg : pg.delegations.lookup d.key with
    | none => exact (hkeeps i (h.installations.sub _ i hi) hlive hepoch).2.2 hpg old hold
    | some old' =>
        obtain rfl : old' = old := h.delegations.eq_of_lookup hpg hold
        exact hless old' hpg
  · intro memory' hok hrefused
    obtain ⟨i, hi, hlive, hepoch, -, -, hless, -⟩ := upsertDelegation_eq_ok.1 hok
    obtain ⟨hbind, hsome, -⟩ := hkeeps i hi hlive hepoch
    obtain ⟨i', hi'⟩ := Option.isSome_iff_exists.1 hsome
    obtain rfl : i' = i := h.installations.eq_of_lookup hi' hi
    refine absurd (PgStore.upsertDelegation_eq_ok.2 ⟨i', hi', hlive, hepoch, hbind, hchecked,
      fun old hold => hless old (h.delegations.sub _ old hold), fun key old hold hne heq => ?_,
      rfl⟩) (hrefused _)
    have hcurrent := h.current key old hold
    rw [heq, hfresh] at hcurrent
    cases hcurrent

theorem rotate {id : Uuid} {expected new : Int} {ciphertext : List UInt8}
    {fingerprint : Bytes32} (hnonempty : ciphertext ≠ [])
    (hlength : ciphertext.length ≤ 2048)
    (howner : ∀ i, pg.installations.lookup id = some i → i.revoked = false →
      i.endpointEpoch = expected → ∀ owner, memory.tokenOwners.lookup fingerprint = some owner →
      owner ≠ id → ∃ i', pg.installations.lookup owner = some i' ∧
      i'.tokenFingerprint = fingerprint ∧ i'.revoked = false) :
    Answers now ids
      (Gateway.settle pg (pg.rotateEndpoint id expected new ciphertext fingerprint))
      (Gateway.settle memory (memory.rotateEndpoint id expected new ciphertext fingerprint)) := by
  refine settle h ?_ ?_
  · intro pg' hok
    obtain ⟨hepoch, i, hi, hexpected, hlive, -, -, hfree, rfl⟩ :=
      PgStore.rotateEndpoint_eq_ok.1 hok
    have hi' := h.installations.sub _ i hi
    have hown : ∀ owner, memory.tokenOwners.lookup fingerprint = some owner → owner = id := by
      intro owner hlookup
      by_contra hne
      obtain ⟨i', hi', htoken, hrevoked⟩ := howner i hi hlive hexpected owner hlookup hne
      rw [hfree owner i' hi' hne htoken] at hrevoked
      cases hrevoked
    have hrotated := h.rotated new ciphertext hi' hlive hown
    rw [hi] at hrotated
    exact ⟨_, rotateEndpoint_eq_ok.2 ⟨hepoch, i, hi', hlive, hexpected, hown, rfl⟩,
      hrotated⟩
  · intro memory' hok hrefused
    obtain ⟨hepoch, i, hi, hlive, hexpected, hown, rfl⟩ := rotateEndpoint_eq_ok.1 hok
    have hrotated := h.rotated new ciphertext hi hlive hown
    cases hpg : pg.installations.lookup id with
    | none =>
        rw [hpg] at hrotated
        exact hrotated
    | some i' =>
        obtain rfl : i' = i := h.installations.eq_of_lookup hpg hi
        refine absurd (PgStore.rotateEndpoint_eq_ok.2 ⟨hepoch, i', hpg, hexpected, hlive,
          hnonempty, hlength, fun id₁ i₁ hi₁ hne htoken => ?_, rfl⟩) (hrefused _)
        by_contra hrevoked
        have hother := h.owners id₁ i₁ (h.installations.sub _ i₁ hi₁) (Bool.eq_false_iff.2 hrevoked)
        exact hne (hown id₁ (htoken ▸ hother))

theorem revoke (id : Uuid) (relay : PublicKey) (generation : Int) :
    Answers now ids (Gateway.settle pg (pg.revokeDelegation id relay generation))
      (Gateway.settle memory (memory.revokeDelegation id relay generation)) := by
  refine settle h ?_ ?_
  · intro pg' hok
    obtain ⟨d, hd, hgeneration, rfl⟩ := PgStore.revokeDelegation_eq_ok.1 hok
    have hd' := h.delegations.sub _ d hd
    have hrefines := h.withoutDelegation hd'
    rw [hd] at hrefines
    exact ⟨_, revokeDelegation_eq_ok.2 ⟨d, hd', hgeneration, rfl⟩, hrefines⟩
  · intro memory' hok hrefused
    obtain ⟨d, hd, hgeneration, rfl⟩ := revokeDelegation_eq_ok.1 hok
    have hrefines := h.withoutDelegation hd
    cases hpg : pg.delegations.lookup (id, relay) with
    | none =>
        rw [hpg] at hrefines
        exact hrefines
    | some d' =>
        obtain rfl : d' = d := h.delegations.eq_of_lookup hpg hd
        exact absurd (PgStore.revokeDelegation_eq_ok.2 ⟨d', hpg, hgeneration, rfl⟩) (hrefused _)

theorem revokeAll (id : Uuid) (expected new : Int) :
    Answers now ids (Gateway.settle pg (pg.revokeInstallation id expected new))
      (Gateway.settle memory (memory.revokeInstallation id expected new)) := by
  have hrewrites : ∀ i : Installation, i.revoked = false →
      Refines.Installation.Rewrites i { i with endpointEpoch := new, revoked := true } :=
    fun _ hlive => ⟨rfl, rfl, rfl, fun _ => hlive⟩
  refine settle h ?_ ?_
  · intro pg' hok
    obtain ⟨hepoch, i, hi, hcases⟩ := PgStore.revokeInstallation_eq_ok.1 hok
    have hi' := h.installations.sub _ i hi
    rcases hcases with ⟨hrevoked, hnew, rfl⟩ | ⟨hlive, hexpected, rfl⟩
    · exact ⟨_, revokeInstallation_eq_ok.2
        ⟨hepoch, i, hi', .inl ⟨hrevoked, hnew, rfl⟩⟩, h⟩
    · have hupdated := h.updated hi' (hrewrites i hlive) rfl
      rw [hi] at hupdated
      exact ⟨_, revokeInstallation_eq_ok.2
        ⟨hepoch, i, hi', .inr ⟨hlive, hexpected, rfl⟩⟩, hupdated⟩
  · intro memory' hok hrefused
    obtain ⟨hepoch, i, hi, hcases⟩ := revokeInstallation_eq_ok.1 hok
    rcases hcases with ⟨-, -, rfl⟩ | ⟨hlive, hexpected, rfl⟩
    · exact h
    · have hupdated := h.updated hi (hrewrites i hlive) rfl
      cases hpg : pg.installations.lookup id with
      | none =>
          rw [hpg] at hupdated
          exact hupdated
      | some i' =>
          obtain rfl : i' = i := h.installations.eq_of_lookup hpg hi
          exact absurd (PgStore.revokeInstallation_eq_ok.2
            ⟨hepoch, i', hpg, .inr ⟨hlive, hexpected, rfl⟩⟩) (hrefused _)

omit h in
/-- A delivery that is not admitted leaves PostgreSQL as it is. -/
theorem call_refused (cfg : GatewayConfig) {r : DeliveryRequest}
    (h : ∀ pg' permit, pg.authorizeDelivery cfg r now ≠ .ok (pg', permit)) :
    ∃ e, pg.call cfg now (.authorizeDelivery r) = (pg, .error e) := by
  unfold PgStore.call
  dsimp only
  cases hresult : pg.authorizeDelivery cfg r now with
  | ok found => exact absurd hresult (h found.1 found.2)
  | error e => exact ⟨e, rfl⟩

/-- A delivery is admitted by both, with one permit, or by neither. -/
theorem authorize (hnow : (fromTimestamp now).isSome) (r : DeliveryRequest) :
    Answers now ids (pg.call cfg now (.authorizeDelivery r))
      (memory.call cfg now (.authorizeDelivery r)) := by
  have hbind : bindTimes [now] = none := bindTimes_singleton.2 ⟨hnow, h.since⟩
  by_cases hallows : ∃ i d, memory.Allows r now i d
  · obtain ⟨i, d, hallows⟩ := hallows
    have hfound := (h.delegationById hallows.grants).2 ⟨hallows.found, hallows.current⟩
    have hid : d.installationId = i.id := by
      obtain ⟨key, hd, -, hi⟩ := PgStore.delegationById_eq_some hfound
      exact (h.known _ i (h.installations.sub _ i hi)).1.symm
    unfold call
    dsimp only
    rw [authorizeDelivery_of_allows hallows]
    rcases (h.quotas i.tokenFingerprint).take cfg hnow h.since with
      ⟨q, htake, hroom, hquota⟩ | ⟨hfull, hnoroom, hsame⟩
    · have hok : pg.authorizeDelivery cfg r now =
          .ok (pg.withDelivery r i q, r.permit d.installationId i d) :=
        PgStore.authorizeDelivery_eq_ok.2 ⟨i, d, q, hfound, hbind, hallows.grants, htake,
          (h.auths _).trans hallows.auth, (h.requests _).trans hallows.request, rfl, rfl⟩
      unfold PgStore.call
      dsimp only
      rw [hok, if_neg (Int.not_le.2 hroom), hid]
      exact ⟨h.withDelivery hquota, fun _ hpermit => hpermit⟩
    · have hnot : ∀ pg' permit, pg.authorizeDelivery cfg r now ≠ .ok (pg', permit) := by
        intro pg' permit hok
        obtain ⟨i', d', q, hfound', -, -, htake, -⟩ := PgStore.authorizeDelivery_eq_ok.1 hok
        rw [hfound] at hfound'
        cases hfound'
        rw [hfull] at htake
        cases htake
      obtain ⟨e, hcall⟩ := call_refused cfg hnot
      rw [hcall, if_pos hnoroom]
      exact ⟨h.sameQuota hsame, nofun⟩
  · have hrefused : memory.authorizeDelivery cfg r now = (memory, .error .rejected) :=
      authorizeDelivery_of_refused fun i d hid => hallows ⟨i, d, hid⟩
    have hnot : ∀ pg' permit, pg.authorizeDelivery cfg r now ≠ .ok (pg', permit) := by
      intro pg' permit hok
      obtain ⟨i, d, q, hfound, -, hgrants, -, hauth, hrequest, -⟩ :=
        PgStore.authorizeDelivery_eq_ok.1 hok
      obtain ⟨hfound', hid⟩ := (h.delegationById hgrants).1 hfound
      exact hallows ⟨i, d, hfound', hid, hgrants, (h.auths _).symm.trans hauth,
        (h.requests _).symm.trans hrequest⟩
    obtain ⟨e, hcall⟩ := call_refused cfg hnot
    unfold call
    dsimp only
    rw [hcall, hrefused]
    exact ⟨h, nofun⟩

theorem finish (relay : PublicKey) (requestId : Uuid)
    (disposition : DeliveryDisposition) :
    Answers now ids (pg.call cfg now (.finishDelivery relay requestId disposition))
      (memory.call cfg now (.finishDelivery relay requestId disposition)) :=
  ⟨h.finished relay requestId disposition, fun _ hpermit => hpermit⟩

theorem reap (hnow : (fromTimestamp now).isSome) :
    Answers now ids (pg.call cfg now .reapExpired) (memory.call cfg now .reapExpired) := by
  have hok : pg.reapExpired now = .ok (pg.reaped now) :=
    PgStore.reapExpired_eq_ok.2 ⟨bindTimes_singleton.2 ⟨hnow, h.since⟩, rfl⟩
  unfold PgStore.call
  rw [hok]
  exact ⟨h.reaped hnow, fun _ hpermit => hpermit⟩

end

end Answers

instance (s : GatewayState) : DecidablePred (keepsUp s) := fun ⟨_, call⟩ =>
  match call with
  | .createInstallation _ => inferInstanceAs (Decidable (_ → _ ∧ _))
  | .upsertDelegation _ =>
      inferInstanceAs (Decidable (∀ i ∈ s.memory.installations.lookup _, _ → _ → _ ∧ _ ∧ _))
  | .rotateEndpoint _ _ _ _ _ =>
      inferInstanceAs (Decidable (∀ i ∈ s.pg.installations.lookup _, _ → _ → _))
  | .advanceAssertionCounter _ _ _ | .revokeDelegation _ _ _ | .revokeInstallation _ _ _
  | .authorizeDelivery _ | .finishDelivery _ _ _ | .reapExpired => isTrue trivial

/-! ## Whole runs -/

section Runs

variable {cfg : GatewayConfig} {s : GatewayState} {m : GatewayMove}

theorem NewInstallation.checked_of_checked {n : NewInstallation} {now : Int}
    (h : AuthorityCall.checked cfg now (.createInstallation n)) : n.checked = true := by
  unfold AuthorityCall.checked at h
  unfold NewInstallation.checked
  simp only [Bool.and_eq_true, decide_eq_true_eq] at h ⊢
  omega

theorem Delegation.checked_of_checked {d : Delegation} {now : Int}
    (h : AuthorityCall.checked cfg now (.upsertDelegation d)) :
    d.checked = true ∧ d.revoked = false := by
  unfold AuthorityCall.checked at h
  unfold Delegation.checked
  simp only [Bool.and_eq_true, decide_eq_true_eq, Bool.not_eq_true'] at h ⊢
  exact ⟨⟨⟨h.1.1.1.1.1, h.1.1.1.1.2⟩, h.1.1.2⟩, h.2⟩

/-- The stores stay together in the next call, and what PostgreSQL accepts in it memory
accepts. -/
theorem Refines.call (h : Refines s.pg s.memory s.clock s.ids) (hadmitted : Admitted cfg s m)
    (hkeeps : keepsUp s m) :
    Answers m.now (m.call.newIds ++ s.ids) (s.pg.call cfg m.now m.call)
      (s.memory.call cfg m.now m.call) := by
  obtain ⟨hclock, hnow, hfresh, hchecked⟩ := hadmitted
  obtain ⟨now, call⟩ := m
  have hlater : Refines s.pg s.memory now (call.newIds ++ s.ids) :=
    h.mono hclock (List.subset_append_right _ _)
  cases call with
  | createInstallation n =>
      have hnew : s.memory.installations.lookup n.id = none := by
        rw [Option.eq_none_iff_forall_ne_some]
        intro i hi
        exact hfresh n.id (List.mem_singleton_self _) (h.known n.id i hi).2
      refine Answers.create hlater List.mem_cons_self hnew hnow
        (NewInstallation.checked_of_checked hchecked) fun hdead => ?_
      obtain ⟨hbind, hkeeps⟩ := hkeeps fun e he => hdead e.1 e.2 (HMap.mem_entries_iff.1 he)
      exact ⟨hbind, fun id i hi hreplaced id' i' hi' => hkeeps ⟨id, i⟩ (HMap.mem_entries_iff.2 hi)
        hreplaced ⟨id', i'⟩ (HMap.mem_entries_iff.2 hi')⟩
  | advanceAssertionCounter id previous next => exact Answers.advance hlater id previous next
  | upsertDelegation d =>
      have hnew : s.memory.delegationIds.lookup d.id = none := by
        rw [Option.eq_none_iff_forall_ne_some]
        intro key hkey
        exact hfresh d.id (List.mem_singleton_self _) (h.delegationIds d.id key hkey)
      obtain ⟨hranges, hlive⟩ := Delegation.checked_of_checked hchecked
      exact Answers.upsert hlater List.mem_cons_self hnew hranges hlive hkeeps
  | rotateEndpoint id expected new ciphertext fingerprint =>
      have hlength : 1 ≤ ciphertext.length ∧ ciphertext.length ≤ 2048 := by
        unfold AuthorityCall.checked at hchecked
        simp only [Bool.and_eq_true, decide_eq_true_eq] at hchecked
        exact ⟨hchecked.1.2, hchecked.2⟩
      exact Answers.rotate hlater (List.length_pos_iff.1 hlength.1) hlength.2 hkeeps
  | revokeDelegation id relay generation => exact Answers.revoke hlater id relay generation
  | revokeInstallation id expected new => exact Answers.revokeAll hlater id expected new
  | authorizeDelivery r => exact Answers.authorize hlater hnow r
  | finishDelivery relay requestId disposition =>
      exact Answers.finish hlater relay requestId disposition
  | reapExpired => exact Answers.reap hlater hnow

theorem Refines.init : Refines {} {} minTimestamptz [] where
  since := Int.le_refl _
  installations := ⟨fun _ _ h => h, fun _ _ h => by cases h⟩
  delegations := ⟨fun _ _ h => h, fun _ _ h => by cases h⟩
  known _ _ h := by cases h
  keys _ _ h := by cases h
  delegationIds _ _ h := by cases h
  current _ _ h := by cases h
  parents _ _ h := by cases h
  auths _ := rfl
  requests _ := rfl
  quotas _ := trivial
  owners _ _ h := by cases h
  appKeys _ _ _ _ h := by cases h

theorem Refines.run {ms : List GatewayMove}
    (hms : (gatewayMachine cfg).Meets (fun s m => Admitted cfg s m ∧ keepsUp s m)
      (gatewayMachine cfg).init ms) :
    Refines ((gatewayMachine cfg).run ms).pg ((gatewayMachine cfg).run ms).memory
      ((gatewayMachine cfg).run ms).clock ((gatewayMachine cfg).run ms).ids :=
  (gatewayMachine cfg).inv_run (I := fun s => Refines s.pg s.memory s.clock s.ids) .init
    (fun _ _ h hm => (h.call hm.1 hm.2).refines) hms

/-- No two installations that are neither revoked nor expired have one token or one app
instance. -/
def SoleOwners (installations : HMap Uuid Installation) (now : Int) : Prop :=
  ∀ id id' i i', installations.lookup id = some i → installations.lookup id' = some i' →
    i.live now = true → i'.live now = true →
    i.tokenFingerprint = i'.tokenFingerprint ∨ i.appAttestKeyId = i'.appAttestKeyId → id = id'

/-- What PostgreSQL accepts anywhere in a run memory accepts, with the same permit; and
tokens and app instances have one owner in both. -/
structure Mirrors (cfg : GatewayConfig) (ms : List GatewayMove) : Prop where
  answers : ∀ pre m post permit, ms = pre ++ m :: post →
    (((gatewayMachine cfg).run pre).pg.call cfg m.now m.call).2 = .ok permit →
    (((gatewayMachine cfg).run pre).memory.call cfg m.now m.call).2 = .ok permit
  owners : SoleOwners ((gatewayMachine cfg).run ms).pg.installations
    ((gatewayMachine cfg).run ms).clock
  memoryOwners : SoleOwners ((gatewayMachine cfg).run ms).memory.installations
    ((gatewayMachine cfg).run ms).clock

theorem Refines.soleOwners (h : Refines s.pg s.memory s.clock s.ids) :
    SoleOwners s.memory.installations s.clock := by
  intro id id' i i' hi hi' hlive hlive' hsame
  unfold Installation.live at hlive hlive'
  rw [Bool.and_eq_true, Bool.not_eq_true'] at hlive hlive'
  rcases hsame with htoken | hkey
  · have howner := h.owners id i hi hlive.1
    rw [htoken, h.owners id' i' hi' hlive'.1] at howner
    exact (Option.some.inj howner).symm
  · exact h.appKeys id id' i i' hi hi' hlive.1 hlive'.1 hkey

/-- PostgreSQL accepts nothing that the reference refuses, in every run in which no call
touches what only the reference remembers. -/
theorem postgres_refines_memory (cfg : GatewayConfig) (ms : List GatewayMove)
    (hms : (gatewayMachine cfg).Meets (fun s m => Admitted cfg s m ∧ keepsUp s m)
      (gatewayMachine cfg).init ms) : Mirrors cfg ms := by
  have hrefines := Refines.run hms
  refine ⟨?_, ?_, hrefines.soleOwners⟩
  · rintro pre m post permit rfl hok
    obtain ⟨hpre, hcond, -⟩ := (gatewayMachine cfg).meets_append.1 hms
    exact ((Refines.run hpre).call hcond.1 hcond.2).agrees permit hok
  · intro id id' i i' hi hi'
    exact hrefines.soleOwners id id' i i' (hrefines.installations.sub id i hi)
      (hrefines.installations.sub id' i' hi')

/-- A day of delegation at most. -/
def dayConfig : GatewayConfig := .ofGrantLifetime 86400 (by decide)

/-- A phone that enrols with its token. -/
def phone (id key token : UInt8) : NewInstallation where
  id := .ofByte id
  appAttestKeyId := List.replicate 32 key
  appAttestPublicKey := List.replicate 65 key
  assertionCounter := 0
  tokenCiphertext := [token]
  tokenFingerprint := .ofByte token
  endpointEpoch := 1
  expiresAt := 3600

/-- A phone that delegates, gets a delivery and a new token, and is swept in the end. -/
def phoneLife : List GatewayMove :=
  let delegation : Delegation :=
    { id := .ofByte 6, installationId := .ofByte 1, relayPubkey := .ofByte 7, endpointEpoch := 1
      generation := 1, notBefore := 0, expiresAt := 90, revoked := false }
  let request : DeliveryRequest :=
    { delegationId := .ofByte 6, relay := .ofByte 7, epoch := 1, generation := 1
      eventId := .ofByte 8, requestId := .ofByte 9, requestExpiresAt := 60 }
  [⟨0, .createInstallation (phone 1 2 3)⟩, ⟨0, .upsertDelegation delegation⟩,
    ⟨30, .authorizeDelivery request⟩, ⟨40, .rotateEndpoint (.ofByte 1) 1 2 [4] (.ofByte 4)⟩,
    ⟨50, .revokeInstallation (.ofByte 1) 2 3⟩, ⟨4000, .reapExpired⟩]

theorem phoneLife_mirrored : Mirrors dayConfig phoneLife :=
  postgres_refines_memory dayConfig phoneLife (by decide +kernel)

/-- The token of a phone that was revoked goes to another one. -/
def passedOn : List GatewayMove :=
  [⟨0, .createInstallation (phone 1 2 3)⟩, ⟨10, .revokeInstallation (.ofByte 1) 1 2⟩,
    ⟨20, .createInstallation (phone 4 5 6)⟩]

/-- PostgreSQL lets it, memory still has the first phone as the token's owner. -/
theorem passedOn_refused :
    ¬ ∀ ms : List GatewayMove,
      (gatewayMachine dayConfig).Meets (Admitted dayConfig) (gatewayMachine dayConfig).init ms →
      Mirrors dayConfig ms := by
  intro h
  let rotation : GatewayMove := ⟨30, .rotateEndpoint (.ofByte 4) 1 2 [3] (.ofByte 3)⟩
  have hanswers := (h (passedOn ++ [rotation]) (by decide +kernel)).answers passedOn rotation []
    none rfl
  have hmemory := hanswers (by decide +kernel)
  exact absurd hmemory (by decide +kernel)

end Runs

end Buzz.Gateway
