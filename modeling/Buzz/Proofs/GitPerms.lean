import Buzz.Core.GitPerms

/-!
# The push policy is monotone and order-free

The evaluation of an update reads like a cascade of checks, but it comes down
to one condition on the role and one condition on each rule by itself:
`evaluateRefUpdate_ok_iff`. The fold over the rules has a matching reading,
`forRef_add`: the flags are unions and the push role is met exactly when the
push role of every matching rule is. A condition of the form "every rule
permits" can only get harder to meet when rules are added, does not look at
their order or number, and is easier for a higher role.
-/

namespace Buzz.Core

variable {update : RefUpdate} {updates : List RefUpdate} {role role' : MemberRole}
  {rule : ProtectionRule} {rules rules' : List ProtectionRule} {refName : String}
  {effective : EffectiveRules}

theorem MemberRole.hasAtLeast_iff {required : MemberRole} :
    role.hasAtLeast required = true ↔ required.permissionLevel ≤ role.permissionLevel :=
  decide_eq_true_iff

theorem MemberRole.hasAtLeast_strictest {existing : Option MemberRole} {required : MemberRole} :
    role.hasAtLeast (.strictest existing required) = true ↔
      (∀ r, existing = some r → role.hasAtLeast r = true) ∧
        role.hasAtLeast required = true := by
  cases existing with
  | none => simp [MemberRole.strictest]
  | some r =>
      simp only [MemberRole.strictest, Option.some.injEq, forall_eq', hasAtLeast_iff]
      split <;> omega

/-- The push role of the union is met by a role. -/
def EffectiveRules.RoleMet (effective : EffectiveRules) (role : MemberRole) : Prop :=
  ∀ required, effective.pushRole = some required → role.hasAtLeast required = true

theorem EffectiveRules.hasAtLeast_minRole {defaultRole : MemberRole} :
    role.hasAtLeast (effective.minRole defaultRole) = true ↔
      role.hasAtLeast defaultRole = true ∧ effective.RoleMet role := by
  unfold minRole RoleMet
  cases effective.pushRole with
  | none => simp
  | some explicit =>
      simp only [Option.some.injEq, forall_eq', MemberRole.hasAtLeast_iff]
      split <;> omega

/-- What a rule by itself asks of an update by someone of this role. -/
structure ProtectionRule.Permits (rule : ProtectionRule) (update : RefUpdate)
    (role : MemberRole) : Prop where
  direct : rule.requirePatch = false
  role : ∀ required, rule.pushRole = some required → role.hasAtLeast required = true
  force : update.kind = .nonFastForward → rule.noForcePush = false
  delete : update.kind = .delete → rule.noDelete = false

/-- The same of the union of rules. -/
structure EffectiveRules.Permits (effective : EffectiveRules) (update : RefUpdate)
    (role : MemberRole) : Prop where
  direct : effective.requirePatch = false
  role : effective.RoleMet role
  force : update.kind = .nonFastForward → effective.noForcePush = false
  delete : update.kind = .delete → effective.noDelete = false

theorem add_permits_iff (hmatch : rule.pattern.matchesRef refName = true) :
    (effective.add refName rule).Permits update role ↔
      effective.Permits update role ∧ rule.Permits update role := by
  unfold EffectiveRules.add
  rw [if_pos hmatch]
  constructor
  · rintro ⟨hdirect, hrole, hforce, hdelete⟩
    simp only [Bool.or_eq_false_iff] at hdirect hforce hdelete
    have hboth : effective.RoleMet role ∧
        ∀ required, rule.pushRole = some required → role.hasAtLeast required = true := by
      cases hpush : rule.pushRole with
      | none =>
          refine ⟨fun required hrequired => hrole required ?_, fun _ h => by cases h⟩
          simp only [hpush]
          exact hrequired
      | some required =>
          have hmet := hrole (.strictest effective.pushRole required) (by simp only [hpush])
          obtain ⟨hold, hnew⟩ := MemberRole.hasAtLeast_strictest.1 hmet
          exact ⟨hold, fun _ h => by cases h; exact hnew⟩
    exact ⟨⟨hdirect.1, hboth.1, fun h => (hforce h).1, fun h => (hdelete h).1⟩,
      ⟨hdirect.2, hboth.2, fun h => (hforce h).2, fun h => (hdelete h).2⟩⟩
  · rintro ⟨hold, hrule⟩
    refine ⟨?_, fun required hrequired => ?_, fun h => ?_, fun h => ?_⟩
    · simp only [hold.direct, hrule.direct, Bool.or_self]
    · cases hpush : rule.pushRole with
      | none =>
          simp only [hpush] at hrequired
          exact hold.role required hrequired
      | some new =>
          simp only [hpush, Option.some.injEq] at hrequired
          rw [← hrequired]
          exact MemberRole.hasAtLeast_strictest.2 ⟨hold.role, hrule.role new hpush⟩
    · simp only [hold.force h, hrule.force h, Bool.or_self]
    · simp only [hold.delete h, hrule.delete h, Bool.or_self]

/-- The fold over the rules, read rule by rule. -/
theorem foldl_add_permits_iff :
    (rules.foldl (EffectiveRules.add refName) effective).Permits update role ↔
      effective.Permits update role ∧
        ∀ rule ∈ rules, rule.pattern.matchesRef refName = true → rule.Permits update role := by
  induction rules generalizing effective with
  | nil => simp
  | cons rule rules ih =>
      rw [List.foldl_cons, ih]
      by_cases hmatch : rule.pattern.matchesRef refName = true
      · rw [add_permits_iff hmatch, and_assoc]
        simp [hmatch]
      · have hskip : effective.add refName rule = effective := if_neg hmatch
        rw [hskip]
        simp [hmatch]

theorem foldl_add_hasExplicitMatch :
    (rules.foldl (EffectiveRules.add refName) effective).hasExplicitMatch = false ↔
      effective.hasExplicitMatch = false ∧
        ∀ rule ∈ rules, rule.pattern.matchesRef refName = false := by
  induction rules generalizing effective with
  | nil => simp
  | cons rule rules ih =>
      rw [List.foldl_cons, ih]
      unfold EffectiveRules.add
      by_cases hmatch : rule.pattern.matchesRef refName = true <;> simp [hmatch]

theorem forRef_permits_iff :
    (EffectiveRules.forRef refName rules).Permits update role ↔
      ∀ rule ∈ rules, rule.pattern.matchesRef refName = true → rule.Permits update role := by
  unfold EffectiveRules.forRef
  rw [foldl_add_permits_iff]
  have hnone : EffectiveRules.Permits {} update role :=
    ⟨rfl, fun _ h => (by cases h), fun _ => rfl, fun _ => rfl⟩
  simp [hnone]

/-- An update is allowed when the role meets the built-in minimum and every
rule that matches the ref permits it. -/
theorem evaluateRefUpdate_ok_iff :
    evaluateRefUpdate update role rules = .ok () ↔
      role.hasAtLeast (defaultMinRole update.refName update.kind) = true ∧
        ∀ rule ∈ rules, rule.pattern.matchesRef update.refName = true →
          rule.Permits update role := by
  rw [← forRef_permits_iff]
  unfold evaluateRefUpdate
  dsimp only
  by_cases hexplicit : (EffectiveRules.forRef update.refName rules).hasExplicitMatch = true
  · rw [if_neg (by simp [hexplicit])]
    constructor
    · intro h
      split at h
      · cases h
      · next hdirect =>
          split at h
          · cases h
          · next hmin =>
              split at h
              · cases h
              · next hforce =>
                  split at h
                  · cases h
                  · next hdelete =>
                      rw [Bool.not_eq_true', Bool.not_eq_false,
                        EffectiveRules.hasAtLeast_minRole] at hmin
                      refine ⟨hmin.1, by simpa using hdirect, hmin.2, ?_, ?_⟩
                      · intro hkind
                        simpa [hkind] using hforce
                      · intro hkind
                        simpa [hkind] using hdelete
    · rintro ⟨hdefault, hdirect, hrole, hforce, hdelete⟩
      rw [if_neg (by simp [hdirect]), if_neg, if_neg, if_neg]
      · intro h
        simp only [Bool.and_eq_true, decide_eq_true_eq] at h
        rw [hdelete h.2] at h
        exact Bool.false_ne_true h.1
      · intro h
        simp only [Bool.and_eq_true, decide_eq_true_eq] at h
        rw [hforce h.2] at h
        exact Bool.false_ne_true h.1
      · rw [Bool.not_eq_true', Bool.not_eq_false, EffectiveRules.hasAtLeast_minRole]
        exact ⟨hdefault, hrole⟩
  · -- without a match no rule has anything to say
    rw [Bool.not_eq_true] at hexplicit
    have hnone := (foldl_add_hasExplicitMatch.1 hexplicit).2
    have hpermits : (EffectiveRules.forRef update.refName rules).Permits update role := by
      rw [forRef_permits_iff]
      intro rule hrule hmatch
      rw [hnone rule hrule] at hmatch
      cases hmatch
    rw [if_pos (by simp [hexplicit])]
    constructor
    · intro h
      split at h
      · cases h
      · next hrole => exact ⟨by simpa using hrole, hpermits⟩
    · rintro ⟨hrole, -⟩
      rw [if_neg (by simp [hrole])]

theorem evaluatePush_ok_iff :
    evaluatePush updates role rules = .ok () ↔
      ∀ update ∈ updates, evaluateRefUpdate update role rules = .ok () := by
  unfold evaluatePush
  dsimp only
  split
  · next h =>
      refine ⟨fun _ update hmem => ?_, fun _ => rfl⟩
      have hnone := List.filterMap_eq_nil_iff.1 (List.isEmpty_iff.1 h) update hmem
      split at hnone
      · next hok => exact hok
      · cases hnone
  · next h =>
      refine ⟨fun hok => (by cases hok), fun hall => absurd ?_ h⟩
      rw [List.isEmpty_iff, List.filterMap_eq_nil_iff]
      intro update hmem
      rw [hall update hmem]

theorem evaluateRefUpdate_mono (hsub : ∀ rule ∈ rules, rule ∈ rules')
    (h : evaluateRefUpdate update role rules' = .ok ()) :
    evaluateRefUpdate update role rules = .ok () := by
  rw [evaluateRefUpdate_ok_iff] at h ⊢
  exact ⟨h.1, fun rule hrule => h.2 rule (hsub rule hrule)⟩

theorem ProtectionRule.Permits.raise (hlevel : role.permissionLevel ≤ role'.permissionLevel)
    (h : rule.Permits update role) : rule.Permits update role' :=
  ⟨h.direct, fun required hrequired => MemberRole.hasAtLeast_iff.2
    ((MemberRole.hasAtLeast_iff.1 (h.role required hrequired)).trans hlevel), h.force, h.delete⟩

theorem evaluateRefUpdate_raise (hlevel : role.permissionLevel ≤ role'.permissionLevel)
    (h : evaluateRefUpdate update role rules = .ok ()) :
    evaluateRefUpdate update role' rules = .ok () := by
  rw [evaluateRefUpdate_ok_iff] at h ⊢
  refine ⟨?_, fun rule hrule hmatch => (h.2 rule hrule hmatch).raise hlevel⟩
  rw [MemberRole.hasAtLeast_iff] at h ⊢
  exact h.1.trans hlevel

/-- Adding rules never grants a push, nor does any rule stand in for the
built-in minimum; the order and the number of copies of the rules do not
matter; a higher role is never worse off; and a push is allowed when each of
its updates is. -/
theorem push_policy_monotone_orderFree (updates : List RefUpdate) (role : MemberRole)
    (rules : List ProtectionRule) :
    (∀ extended : List ProtectionRule, rules.Sublist extended →
      evaluatePush updates role rules ≠ .ok () → evaluatePush updates role extended ≠ .ok ()) ∧
    (evaluatePush updates role rules = .ok () → ∀ update ∈ updates,
      role.hasAtLeast (defaultMinRole update.refName update.kind) = true) ∧
    (∀ others : List ProtectionRule, (∀ rule, rule ∈ rules ↔ rule ∈ others) →
      (evaluatePush updates role rules = .ok () ↔ evaluatePush updates role others = .ok ()) ∧
      ∀ update, evaluateRefUpdate update role rules = .ok () ↔
        evaluateRefUpdate update role others = .ok ()) ∧
    (∀ raised : MemberRole, raised.hasAtLeast role = true →
      evaluatePush updates role rules = .ok () → evaluatePush updates raised rules = .ok ()) ∧
    (evaluatePush updates role rules = .ok () ↔
      ∀ update ∈ updates, evaluatePush [update] role rules = .ok ()) := by
  refine ⟨fun extended hsub hdeny hallow => hdeny ?_, fun hallow update hupdate => ?_,
    fun others hsame => ⟨⟨fun h => ?_, fun h => ?_⟩, fun update => ⟨?_, ?_⟩⟩,
    fun raised hraised hallow => ?_, ?_⟩
  · rw [evaluatePush_ok_iff] at hallow ⊢
    exact fun update hupdate =>
      evaluateRefUpdate_mono (fun rule hrule => hsub.subset hrule) (hallow update hupdate)
  · exact (evaluateRefUpdate_ok_iff.1 (evaluatePush_ok_iff.1 hallow update hupdate)).1
  · rw [evaluatePush_ok_iff] at h ⊢
    exact fun update hupdate =>
      evaluateRefUpdate_mono (fun rule => (hsame rule).2) (h update hupdate)
  · rw [evaluatePush_ok_iff] at h ⊢
    exact fun update hupdate =>
      evaluateRefUpdate_mono (fun rule => (hsame rule).1) (h update hupdate)
  · exact evaluateRefUpdate_mono fun rule => (hsame rule).2
  · exact evaluateRefUpdate_mono fun rule => (hsame rule).1
  · rw [evaluatePush_ok_iff] at hallow ⊢
    exact fun update hupdate =>
      evaluateRefUpdate_raise (MemberRole.hasAtLeast_iff.1 hraised) (hallow update hupdate)
  · simp only [evaluatePush_ok_iff, List.mem_singleton, forall_eq]

namespace PolicyExample

def mainPattern : RefPattern where
  raw := "refs/heads/main"
  segments := [.literal "refs".toList, .literal "heads".toList, .literal "main".toList]
  recursive_last := by decide

def adminsOnly : ProtectionRule := { pattern := mainPattern, pushRole := some .admin }

def noForce : ProtectionRule := { pattern := mainPattern, noForcePush := true }

def mainUpdate : RefUpdate where
  refName := "refs/heads/main"
  kind := .fastForward
  oldOid := "1111111111111111111111111111111111111111"
  newOid := "2222222222222222222222222222222222222222"

end PolicyExample

open PolicyExample in
/-- A member's push to a branch for admins stays refused under one more rule,
an admin's stays allowed under a doubled and reordered rule list and for the
owner. -/
theorem push_policy_monotone_orderFree_adminsOnly :
    evaluatePush [mainUpdate] .member [noForce, adminsOnly] ≠ .ok () ∧
      evaluatePush [mainUpdate] .admin [adminsOnly, noForce, adminsOnly] = .ok () ∧
      evaluatePush [mainUpdate] .owner [noForce, adminsOnly] = .ok () ∧
      MemberRole.admin.hasAtLeast (defaultMinRole mainUpdate.refName mainUpdate.kind) = true := by
  have hallow : evaluatePush [mainUpdate] .admin [noForce, adminsOnly] = .ok () := by
    decide +kernel
  have hmember := push_policy_monotone_orderFree [mainUpdate] .member [adminsOnly]
  have hadmin := push_policy_monotone_orderFree [mainUpdate] .admin [noForce, adminsOnly]
  refine ⟨hmember.1 [noForce, adminsOnly] (List.sublist_cons_self _ _) (by decide +kernel),
    ((hadmin.2.2.1 [adminsOnly, noForce, adminsOnly] ?_).1).1 hallow,
    hadmin.2.2.2.1 .owner (by decide) hallow,
    hadmin.2.1 hallow mainUpdate (List.mem_singleton_self _)⟩
  intro rule
  simp only [List.mem_cons, List.not_mem_nil, or_false]
  constructor
  · rintro (hforce | hadmins)
    · exact .inr (.inl hforce)
    · exact .inl hadmins
  · rintro (hadmins | hforce | hadmins)
    · exact .inr hadmins
    · exact .inl hforce
    · exact .inr hadmins

end Buzz.Core
