import Mathlib.Data.List.Sublists
import Mathlib.Data.List.Perm.Basic

/-!
# Git push permissions

The protection rules of a repository are patterns on ref names, each with what
it asks of a push. A push is a list of ref updates. Every update is measured
against the union of the rules that match its ref: the strictest push role, and
every flag that any of them sets. The built-in minimum role of the ref always
applies as well.

A ref name is split into its segments as characters. `**` is only ever the
last segment of a pattern, which the pattern carries with it.
-/

namespace Buzz.Core

inductive MemberRole where
  | owner
  | admin
  | member
  | guest
  | bot
deriving DecidableEq

namespace MemberRole

def asStr : MemberRole → String
  | owner => "owner"
  | admin => "admin"
  | member => "member"
  | guest => "guest"
  | bot => "bot"

def permissionLevel : MemberRole → Nat
  | owner => 4
  | admin => 3
  | member => 2
  | guest => 1
  | bot => 0

def hasAtLeast (role required : MemberRole) : Bool :=
  required.permissionLevel ≤ role.permissionLevel

/-- The stricter of a role already there and another one. -/
def strictest (existing : Option MemberRole) (role : MemberRole) : MemberRole :=
  match existing with
  | none => role
  | some existing =>
      if existing.permissionLevel < role.permissionLevel then role else existing

end MemberRole

/-! ## Ref patterns -/

def maxPatternLength : Nat := 256
def maxWildcardsPerPattern : Nat := 3

inductive PatternSegment where
  | literal (text : List Char)
  | wildcard
  | recursiveWildcard
deriving DecidableEq

inductive PatternError where
  | empty
  | tooLong
  | missingRefsPrefix
  | invalidSegment (segment : String)
  | tooManyWildcards
deriving DecidableEq

def isLiteralChar (c : Char) : Bool := c.isAlphanum || c == '.' || c == '_' || c == '-'

/-- The segments from one on, with the number of wildcards before it. -/
def parseSegments (wildcards : Nat) :
    List (List Char) → Except PatternError (List PatternSegment)
  | [] => .ok []
  | part :: parts =>
      if part = ['*', '*'] then
        if parts ≠ [] then .error (.invalidSegment "** must be the last segment")
        else if maxWildcardsPerPattern < wildcards + 1 then .error .tooManyWildcards
        else .ok [.recursiveWildcard]
      else if part = ['*'] then
        if maxWildcardsPerPattern < wildcards + 1 then .error .tooManyWildcards
        else (parseSegments (wildcards + 1) parts).map (.wildcard :: ·)
      -- an empty segment, a partial glob and a stray character are all refused
      else if part = [] || !part.all isLiteralChar then
        .error (.invalidSegment (String.ofList part))
      else (parseSegments wildcards parts).map (.literal part :: ·)

theorem recursive_last {parts : List (List Char)} {wildcards : Nat}
    {segments : List PatternSegment} (h : parseSegments wildcards parts = .ok segments) :
    .recursiveWildcard ∉ segments.dropLast := by
  induction parts generalizing wildcards segments with
  | nil =>
      cases h
      exact List.not_mem_nil
  | cons part parts ih =>
      have hcons : ∀ {n : Nat} {s : PatternSegment}, s ≠ .recursiveWildcard →
          (parseSegments n parts).map (s :: ·) = .ok segments →
          .recursiveWildcard ∉ segments.dropLast := by
        intro n s hs hmap
        cases hrest : parseSegments n parts with
        | error e =>
            rw [hrest] at hmap
            cases hmap
        | ok rest =>
            rw [hrest] at hmap
            cases hmap
            have hlast := ih hrest
            intro hmem
            cases rest with
            | nil => exact List.not_mem_nil hmem
            | cons t ts =>
                rw [List.dropLast_cons_of_ne_nil (List.cons_ne_nil t ts)] at hmem
                rcases List.mem_cons.1 hmem with heq | hin
                · exact hs heq.symm
                · exact hlast hin
      unfold parseSegments at h
      split at h
      · split at h
        · cases h
        · split at h
          · cases h
          · cases h
            exact List.not_mem_nil
      · split at h
        · split at h
          · cases h
          · exact hcons (by simp) h
        · split at h
          · cases h
          · exact hcons (by simp) h

structure RefPattern where
  raw : String
  segments : List PatternSegment
  recursive_last : .recursiveWildcard ∉ segments.dropLast

namespace RefPattern

def parse (pattern : String) : Except PatternError RefPattern :=
  if pattern.isEmpty then .error .empty
  else if maxPatternLength < pattern.utf8ByteSize then .error .tooLong
  else if !decide ("refs/".toList <+: pattern.toList) then .error .missingRefsPrefix
  else
    match h : parseSegments 0 (pattern.toList.splitOn '/') with
    | .ok segments => .ok ⟨pattern, segments, Core.recursive_last h⟩
    | .error e => .error e

/-- One segment against one of the ref. -/
def segmentMatches : PatternSegment × List Char → Bool
  | (.wildcard, _) => true
  | (.literal text, segment) => text == segment
  -- not reached: `**` is handled before, and is nowhere but at the end
  | (.recursiveWildcard, _) => false

def matchesRef (pattern : RefPattern) (refName : String) : Bool :=
  let refSegments := refName.toList.splitOn '/'
  if pattern.segments.getLast? = some .recursiveWildcard then
    let prefixLen := pattern.segments.length - 1
    if refSegments.length ≤ prefixLen then false
    else ((pattern.segments.take prefixLen).zip (refSegments.take prefixLen)).all segmentMatches
  else if refSegments.length ≠ pattern.segments.length then false
  else (pattern.segments.zip refSegments).all segmentMatches

/-- `Iterator::all` with the arm that is not reached as it is written: a panic. -/
def allMatchOrPanic : List (PatternSegment × List Char) → Option Bool
  | [] => some true
  | (.recursiveWildcard, _) :: _ => none
  | pair :: pairs => if segmentMatches pair then allMatchOrPanic pairs else some false

/-- `matches` with its panics. -/
def matchesOrPanic (pattern : RefPattern) (refName : String) : Option Bool :=
  let refSegments := refName.toList.splitOn '/'
  if pattern.segments.getLast? = some .recursiveWildcard then
    let prefixLen := pattern.segments.length - 1
    if refSegments.length ≤ prefixLen then some false
    else allMatchOrPanic ((pattern.segments.take prefixLen).zip (refSegments.take prefixLen))
  else if refSegments.length ≠ pattern.segments.length then some false
  else allMatchOrPanic (pattern.segments.zip refSegments)

end RefPattern

/-! ## Rules and updates -/

inductive UpdateKind where
  | create
  | fastForward
  | nonFastForward
  | delete
deriving DecidableEq

structure RefUpdate where
  refName : String
  kind : UpdateKind
  oldOid : String
  newOid : String
deriving DecidableEq

structure ProtectionRule where
  pattern : RefPattern
  pushRole : Option MemberRole := none
  noForcePush : Bool := false
  noDelete : Bool := false
  requirePatch : Bool := false

/-! ## Evaluation -/

def defaultMinRole (refName : String) (kind : UpdateKind) : MemberRole :=
  let isBranch := decide ("refs/heads/".toList <+: refName.toList)
  let isTag := decide ("refs/tags/".toList <+: refName.toList)
  match kind with
  | .create => if isBranch || isTag then .member else .admin
  | .fastForward => if isBranch then .member else .admin
  | .nonFastForward => .admin
  | .delete => .admin

structure EffectiveRules where
  pushRole : Option MemberRole := none
  noForcePush : Bool := false
  noDelete : Bool := false
  requirePatch : Bool := false
  hasExplicitMatch : Bool := false

namespace EffectiveRules

def add (refName : String) (effective : EffectiveRules) (rule : ProtectionRule) :
    EffectiveRules :=
  if rule.pattern.matchesRef refName then
    { pushRole :=
        match rule.pushRole with
        | some role => some (.strictest effective.pushRole role)
        | none => effective.pushRole
      noForcePush := effective.noForcePush || rule.noForcePush
      noDelete := effective.noDelete || rule.noDelete
      requirePatch := effective.requirePatch || rule.requirePatch
      hasExplicitMatch := true }
  else effective

def forRef (refName : String) (rules : List ProtectionRule) : EffectiveRules :=
  rules.foldl (add refName) {}

/-- The higher of the explicit role and the built-in one: an explicit role
never weakens the default. -/
def minRole (effective : EffectiveRules) (defaultRole : MemberRole) : MemberRole :=
  match effective.pushRole with
  | some explicit =>
      if defaultRole.permissionLevel ≤ explicit.permissionLevel then explicit
      else defaultRole
  | none => defaultRole

end EffectiveRules

structure Denial where
  refName : String
  reason : String
deriving DecidableEq

def evaluateRefUpdate (update : RefUpdate) (role : MemberRole) (rules : List ProtectionRule) :
    Except Denial Unit :=
  let effective := EffectiveRules.forRef update.refName rules
  let defaultRole := defaultMinRole update.refName update.kind
  let deny (reason : String) : Except Denial Unit := .error ⟨update.refName, reason⟩
  if !effective.hasExplicitMatch then
    if !role.hasAtLeast defaultRole then
      deny ("requires " ++ defaultRole.asStr ++ " role (you have " ++ role.asStr ++
        "), using built-in defaults")
    else .ok ()
  else if effective.requirePatch then
    deny "direct push denied: require-patch is set, submit a NIP-34 patch"
  else
    let minRole := effective.minRole defaultRole
    if !role.hasAtLeast minRole then
      deny ("requires " ++ minRole.asStr ++ " role (you have " ++ role.asStr ++ ")")
    else if effective.noForcePush && update.kind = .nonFastForward then
      deny "non-fast-forward update denied: no-force-push is set"
    else if effective.noDelete && update.kind = .delete then
      deny "ref deletion denied: no-delete is set"
    else .ok ()

def evaluatePush (updates : List RefUpdate) (role : MemberRole)
    (rules : List ProtectionRule) : Except (List Denial) Unit :=
  let denials := updates.filterMap fun update =>
    match evaluateRefUpdate update role rules with
    | .ok () => none
    | .error denial => some denial
  if denials.isEmpty then .ok () else .error denials

end Buzz.Core
