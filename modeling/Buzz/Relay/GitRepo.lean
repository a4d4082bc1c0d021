import Buzz.Core.Artifact
import Buzz.Lib.HashMap
import Buzz.Lib.Machine

/-!
# Git repository announcements

A kind-30617 event reserves a repository's name in `git_repo_names` and seeds
the pointer object that makes the repository cloneable. The handler makes its
calls one by one, and any number of handlers run at once on any number of
relays, so an announcement in progress is an `Attempt` with the next call it
will make, and a move of the system is one call of one attempt.

A call that fails may have failed before or after it took effect; that is the
`applied` of a `fail` reply. The serving lease can be lost at any point of the
pointer work, which looks like a failure of the call in progress. The initial
kind-30618 event is left out: it is sent after the pointer is there, its
failure is only logged, and it touches neither store.
-/

namespace Buzz.Relay

open Buzz.Core Buzz.Lib

/-- `extract_tag_value`: the value of the first tag of that name. -/
def extractTagValue (event : Event) (name : String) : Option String :=
  (event.tags.find? fun t => t.kindText == name).bind (·.content)

/-- `char::is_ascii_alphanumeric`, and the three marks a repo id may have. -/
def isRepoIdChar (c : Char) : Bool :=
  c.isAlphanum || c == '.' || c == '_' || c == '-'

def validateRepoId (repoId : String) : Bool :=
  repoId.utf8ByteSize != 0 && repoId.utf8ByteSize ≤ 64 && repoId.toList.head? != some '.' &&
    !decide (['.', '.'] <:+: repoId.toList) && repoId.toList.all isRepoIdChar

/-- `repo.strip_suffix(".git").unwrap_or(repo)`, on characters. -/
def stripGit (repo : List Char) : List Char :=
  if ['.', 'g', 'i', 't'] <:+ repo then repo.take (repo.length - 4) else repo

/-- `repos/<community>/<owner>/<repo>/pointer`. -/
def pointerKey (community : CommunityId) (owner repo : String) : String :=
  "repos/" ++ community.uuid.toText ++ "/" ++ owner ++ "/" ++
    String.ofList (stripGit repo.toList) ++ "/pointer"

/-- `str::trim`. -/
def trim (s : String) : String :=
  String.ofList (((s.toList.dropWhile isWhitespace).reverse.dropWhile isWhitespace).reverse)

structure GitConfig where
  /-- `git_max_repos_per_pubkey`. -/
  maxReposPerPubkey : Nat
  /-- The SHA-256 of the empty manifest, which all repositories share. -/
  emptyDigest : String

/-- The name registry and the pointer objects. A body that is not UTF-8 is
`none`. -/
structure GitStores where
  names : HMap (CommunityId × String) String := ∅
  pointers : HMap String (Option String) := ∅

inductive ReserveOutcome where
  | reserved
  | alreadyOwned
  | takenByOther
deriving DecidableEq

namespace GitStores

def repoNameOwner (g : GitStores) (community : CommunityId) (repoId : String) :
    Option String :=
  g.names.lookup (community, repoId)

def countReposForOwner (g : GitStores) (community : CommunityId) (owner : String) : Nat :=
  (g.names.entries.filter fun e => e.1.1 = community ∧ e.2 = owner).length

def reserveRepoName (g : GitStores) (community : CommunityId) (repoId owner : String) :
    GitStores × ReserveOutcome :=
  match g.names.lookup (community, repoId) with
  | none => ({ g with names := g.names.insert (community, repoId) owner }, .reserved)
  | some holder => (g, if holder = owner then .alreadyOwned else .takenByOther)

def releaseRepoName (g : GitStores) (community : CommunityId) (repoId owner : String) :
    GitStores :=
  if g.names.lookup (community, repoId) = some owner then
    { g with names := g.names.erase (community, repoId) }
  else g

/-- `put_pointer` with `IfNoneMatchStar`; `false` is `LostRace`. -/
def putPointer (g : GitStores) (key body : String) : GitStores × Bool :=
  match g.pointers.lookup key with
  | none => ({ g with pointers := g.pointers.insert key (some body) }, true)
  | some _ => (g, false)

end GitStores

/-! ## One announcement -/

/-- The call an announcement makes next, or how it ended. -/
inductive AnnouncePhase where
  | lookup
  | count
  | reserve
  | acquireLease
  | verifyLease
  | getPointer
  | putManifest
  | putPointer
  | rereadPointer
  | release
  | finishLease
  | accepted
  | failed
deriving DecidableEq

structure Attempt where
  community : CommunityId
  repoId : String
  owner : PublicKey
  phase : AnnouncePhase := .lookup
  /-- `reserved_by_this_attempt`. -/
  fresh : Bool := false
deriving DecidableEq

inductive CallReply where
  | ok
  | fail (applied : Bool)
deriving DecidableEq

namespace Attempt

def ownerHex (a : Attempt) : String := a.owner.toHex

def nameKey (a : Attempt) : CommunityId × String := (a.community, a.repoId)

def pointer (a : Attempt) : String := pointerKey a.community a.ownerHex a.repoId

/-- The pointer could not be established: roll a fresh reservation back. -/
def pointerFailed (a : Attempt) : Attempt :=
  { a with phase := if a.fresh then .release else .failed }

/-- The handler's next call. A failed call ends the attempt, through the
rollback once the pointer work has begun. -/
def exec (cfg : GitConfig) (g : GitStores) (a : Attempt) (r : CallReply) : GitStores × Attempt :=
  match a.phase, r with
  | .lookup, .ok =>
      match g.repoNameOwner a.community a.repoId with
      | some existing =>
          if existing ≠ a.ownerHex then (g, { a with phase := .failed })
          else (g, { a with phase := .acquireLease, fresh := false })
      | none => (g, { a with phase := .count })
  | .count, .ok =>
      if cfg.maxReposPerPubkey ≤ g.countReposForOwner a.community a.ownerHex then
        (g, { a with phase := .failed })
      else (g, { a with phase := .reserve })
  | .reserve, .ok =>
      match g.reserveRepoName a.community a.repoId a.ownerHex with
      | (g', .reserved) => (g', { a with phase := .acquireLease, fresh := true })
      | (g', .alreadyOwned) => (g', { a with phase := .acquireLease, fresh := false })
      | (g', .takenByOther) => (g', { a with phase := .failed })
  | .reserve, .fail applied =>
      (if applied then (g.reserveRepoName a.community a.repoId a.ownerHex).1 else g,
        { a with phase := .failed })
  | .acquireLease, .ok => (g, { a with phase := .verifyLease })
  | .verifyLease, .ok =>
      (g, { a with phase := if a.fresh then .putManifest else .getPointer })
  | .getPointer, .ok =>
      match g.pointers.lookup a.pointer with
      | some _ => (g, { a with phase := .finishLease })
      | none => (g, { a with phase := .putManifest })
  | .getPointer, .fail _ => (g, a.pointerFailed)
  | .putManifest, .ok => (g, { a with phase := .putPointer })
  | .putManifest, .fail _ => (g, a.pointerFailed)
  | .putPointer, .ok =>
      match g.putPointer a.pointer cfg.emptyDigest with
      | (g', true) => (g', { a with phase := .finishLease })
      | (g', false) => (g', { a with phase := .rereadPointer })
  | .putPointer, .fail applied =>
      (if applied then (g.putPointer a.pointer cfg.emptyDigest).1 else g, a.pointerFailed)
  | .rereadPointer, .ok =>
      match g.pointers.lookup a.pointer with
      | some (some body) =>
          if trim body ≠ cfg.emptyDigest then (g, a.pointerFailed)
          else (g, { a with phase := .finishLease })
      | _ => (g, a.pointerFailed)
  | .rereadPointer, .fail _ => (g, a.pointerFailed)
  | .release, .ok =>
      (g.releaseRepoName a.community a.repoId a.ownerHex, { a with phase := .failed })
  | .release, .fail applied =>
      (if applied then g.releaseRepoName a.community a.repoId a.ownerHex else g,
        { a with phase := .failed })
  | .finishLease, .ok => (g, { a with phase := .accepted })
  | .accepted, _ => (g, a)
  | _, _ => (g, { a with phase := .failed })

end Attempt

/-! ## All announcements -/

structure GitState extends GitStores where
  attempts : List Attempt := []

inductive GitMove where
  /-- A kind-30617 event arrives. -/
  | announce (community : CommunityId) (event : Event)
  /-- The next call of an announcement. -/
  | call (i : Nat) (reply : CallReply)
  /-- The handler of an announcement stops for good. -/
  | crash (i : Nat)
  /-- A push moves a pointer, or makes one. -/
  | push (key : String) (body : Option String)

def GitState.step (cfg : GitConfig) (s : GitState) : GitMove → GitState
  | .announce community event =>
      match (extractTagValue event "d").filter validateRepoId with
      | none => s
      | some repoId =>
          { s with attempts := s.attempts ++ [⟨community, repoId, event.pubkey, .lookup, false⟩] }
  | .call i reply =>
      match s.attempts[i]? with
      | none => s
      | some a =>
          let out := a.exec cfg s.toGitStores reply
          ⟨out.1, s.attempts.set i out.2⟩
  | .crash i =>
      match s.attempts[i]? with
      | none => s
      | some a =>
          if a.phase = .accepted then s
          else { s with attempts := s.attempts.set i { a with phase := .failed } }
  | .push key body => { s with pointers := s.pointers.insert key body }

/-- Any number of relays over the stores as they were found. -/
def gitMachine (cfg : GitConfig) (stores : GitStores) : Machine GitState GitMove where
  init := { toGitStores := stores }
  step := GitState.step cfg

end Buzz.Relay
