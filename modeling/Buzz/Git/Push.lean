import Buzz.Git.Manifest
import Buzz.Git.Report
import Buzz.Lib.HashMap
import Buzz.Lib.Machine

/-!
# Pushes to one repository

A push reads the pointer and the manifest it names, materializes the packs, runs
`git receive-pack`, uploads packs and a manifest, and writes the pointer under
the precondition that it is still the one it read. Any number of pushes run at
once, on any number of relays, and each call to the object store is a step of
its own.

What the store and git answer is in the moves. A request can fail before it
takes effect, which is a `fail` of the push, or take effect with its answer
lost. A push that crashed makes no more moves.

Not modelled are idx sidecars and the pack cache, which only save work, and the
other writers of the pointer: the announcement of a repository and the setting
of its default branch.
-/

namespace Buzz.Git

open Buzz.Lib (HMap Machine)

/-! ## The object store -/

structure Pointer where
  etag : ETag
  body : Digest
deriving DecidableEq

inductive Precond where
  | ifNoneMatchStar
  | ifMatch (etag : ETag)
deriving DecidableEq

/-- The pointer of the repository and the immutable objects. -/
structure GitStore where
  pointer : Option Pointer := none
  manifests : HMap Digest Manifest := ∅
  packs : HMap Digest (List UInt8) := ∅

/-- `put_immutable`: what is there stays. -/
def putImmutable {ν : Type} (m : HMap Digest ν) (key : Digest) (object : ν) : HMap Digest ν :=
  if (m.lookup key).isSome then m else m.insert key object

def Precond.holds (precond : Precond) (pointer : Option Pointer) : Bool :=
  match precond, pointer with
  | .ifNoneMatchStar, none => true
  | .ifMatch etag, some current => etag = current.etag
  | _, _ => false

def ParentState.precond (p : ParentState) : Precond :=
  match p.ifMatch with
  | some etag => .ifMatch etag
  | none => .ifNoneMatchStar

/-! ## One push -/

/-- What the client asks for: a ref, and where it is to point or that it is to be
gone. -/
structure RefUpdate where
  name : RefName
  target : Option Oid
deriving DecidableEq

/-- The refs and HEAD `receive-pack` left in the working repository. -/
structure Workspace where
  refs : RefMap
  head : RefName
deriving DecidableEq

inductive PushError where
  | hydrate
  | hydrateLimit
  | receivePack
  | receivePackTimeout
  | outputLimit
  | fenced
  | manifestInvalid (error : ManifestError)
  | resourceLimit
  | manifestReadFailed
  | backend
  | packCapture
  | leaseLost
deriving DecidableEq

/-- The response. A `success` is a 200 with git's own report as its body, with
what was published or, where git's output was not `ok`, with nothing published. -/
inductive Response where
  | success (published : Option Digest)
  /-- 409. -/
  | conflict (winnerManifest : Manifest) (winnerKey : Digest)
  | error (e : PushError)
  /-- The pointer was written, but what comes after it failed. -/
  | unannounced (published : Digest) (status : Nat)
deriving DecidableEq

/-- What `cas_publish` works with. -/
structure Work where
  parentState : ParentState
  hydratedBytes : Nat
  stdout : List UInt8
  refsAfter : RefMap
  head : RefName
deriving DecidableEq

inductive Phase where
  | begun
  | pointerRead (etag : ETag) (digest : Digest)
  | manifestRead (parentState : ParentState)
  | hydrated (parentState : ParentState) (hydratedBytes : Nat)
  | received (parentState : ParentState) (hydratedBytes : Nat) (stdout : List UInt8)
      (workspace : Workspace)
  /-- With enough packs to try a compaction. -/
  | compactable (work : Work)
  /-- Compacted packs to upload, and the keys of those that are. -/
  | compacting (work : Work) (todo : List (List UInt8)) (keys : List Digest)
  | capturing (work : Work) (compactionFailure : Option PushError)
  | captured (work : Work) (pack : List UInt8)
  | composed (work : Work) (after : Manifest)
  | stored (work : Work) (after : Manifest)
  | lostRace (work : Work)
  | winnerRead (work : Work) (digest : Digest)
  | won (work : Work) (after : Manifest)
  | answered (stdout : List UInt8) (response : Response)
deriving DecidableEq

structure Pusher where
  updates : List RefUpdate
  /-- How often the pointer had been written when it began. -/
  began : Nat
  phase : Phase := .begun
deriving DecidableEq

/-! ## Everything -/

/-- A write of the pointer: the digest and whose push it was. -/
structure Install where
  digest : Digest
  pusher : Nat
deriving DecidableEq

structure Repo where
  store : GitStore := {}
  pushers : List Pusher := []
  /-- What the pointer was, newest first. -/
  history : List Install := []
  /-- Every manifest and every pack that was ever put. -/
  putManifests : List Manifest := []
  putPacks : List (List UInt8) := []

inductive Move where
  | begin (updates : List RefUpdate)
  /-- An error or a crash, before the response. -/
  | fail (i : Nat) (error : PushError)
  | getPointer (i : Nat)
  | getManifest (i : Nat)
  | materialize (i : Nat)
  | receivePack (i : Nat) (exitOk : Bool) (stdout : List UInt8) (workspace : Workspace)
  | snapshotWorkspaceState (i : Nat)
  /-- The packs of `pack-objects`, or why there are none. -/
  | prepareCompaction (i : Nat) (packs : Except PushError (List (List UInt8)))
  | uploadCompactedPack (i : Nat) (answered : Bool)
  | abandonCompaction (i : Nat) (error : PushError)
  | capturePack (i : Nat) (output : List UInt8)
  | putPack (i : Nat) (answered : Bool)
  | putManifest (i : Nat) (answered : Bool)
  | putPointer (i : Nat) (answered : Bool)
  | getWinner (i : Nat)
  | getWinnerManifest (i : Nat)
  /-- The kind-30618 event and the end of the serving lease: how they failed, if
  they did. -/
  | finish (i : Nat) (failure : Option Nat)

/-! ## Steps -/

/-- `git_max_pack_bytes` and `git_max_repo_bytes`. -/
structure PublishLimits where
  maxPackBytes : Nat
  maxRepoBytes : Nat

/-- The rest of `load_pointer`: the read limit, `from_bytes` and `validate`. -/
def loadManifest (m : Manifest) : Option PushError :=
  if maxManifestBytes < m.canonicalBytes.length then some .hydrateLimit
  else if m.version ≠ manifestVersion then some .hydrate
  else if m.validate.isSome then some .hydrate
  else none

/-- The first phase of `materialize_manifest`: the bytes of the packs, one after
another. -/
def materializePacks (limits : PublishLimits) (packs : HMap Digest (List UInt8)) (bytes : Nat) :
    List Digest → Except PushError Nat
  | [] => .ok bytes
  | key :: rest =>
      match packs.lookup key with
      | none => .error .hydrate
      | some pack =>
          if limits.maxPackBytes < pack.length then .error .hydrateLimit
          else if limits.maxRepoBytes < bytes + pack.length then .error .hydrateLimit
          else materializePacks limits packs (bytes + pack.length) rest

def maxRefSnapshotBytes : Nat := 4 * 1024 * 1024

/-- The length of what `for-each-ref` prints: a name, a blank, an object id and a
newline. -/
def refSnapshotBytes (refs : RefMap) : Nat :=
  (refs.entries.map fun e => (Audit.utf8 e.1).length + (Audit.utf8 e.2).length + 2).sum

/-- `snapshot_workspace_state`, from the lines of `for-each-ref`. -/
def snapshotRefs (refs : RefMap) : List (RefName × Oid) → Option RefMap
  | [] => some refs
  | (name, oid) :: rest =>
      if !(oid.length == 40 && oid.all isAsciiHexdigit) then snapshotRefs refs rest
      else if maxManifestRefs ≤ refs.entries.length ∧ refs.containsKey name = false then none
      else snapshotRefs (refs.insert name oid) rest

/-- `capture_pack`, with what `pack-objects` wrote. -/
def captureOutput (limits : PublishLimits) (refsAfter : RefMap) (output : List UInt8) :
    Except PushError (Option (List UInt8)) :=
  if refsAfter.entries.isEmpty then .ok none
  else if limits.maxPackBytes < output.length then .error .resourceLimit
  else if output.isEmpty then .ok none
  else .ok (some output)

/-- `capture_compacted_packs`, with the packs `pack-objects` wrote. -/
def captureCompactedPacks (limits : PublishLimits) (refsAfter : RefMap)
    (packs : Except PushError (List (List UInt8))) : Except PushError (List (List UInt8)) :=
  if refsAfter.entries.isEmpty then .ok []
  else
    match packs with
    | .error e => .error e
    | .ok packs =>
        if maxManifestPacks < packs.length then .error .resourceLimit
        else if packs.any fun pack => limits.maxPackBytes < pack.length then .error .resourceLimit
        else if limits.maxRepoBytes < (packs.map List.length).sum then .error .resourceLimit
        else .ok packs

/-- The check before anything of the manifest is written. -/
def publishPhase (work : Work) (after : Manifest) : Phase :=
  match after.validate with
  | some error => .answered [] (.error (.manifestInvalid error))
  | none => .composed work after

def continueCompaction (work : Work) (todo : List (List UInt8)) (keys : List Digest) : Phase :=
  match todo with
  | [] =>
      publishPhase work
        (composeCompactedAfter work.parentState.parentDigest work.head work.refsAfter keys)
  | _ => .compacting work todo keys

def Work.composeAfter (work : Work) (newPackKey : Option Digest) : Manifest :=
  Git.composeAfter work.parentState.parent work.parentState.parentDigest work.head work.refsAfter
    newPackKey

namespace Repo

variable (s : Repo)

def phaseAt (i : Nat) : Option Phase := (s.pushers[i]?).map Pusher.phase

def goto (i : Nat) (phase : Phase) : Repo :=
  { s with pushers := s.pushers.modify i fun p => { p with phase := phase } }

def failWith (i : Nat) (error : PushError) : Repo :=
  s.goto i (.answered [] (.error error))

def getPointer (i : Nat) : Repo :=
  match s.phaseAt i with
  | some .begun =>
      match s.store.pointer with
      | none => s.goto i (.hydrated .fresh 0)
      | some pointer => s.goto i (.pointerRead pointer.etag pointer.body)
  | _ => s

def getManifest (i : Nat) : Repo :=
  match s.phaseAt i with
  | some (.pointerRead etag digest) =>
      match s.store.manifests.lookup digest with
      | none => s.failWith i .hydrate
      | some m =>
          match loadManifest m with
          | some error => s.failWith i error
          | none => s.goto i (.manifestRead (.fromLoaded etag digest m))
  | _ => s

def materialize (limits : PublishLimits) (s : Repo) (i : Nat) : Repo :=
  match s.phaseAt i with
  | some (.manifestRead parentState) =>
      match materializePacks limits s.store.packs 0 parentState.parent.packs with
      | .error e => s.failWith i e
      | .ok bytes => s.goto i (.hydrated parentState bytes)
  | _ => s

/-- A rejected push publishes nothing, and the client gets git's report. -/
def receivePack (i : Nat) (exitOk : Bool) (stdout : List UInt8)
    (workspace : Workspace) : Repo :=
  match s.phaseAt i with
  | some (.hydrated parentState bytes) =>
      if exitOk && !receivePackReportRejected stdout then
        s.goto i (.received parentState bytes stdout workspace)
      else s.goto i (.answered stdout (.success none))
  | _ => s

def snapshotWorkspaceState (i : Nat) : Repo :=
  match s.phaseAt i with
  | some (.received parentState bytes stdout workspace) =>
      if maxRefSnapshotBytes < refSnapshotBytes workspace.refs then s.failWith i .resourceLimit
      else
        match snapshotRefs .empty workspace.refs.entries with
        | none => s.failWith i .resourceLimit
        | some refsAfter =>
            let work : Work :=
              { parentState := parentState
                hydratedBytes := bytes
                stdout := stdout
                refsAfter := refsAfter
                head := resolvePublishedHead refsAfter workspace.head parentState.parent.head }
            if shouldCompact parentState.parent.packs.length then s.goto i (.compactable work)
            else s.goto i (.capturing work none)
  | _ => s

def prepareCompaction (limits : PublishLimits) (s : Repo) (i : Nat)
    (packs : Except PushError (List (List UInt8))) : Repo :=
  match s.phaseAt i with
  | some (.compactable work) =>
      match captureCompactedPacks limits work.refsAfter packs with
      | .error e => s.goto i (.capturing work (some e))
      | .ok packs =>
          if compactedPackSetIsUsable work.parentState.parent.packs.length packs.length then
            s.goto i (continueCompaction work packs [])
          else s.goto i (.capturing work (some .resourceLimit))
  | _ => s

def putPackObject (pack : List UInt8) : Repo :=
  { s with
    store := { s.store with packs := putImmutable s.store.packs (contentKey pack) pack }
    putPacks := pack :: s.putPacks }

def uploadCompactedPack (i : Nat) (answered : Bool) : Repo :=
  match s.phaseAt i with
  | some (.compacting work (pack :: todo) keys) =>
      let s := s.putPackObject pack
      if answered then s.goto i (continueCompaction work todo (keys ++ [contentKey pack]))
      else s.goto i (.capturing work (some .backend))
  | _ => s

def abandonCompaction (i : Nat) (error : PushError) : Repo :=
  match s.phaseAt i with
  | some (.compacting work _ _) => s.goto i (.capturing work (some error))
  | _ => s

def capturePack (limits : PublishLimits) (s : Repo) (i : Nat) (output : List UInt8) : Repo :=
  match s.phaseAt i with
  | some (.capturing work compactionFailure) =>
      match captureOutput limits work.refsAfter output with
      | .error e => s.failWith i e
      | .ok none => s.goto i (publishPhase work (work.composeAfter none))
      | .ok (some pack) =>
          if maxManifestPacks ≤ work.parentState.parent.packs.length then
            s.failWith i (compactionFailure.getD .resourceLimit)
          else if limits.maxRepoBytes < work.hydratedBytes + pack.length then
            s.failWith i .resourceLimit
          else s.goto i (.captured work pack)
  | _ => s

def putPack (i : Nat) (answered : Bool) : Repo :=
  match s.phaseAt i with
  | some (.captured work pack) =>
      let s := s.putPackObject pack
      if answered then
        s.goto i (publishPhase work (work.composeAfter (some (contentKey pack))))
      else s.failWith i .backend
  | _ => s

def putManifest (i : Nat) (answered : Bool) : Repo :=
  match s.phaseAt i with
  | some (.composed work after) =>
      let s : Repo :=
        { s with
          store :=
            { s.store with
              manifests := putImmutable s.store.manifests after.digest after.canonical }
          putManifests := after :: s.putManifests }
      if answered then s.goto i (.stored work after) else s.failWith i .backend
  | _ => s

/-- The commit: the pointer is written if the precondition holds, in one step. -/
def putPointer (etag : Nat → Digest → ETag) (s : Repo) (i : Nat) (answered : Bool) : Repo :=
  match s.phaseAt i with
  | some (.stored work after) =>
      if work.parentState.precond.holds s.store.pointer then
        let s : Repo :=
          { s with
            store :=
              { s.store with
                pointer := some ⟨etag s.history.length after.digest, after.digest⟩ }
            history := ⟨after.digest, i⟩ :: s.history }
        if answered then s.goto i (.won work after) else s.failWith i .backend
      else if answered then s.goto i (.lostRace work)
      else s.failWith i .backend
  | _ => s

def getWinner (i : Nat) : Repo :=
  match s.phaseAt i with
  | some (.lostRace work) =>
      match s.store.pointer with
      | none => s.failWith i .manifestReadFailed
      | some pointer => s.goto i (.winnerRead work pointer.body)
  | _ => s

def getWinnerManifest (i : Nat) : Repo :=
  match s.phaseAt i with
  | some (.winnerRead _ digest) =>
      match s.store.manifests.lookup digest with
      | none => s.failWith i .manifestReadFailed
      | some m =>
          if m.version ≠ manifestVersion then s.failWith i .manifestReadFailed
          else s.goto i (.answered [] (.conflict m digest))
  | _ => s

/-- The success response comes last. -/
def finish (i : Nat) (failure : Option Nat) : Repo :=
  match s.phaseAt i with
  | some (.won work after) =>
      match failure with
      | none => s.goto i (.answered work.stdout (.success (some after.digest)))
      | some status => s.goto i (.answered [] (.unannounced after.digest status))
  | _ => s

def fail (i : Nat) (error : PushError) : Repo :=
  match s.phaseAt i with
  | some (.answered _ _) => s
  | some (.won _ _) => s
  | some _ => s.failWith i error
  | none => s

def step (limits : PublishLimits) (etag : Nat → Digest → ETag) (s : Repo) : Move → Repo
  | .begin updates =>
      { s with pushers := s.pushers ++ [{ updates := updates, began := s.history.length }] }
  | .fail i error => s.fail i error
  | .getPointer i => s.getPointer i
  | .getManifest i => s.getManifest i
  | .materialize i => s.materialize limits i
  | .receivePack i exitOk stdout workspace => s.receivePack i exitOk stdout workspace
  | .snapshotWorkspaceState i => s.snapshotWorkspaceState i
  | .prepareCompaction i packs => s.prepareCompaction limits i packs
  | .uploadCompactedPack i answered => s.uploadCompactedPack i answered
  | .abandonCompaction i error => s.abandonCompaction i error
  | .capturePack i output => s.capturePack limits i output
  | .putPack i answered => s.putPack i answered
  | .putManifest i answered => s.putManifest i answered
  | .putPointer i answered => s.putPointer etag i answered
  | .getWinner i => s.getWinner i
  | .getWinnerManifest i => s.getWinnerManifest i
  | .finish i failure => s.finish i failure

end Repo

/-- An empty repository and nobody pushing to it. -/
def gitRepo (limits : PublishLimits) (etag : Nat → Digest → ETag) : Machine Repo Move where
  init := {}
  step := Repo.step limits etag

/-! ## A repository to run it on -/

def wideLimits : PublishLimits := ⟨1000, 1000⟩

/-- An ETag that depends on the body alone. -/
def bodyTag (_ : Nat) (d : Digest) : ETag := hexEncode d.bytes

def mainRef : RefName := "refs/heads/main".toList

/-- What a push of `main` leaves in the working repository. -/
def mainWorkspace (oid : Oid) : Workspace := ⟨RefMap.empty.insert mainRef oid, mainRef⟩

end Buzz.Git
