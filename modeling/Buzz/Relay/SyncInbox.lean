import Buzz.Core.Filter
import Buzz.Db.Artifact
import Buzz.Relay.Lifecycle

/-!
# A sync's inbox

The inbox of `handlers/artifact_sync.rs`. A sync is never sent a fanned-out
event. Fan-out leaves a signal in its inbox, which names the artifact that
changed or records that the sync must end.
-/

namespace Buzz.Relay

open Buzz.Core Buzz.Lib Buzz.Db

/-! ## Inbox -/

/-- 4 MiB. -/
def maxHeldBytes : Nat := 4 * 2 ^ 20

def kindRedaction : Kind := 9005

/-- NIP-29 kinds that can change a reader's access to a channel. -/
def accessKinds : List Kind := [9001, 9002, 9008, 9022]

structure Pending where
  /-- Changed artifacts, with the latest removal seen for each. -/
  changed : HMap Uuid (Option Event) := ∅
  heldBytes : Nat := 0
  /-- The first reason to resync. Once set, nothing more is held. -/
  resync : Option String := none

namespace Pending

/-- `end`. -/
def stop (p : Pending) (reason : String) : Pending where
  resync := some (p.resync.getD reason)

def hold (codec : Codec) (p : Pending) (d : Uuid) (removal : Option Event) : Pending :=
  if p.resync.isSome then p
  else if (p.changed.lookup d).isNone ∧ maxSyncEvents ≤ p.changed.keys.length then
    p.stop "resync: too many changes"
  else
    match removal with
    | none =>
        { p with changed := HMap.alter p.changed d fun old => some (old.getD none) }
    | some removal =>
        let replaced := ((p.changed.lookup d).getD none).elim 0 codec.jsonLen
        let held := p.heldBytes - replaced + codec.jsonLen removal
        if maxHeldBytes < held then p.stop "resync: too many changes"
        else { p with heldBytes := held, changed := p.changed.insert d (some removal) }

/-- `SyncHandle::signal`. -/
def signal (codec : Codec) (p : Pending) (stored : StoredEvent) : Pending :=
  let kind := stored.event.kind
  if kind = kindRedaction then p.stop "resync: redaction"
  else if kind ∈ accessKinds then p.stop "resync: channel access changed"
  else
    match artifactId codec stored.event with
    | none => p
    | some d => p.hold codec d (if kind = 45011 then some stored.event else none)

end Pending

/-- Kinds that resync whatever else the event says. -/
def isResyncKind (kind : Kind) : Bool := kind == kindRedaction || kind ∈ accessKinds

end Buzz.Relay
