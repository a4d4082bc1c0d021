import Buzz.Core.Event
import Mathlib.Algebra.GroupWithZero.Nat

/-!
# Event kinds and the kind-level read gates

The kind constants, ranges and gates of `buzz-core/src/kind.rs` that the read
paths consult. The Rust constants are `u32` and an event's kind a `u16`; both
are natural numbers here, so the widening cast is `UInt16.toNat`.
-/

namespace Buzz.Core

def kindDeletion : Nat := 5
def kindStreamMessage : Nat := 9
def kindGiftWrap : Nat := 1059
def kindAuth : Nat := 22242
def kindAgentObserverFrame : Nat := 24200
def kindAgentEngram : Nat := 30174
def kindPersona : Nat := 30175
def kindTeamCatalog : Nat := 30178
def kindPrivateManagedAgent : Nat := 30179
def kindWakerLaunchBundle : Nat := 30180
def kindEventReminder : Nat := 30300
def kindPushLease : Nat := 30350
def kindDmVisibility : Nat := 30622
def kindNip29GroupMetadata : Nat := 39000
def kindNip29GroupRoles : Nat := 39003
def kindStreamMessageV2 : Nat := 40002
def kindMemberAddedNotification : Nat := 44100
def kindMemberRemovedNotification : Nat := 44101
def kindAgentTurnMetric : Nat := 44200
def kindArtifact : Nat := 45010
def kindArtifactRemoval : Nat := 45011

/-- `event_kind_u32`. -/
def eventKind (event : Event) : Nat := event.kind.toNat

/-- Kinds only their author may read. -/
def authorOnlyKinds : List Nat :=
  [kindEventReminder, kindPushLease, kindPrivateManagedAgent]

/-- Kinds readable by another reader only when the author shared them. -/
def sharedGatedKinds : List Nat := [kindPersona, kindTeamCatalog]

/-- Kinds readable only by the pubkey their `p` tag names. -/
def resultGatedKinds : List Nat :=
  [kindDmVisibility, kindAgentTurnMetric, kindWakerLaunchBundle,
   kindMemberAddedNotification, kindMemberRemovedNotification]

/-- Kinds a filter may ask for only with the reader's own `#p`. -/
def pGatedKinds : List Nat :=
  [kindAgentObserverFrame, kindMemberAddedNotification,
   kindMemberRemovedNotification, kindGiftWrap, kindDmVisibility,
   kindAgentTurnMetric, kindWakerLaunchBundle]

/-- Ephemeral kinds (20000–29999), which are never stored. -/
def isEphemeral (kind : Nat) : Bool := 20000 ≤ kind && kind ≤ 29999

/-- NIP-33 parameterized replaceable kinds (30000–39999). -/
def isParameterizedReplaceable (kind : Nat) : Bool :=
  30000 ≤ kind && kind ≤ 39999

/-- Parse a canonical decimal `u32`: the text equals the number's own
rendering, so `"030300"` and `"+30300"` name no kind. -/
def parseCanonicalKind (text : String) : Option Nat :=
  (text.toList.foldl (fun acc c =>
    acc.bind fun n => if c.isDigit then some (10 * n + (c.toNat - 48)) else none)
    (some 0)).filter fun n => n < 2 ^ 32 && toString n == text

/-- `k_tag_kinds`: the kinds named by well-formed `k` tags. -/
def kTagKinds (event : Event) : List Nat :=
  event.tags.filterMap fun tag =>
    match tag.asSlice with
    | name :: value :: _ => if name = "k" then parseCanonicalKind value else none
    | _ => none

/-- An author-only kind, or a deletion whose `k` tag names one. -/
def isAuthorOnlyEventKind (event : Event) : Bool :=
  eventKind event ∈ authorOnlyKinds ||
    (eventKind event == kindDeletion &&
      (kTagKinds event).any fun k => k ∈ authorOnlyKinds)

/-- `event_is_shared`: exactly one `["shared", "true"]` tag and no `shared`
tag of another shape. The count is threaded through the loop, a wrong shape
ends it. -/
def eventIsShared (event : Event) : Bool :=
  go event.tags 0
where
  go : List Tag → Nat → Bool
    | [], count => count == 1
    | tag :: rest, count =>
        match tag.asSlice with
        | [name, value] =>
            if name = "shared" then
              if value = "true" then go rest (count + 1) else false
            else go rest count
        | name :: _ => if name = "shared" then false else go rest count
        | [] => go rest count

/-- A shared-gated event its reader neither wrote nor was shown. -/
def isUnsharedGatedEvent (event : Event) (requester : PublicKey) : Bool :=
  eventKind event ∈ sharedGatedKinds && event.pubkey != requester &&
    !eventIsShared event

/-- The four channel types that existed before named-only types. -/
def legacyChannelTypes : List String := ["stream", "forum", "dm", "workflow"]

end Buzz.Core
