import Buzz.Core.Filter

/-!
# Read gates

The gates of `handlers/req.rs` over kinds with restricted readers. A request
is refused as a whole by the three `…_filters_authorized` gates; the
`filter_can_match_…` predicates decide whether a count may run in SQL; and
`event_visible_to_reader` is the last word on each event.
-/

namespace Buzz.Relay

open Buzz.Core

variable (filter : Filter)

/-- Whether a filter's kinds can select one of `kinds`: a filter without
kinds can. -/
def filterCanMatch (kinds : List Nat) : Bool :=
  filter.kinds.all fun ks => ks.elems.any fun k => kinds.contains k.toNat

/-- A present, non-empty set whose members all pass. -/
def nonEmptyAll {α : Type} (set : Option (BTreeSet α)) (p : α → Bool) : Bool :=
  set.any fun s => !s.isEmpty && s.elems.all p

/-- `#p` is present and every value is the reader. -/
def pTagIsSelf (reader : PublicKey) : Bool :=
  nonEmptyAll (filter.genericTags.lookup .p) (· == reader.toHex)

/-- `authors` is present and every author is the reader. Both sides are
lower-case hex, so `eq_ignore_ascii_case` compares the keys. -/
def authorIsSelf (reader : PublicKey) : Bool :=
  nonEmptyAll filter.authors (· == reader)

def hasIds : Bool := filter.ids.any (!·.isEmpty)

/-- `p_gated_filters_authorized`. Naming a result-gated kind takes the `ids`
exemption away. -/
def pGatedFiltersAuthorized (filters : List Filter) (reader : PublicKey) : Bool :=
  filters.all fun filter =>
    !filterCanMatch filter pGatedKinds ||
      (!(filter.kinds.isSome && filterCanMatch filter resultGatedKinds) &&
        hasIds filter) ||
      pTagIsSelf filter reader

/-- `engram_filters_authorized`. -/
def engramFiltersAuthorized (filters : List Filter) (reader : PublicKey) : Bool :=
  filters.all fun filter =>
    hasIds filter || !filterCanMatch filter [kindAgentEngram] ||
      authorIsSelf filter reader || pTagIsSelf filter reader

/-- `author_only_filters_authorized`. -/
def authorOnlyFiltersAuthorized (filters : List Filter) (reader : PublicKey) : Bool :=
  filters.all fun filter =>
    !nonEmptyAll filter.kinds (fun k => authorOnlyKinds.contains k.toNat) ||
      authorIsSelf filter reader

/-- `filter_can_match_author_only_kinds`. A deletion inherits the privacy of
what it deletes. -/
def filterCanMatchAuthorOnlyKinds : Bool :=
  filterCanMatch filter (kindDeletion :: authorOnlyKinds)

/-- `filter_can_match_shared_gated_kinds`. -/
def filterCanMatchSharedGatedKinds : Bool :=
  filterCanMatch filter sharedGatedKinds

/-- `filter_can_match_result_gated_kinds`. -/
def filterCanMatchResultGatedKinds : Bool :=
  filterCanMatch filter resultGatedKinds

/-- `result_gated_count_safe_for_pushdown`. -/
def resultGatedCountSafeForPushdown (reader : PublicKey) : Bool :=
  pTagIsSelf filter reader

/-- `is_author_only_event`: another author's author-only event. -/
def isAuthorOnlyEvent (event : Event) (reader : PublicKey) : Bool :=
  isAuthorOnlyEventKind event && event.pubkey != reader

/-- `event_visible_to_reader`. -/
def eventVisibleToReader (event : Event) (reader : PublicKey) : Bool :=
  !isAuthorOnlyEvent event reader && !isUnsharedGatedEvent event reader &&
    readerAuthorizedForEvent event reader.toHex

end Buzz.Relay
