import Buzz.Desktop.SlotPacking
import Buzz.Proofs.ReadStateBudget

/-!
# Slots hold every channel, but one

Dealing assigns entry `i` to slot `i % count`, and an assignment to `__proto__` is lost.
Apart from that key, a slot holds what the placement by position gives it: exactly one
slot holds each channel. The first slot takes threads and messages as far as the trim
leaves them, the newest longest. So the packing is as it should be if no channel is
called `__proto__`, or if nothing can be packed at all.
-/

namespace Buzz.Desktop.Slots

open Buzz.Lib

variable {contexts object : TextContexts} {clientId : List Char} {maxBytes count : Nat}
  {key : List Char} {value : Nat} {entries : List ((_ : List Char) × Nat)}
  {j : Nat} {slots : List TextContexts} {slot : TextContexts}

/-! ## Assigning -/

theorem lookup_assign (object : TextContexts) (k : List Char) (v : Nat) (key : List Char) :
    (assign object k v).lookup key =
      if key = k ∧ k ≠ protoName then some v else object.lookup key := by
  unfold assign
  by_cases hproto : k = protoName
  · rw [if_pos hproto, if_neg fun h => h.2 hproto]
  · rw [if_neg hproto, HMap.lookup_put]
    by_cases hkey : key = k
    · rw [if_pos hkey, if_pos ⟨hkey, hproto⟩]
    · rw [if_neg hkey, if_neg fun h => hkey h.1]

theorem lookup_assignAll (hl : entries.NodupKeys) (hkey : key ≠ protoName) :
    (assignAll object entries).lookup key = (entries.dlookup key).or (object.lookup key) := by
  unfold assignAll
  induction entries generalizing object with
  | nil => rfl
  | cons e entries ih =>
      obtain ⟨hnew, hl⟩ := List.nodupKeys_cons.1 hl
      rw [List.foldl_cons, ih hl, lookup_assign]
      by_cases hk : key = e.1
      · rw [if_pos ⟨hk, hk ▸ hkey⟩, hk, List.dlookup_cons_eq, List.dlookup_eq_none.2 hnew]
        rfl
      · rw [if_neg fun h => hk h.1, List.dlookup_cons_ne _ _ hk]

theorem lookup_assignAll_proto :
    (assignAll object entries).lookup protoName = object.lookup protoName := by
  unfold assignAll
  induction entries generalizing object with
  | nil => rfl
  | cons e entries ih =>
      rw [List.foldl_cons, ih, lookup_assign, if_neg fun h => h.2 h.1.symm]

/-! ## Dealing -/

/-- Where a key stands. -/
def position {κ : Type} [DecidableEq κ] (key : κ) (keys : List κ) : Nat := keys.idxOf key

theorem position_cons_self {κ : Type} [DecidableEq κ] {key : κ} {keys : List κ} :
    position key (key :: keys) = 0 := List.idxOf_cons_self

theorem position_cons_ne {κ : Type} [DecidableEq κ] {key first : κ} {keys : List κ}
    (h : key ≠ first) : position key (first :: keys) = position key keys + 1 :=
  List.idxOf_cons_ne _ fun heq => h heq.symm

theorem length_deal (count i : Nat) (slots : List TextContexts) :
    (deal count i slots entries).length = slots.length := by
  induction entries generalizing i slots with
  | nil => rfl
  | cons e entries ih => rw [deal, ih, List.length_modify]

/-- A slot keeps what it has, and gets the entries at its positions. -/
theorem lookup_deal (hl : entries.NodupKeys) (key : List Char) {i : Nat}
    (hslot : (deal count i slots entries)[j]? = some slot) :
    ∃ old, slots[j]? = some old ∧ slot.lookup key =
      (if key ≠ protoName ∧ (i + position key entries.keys) % count = j then entries.dlookup key
        else none).or (old.lookup key) := by
  induction entries generalizing i slots with
  | nil =>
      refine ⟨slot, hslot, ?_⟩
      split <;> rfl
  | cons e entries ih =>
      obtain ⟨hnew, hl⟩ := List.nodupKeys_cons.1 hl
      rw [deal] at hslot
      obtain ⟨old, hold, hlookup⟩ := ih hl hslot
      rw [List.getElem?_modify, Option.map_eq_map, Option.map_eq_some_iff] at hold
      obtain ⟨first, hfirst, rfl⟩ := hold
      refine ⟨first, hfirst, hlookup.trans ?_⟩
      rw [List.keys_cons]
      by_cases hk : key = e.1
      · have hnone : entries.dlookup key = none := List.dlookup_eq_none.2 (hk ▸ hnew)
        rw [hnone, ite_self, Option.none_or, hk, position_cons_self, List.dlookup_cons_eq,
          Nat.add_zero]
        by_cases hj : i % count = j
        · rw [if_pos hj, lookup_assign]
          by_cases hproto : e.1 = protoName
          · rw [if_neg fun h => h.2 hproto, if_neg fun h => h.1 hproto, Option.none_or]
          · rw [if_pos ⟨rfl, hproto⟩, if_pos ⟨hproto, hj⟩, Option.some_or]
        · rw [if_neg hj, if_neg fun h => hj h.2, Option.none_or]
      · rw [position_cons_ne hk, List.dlookup_cons_ne _ _ hk,
          Nat.add_assoc i 1, Nat.add_comm 1]
        congr 1
        split
        · rw [lookup_assign, if_neg fun h => hk h.1]
        · rfl

/-- What slot `j` of the dealt entries holds. -/
theorem lookup_distribute (hl : entries.NodupKeys)
    (hslot : (distribute entries count)[j]? = some slot) (key : List Char) :
    slot.lookup key =
      if key ≠ protoName ∧ position key entries.keys % count = j then entries.dlookup key
      else none := by
  obtain ⟨old, hold, hlookup⟩ := lookup_deal hl key hslot
  rw [Nat.zero_add] at hlookup
  rw [(List.mem_replicate.1 (List.mem_of_getElem? hold)).2] at hlookup
  rw [hlookup]
  exact Option.or_none

theorem length_distribute : (distribute entries count).length = count := by
  rw [distribute, length_deal, List.length_replicate]

/-! ## The placement by position -/

/-- The channels of the contexts. -/
def channels (contexts : TextContexts) : TextContexts := contexts.retain fun key _ => isChannel key

/-- Round robin: every channel in the slot of its position. -/
def placement (contexts : TextContexts) (count : Nat) : List TextContexts :=
  Desktop.distribute (channels contexts) count

/-- Everything but `__proto__`. -/
def withoutProto (slot : TextContexts) : TextContexts :=
  slot.retain fun key _ => key ≠ protoName

def Fits (clientId : List Char) (maxBytes : Nat) (slots : List TextContexts) : Prop :=
  ∀ slot ∈ slots, blobBytes clientId slot ≤ maxBytes

theorem lookup_withoutProto (slot : TextContexts) (key : List Char) :
    (withoutProto slot).lookup key = if key ≠ protoName then slot.lookup key else none := by
  unfold withoutProto
  rw [HMap.lookup_retain]
  cases slot.lookup key with
  | none => rw [ite_self]; rfl
  | some v =>
      rw [Option.filter_some]
      by_cases hkey : key = protoName
      · rw [if_neg (by simpa using hkey), if_neg (not_not_intro hkey)]
      · rw [if_pos (by simpa using hkey), if_pos hkey]

theorem getElem?_placement (hj : j < count) : (placement contexts count)[j]? =
    some ((channels contexts).retain fun key _ =>
      position key (channels contexts).keys % count = j) := by
  rw [placement, Desktop.distribute, List.getElem?_map, List.getElem?_range hj]
  rfl

/-- The slots of the code are those of the placement, without `__proto__`. -/
theorem lookup_slot {placed : TextContexts}
    (hslot : (distribute (channelEntries contexts) count)[j]? = some slot)
    (hplaced : (placement contexts count)[j]? = some placed) (key : List Char) :
    slot.lookup key = (withoutProto placed).lookup key := by
  have hj : j < count := by
    have hlt := (List.getElem?_eq_some_iff.1 hslot).1
    rwa [length_distribute] at hlt
  rw [getElem?_placement hj] at hplaced
  cases hplaced
  have hdealt : slot.lookup key =
      if key ≠ protoName ∧ position key (channels contexts).keys % count = j then
        (channels contexts).lookup key else none :=
    lookup_distribute (channels contexts).nodupKeys hslot key
  rw [hdealt, lookup_withoutProto, HMap.lookup_retain]
  by_cases hkey : key = protoName
  · rw [if_neg fun h => h.1 hkey, if_neg (not_not_intro hkey)]
  · rw [if_pos hkey]
    by_cases hpos : position key (channels contexts).keys % count = j
    · rw [if_pos ⟨hkey, hpos⟩]
      cases (channels contexts).lookup key with
      | none => rfl
      | some v => rw [Option.filter_some, if_pos (decide_eq_true hpos)]
    · rw [if_neg fun h => hpos h.2]
      cases (channels contexts).lookup key with
      | none => rfl
      | some v => rw [Option.filter_some, if_neg (by rwa [decide_eq_true_eq])]

theorem length_placement : (placement contexts count).length = count := by
  rw [placement, Desktop.distribute, List.length_map, List.length_range]

/-- Whether the dealt slots fit is a matter of the placement without `__proto__`. -/
theorem all_fits_iff :
    (distribute (channelEntries contexts) count).all (blobBytes clientId · ≤ maxBytes) = true ↔
      Fits clientId maxBytes ((placement contexts count).map withoutProto) := by
  rw [List.all_eq_true]
  constructor
  · intro h slot hslot
    obtain ⟨placed, hplaced, rfl⟩ := List.mem_map.1 hslot
    obtain ⟨j, hj, hget⟩ := List.mem_iff_getElem.1 hplaced
    have hj' : j < (distribute (channelEntries contexts) count).length := by
      rw [length_distribute]
      rwa [length_placement] at hj
    have hdealt := List.getElem?_eq_getElem hj'
    rw [← blobBytes_congr (lookup_slot hdealt (hget ▸ List.getElem?_eq_getElem hj))]
    exact of_decide_eq_true (h _ (List.mem_of_getElem? hdealt))
  · intro h slot hslot
    obtain ⟨j, hj, hget⟩ := List.mem_iff_getElem.1 hslot
    have hj' : j < (placement contexts count).length := by
      rw [length_placement]
      rwa [length_distribute] at hj
    have hplaced := List.getElem?_eq_getElem hj'
    rw [decide_eq_true_eq, blobBytes_congr (lookup_slot (hget ▸ List.getElem?_eq_getElem hj)
      hplaced)]
    exact h _ (List.mem_map_of_mem (List.mem_of_getElem? hplaced))

theorem fits_withoutProto (h : Fits clientId maxBytes slots) :
    Fits clientId maxBytes (slots.map withoutProto) := by
  intro slot hslot
  obtain ⟨placed, hplaced, rfl⟩ := List.mem_map.1 hslot
  exact (blobBytes_le List.filter_sublist).trans (h placed hplaced)

/-! ## The first slot -/

/-- A slot of channels with all threads and messages. -/
theorem lookup_primary {primary : TextContexts}
    (hprimary : ∀ key v, primary.lookup key = some v → isChannel key = true) (key : List Char) :
    (assignAll primary (threadMsgEntries contexts)).lookup key =
      if isChannel key then primary.lookup key else contexts.lookup key := by
  have hproto : isChannel protoName = true := by decide
  by_cases hkey : key = protoName
  · rw [hkey, lookup_assignAll_proto, if_pos hproto]
  · have hthreads : (threadMsgEntries contexts).dlookup key =
        (contexts.lookup key).filter fun _ => !isChannel key :=
      HMap.lookup_retain contexts (fun key _ => !isChannel key) key
    have hnodup : (threadMsgEntries contexts).NodupKeys :=
      (contexts.retain fun key _ => !isChannel key).nodupKeys
    rw [lookup_assignAll hnodup hkey, hthreads]
    cases hchannel : isChannel key with
    | true =>
        rw [if_pos rfl]
        cases contexts.lookup key <;> rfl
    | false =>
        have hnone : primary.lookup key = none := by
          rw [Option.eq_none_iff_forall_ne_some]
          intro v hv
          rw [hprimary key v hv] at hchannel
          cases hchannel
        rw [hnone, Option.or_none, if_neg Bool.false_ne_true]
        cases contexts.lookup key <;> rfl

theorem lookup_channels (contexts : TextContexts) (key : List Char) :
    (channels contexts).lookup key = if isChannel key then contexts.lookup key else none := by
  rw [channels, HMap.lookup_retain]
  cases isChannel key with
  | true => cases contexts.lookup key <;> rfl
  | false => cases contexts.lookup key <;> rfl

/-- What a dealt slot holds is a channel, and at its position. -/
theorem of_lookup_dealt
    (hslot : (distribute (channelEntries contexts) count)[j]? = some slot)
    (h : slot.lookup key = some value) :
    isChannel key = true ∧ contexts.lookup key = some value ∧
      position key (channels contexts).keys % count = j := by
  have hdealt : slot.lookup key =
      if key ≠ protoName ∧ position key (channels contexts).keys % count = j then
        (channels contexts).lookup key else none :=
    lookup_distribute (channels contexts).nodupKeys hslot key
  rw [hdealt] at h
  split at h
  · next hpos =>
      rw [lookup_channels] at h
      split at h
      · next hchannel => exact ⟨hchannel, h, hpos.2⟩
      · cases h
  · cases h

/-- The first slot before it is trimmed. -/
theorem lookup_untrimmed {dealt : TextContexts}
    (hdealt : (distribute (channelEntries contexts) count)[j]? = some dealt)
    (key : List Char) :
    (assignAll dealt (threadMsgEntries contexts)).lookup key =
      if isChannel key then dealt.lookup key else contexts.lookup key :=
  lookup_primary (fun _ _ hv => (of_lookup_dealt hdealt hv).1) key

/-- The slots as they are returned. -/
def packedSlots (contexts : TextContexts) (clientId : List Char) (maxBytes count : Nat) :
    List TextContexts :=
  (distribute (channelEntries contexts) count).modifyHead fun primary =>
    (trimContextsToBudget (assignAll primary (threadMsgEntries contexts)) clientId
      maxBytes).contexts

/-- A slot that is returned is a dealt one, or the first one trimmed. -/
theorem packedSlots_cases
    (h : (packedSlots contexts clientId maxBytes count)[j]? = some slot) :
    ∃ dealt, (distribute (channelEntries contexts) count)[j]? = some dealt ∧
      (0 < j ∧ slot = dealt ∨ j = 0 ∧ slot = (trimContextsToBudget
        (assignAll dealt (threadMsgEntries contexts)) clientId maxBytes).contexts) := by
  rw [packedSlots, List.getElem?_modifyHead] at h
  split at h
  · next hj =>
      obtain ⟨dealt, hdealt, rfl⟩ := Option.map_eq_some_iff.1 h
      exact ⟨dealt, hdealt, .inr ⟨hj, rfl⟩⟩
  · next hj => exact ⟨slot, h, .inl ⟨Nat.pos_of_ne_zero hj, rfl⟩⟩

theorem lookup_packed_channel
    (h : (packedSlots contexts clientId maxBytes count)[j]? = some slot) :
    ∃ dealt, (distribute (channelEntries contexts) count)[j]? = some dealt ∧
      ∀ key, isChannel key = true → slot.lookup key = dealt.lookup key := by
  obtain ⟨dealt, hdealt, hcases⟩ := packedSlots_cases h
  refine ⟨dealt, hdealt, fun key hkey => ?_⟩
  rcases hcases with ⟨-, hsame⟩ | ⟨-, htrim⟩
  · rw [hsame]
  · have huntrimmed := lookup_untrimmed hdealt key
    rw [if_pos hkey] at huntrimmed
    rw [htrim, ← huntrimmed]
    exact lookup_trim_channel hkey

/-- What the slots are to be: every channel in exactly one slot, with its timestamp; each blob
within the budget; threads and messages in the first slot only, and if one is dropped
then so are those that go before it. -/
structure Packed (contexts : TextContexts) (clientId : List Char) (maxBytes : Nat)
    (slots : List TextContexts) : Prop where
  channel : ∀ key value, isChannel key = true → contexts.lookup key = some value →
    ∃ (j : Nat) (slot : TextContexts), slots[j]? = some slot ∧ slot.lookup key = some value ∧
      ∀ (j' : Nat) (slot' : TextContexts), slots[j']? = some slot' →
        (slot'.lookup key).isSome → j' = j
  bytes : Fits clientId maxBytes slots
  entry : ∀ (j : Nat) (slot : TextContexts), slots[j]? = some slot →
    ∀ key value, slot.lookup key = some value →
      contexts.lookup key = some value ∧ (isChannel key = false → j = 0)
  dropped : ∀ slot, slots[0]? = some slot → ∀ e ∈ contexts.entries, isChannel e.1 = false →
    slot.lookup e.1 = none → ∀ e' ∈ contexts.entries, isChannel e'.1 = false → GoesFirst e' e →
      slot.lookup e'.1 = none

theorem packed_channel (hproto : contexts.lookup protoName = none) (hcount : 0 < count)
    (hkey : isChannel key = true) (hvalue : contexts.lookup key = some value) :
    ∃ (j : Nat) (slot : TextContexts),
      (packedSlots contexts clientId maxBytes count)[j]? = some slot ∧
      slot.lookup key = some value ∧
      ∀ (j' : Nat) (slot' : TextContexts),
        (packedSlots contexts clientId maxBytes count)[j']? = some slot' →
          (slot'.lookup key).isSome → j' = j := by
  have hne : key ≠ protoName := by
    rintro rfl
    rw [hproto] at hvalue
    cases hvalue
  have hlength : (packedSlots contexts clientId maxBytes count).length = count := by
    rw [packedSlots, List.length_modifyHead, length_distribute]
  have hj : position key (channels contexts).keys % count <
      (packedSlots contexts clientId maxBytes count).length := by
    rw [hlength]
    exact Nat.mod_lt _ hcount
  have hslot := List.getElem?_eq_getElem hj
  obtain ⟨dealt, hdealt, hsame⟩ := lookup_packed_channel hslot
  refine ⟨_, _, hslot, ?_, fun j' slot' hslot' hsome => ?_⟩
  · have hlookup : dealt.lookup key = if key ≠ protoName ∧
        position key (channels contexts).keys % count =
          position key (channels contexts).keys % count then (channels contexts).lookup key
        else none :=
      lookup_distribute (channels contexts).nodupKeys hdealt key
    rw [hsame key hkey, hlookup, if_pos ⟨hne, rfl⟩, lookup_channels, if_pos hkey, hvalue]
  · obtain ⟨dealt', hdealt', hsame'⟩ := lookup_packed_channel hslot'
    rw [hsame' key hkey] at hsome
    obtain ⟨v, hv⟩ := Option.isSome_iff_exists.1 hsome
    exact (of_lookup_dealt hdealt' hv).2.2.symm

theorem packed_bytes
    (hfits : Fits clientId maxBytes ((placement contexts count).map withoutProto)) :
    Fits clientId maxBytes (packedSlots contexts clientId maxBytes count) := by
  have hall := all_fits_iff.2 hfits
  rw [List.all_eq_true] at hall
  intro slot hslot
  obtain ⟨j, hj, hget⟩ := List.mem_iff_getElem.1 hslot
  have hget' : (packedSlots contexts clientId maxBytes count)[j]? = some slot :=
    List.getElem?_eq_some_iff.2 ⟨hj, hget⟩
  obtain ⟨dealt, hdealt, hcases⟩ := packedSlots_cases hget'
  have hdealtFits : blobBytes clientId dealt ≤ maxBytes :=
    of_decide_eq_true (hall _ (List.mem_of_getElem? hdealt))
  rcases hcases with ⟨-, hsame⟩ | ⟨-, htrim⟩
  · rw [hsame]
    exact hdealtFits
  · rw [htrim]
    refine trim_fits (le_trans (Nat.le_of_eq (blobBytes_congr fun key => ?_)) hdealtFits)
    -- Without the threads the first slot is what was dealt.
    rw [HMap.lookup_retain, lookup_untrimmed hdealt]
    cases hkey : isChannel key with
    | true =>
        rw [if_pos rfl]
        cases dealt.lookup key <;> rfl
    | false =>
        have hnone : dealt.lookup key = none := by
          rw [Option.eq_none_iff_forall_ne_some]
          intro v hv
          rw [(of_lookup_dealt hdealt hv).1] at hkey
          cases hkey
        rw [hnone]
        cases contexts.lookup key <;> rfl

theorem packed_entry
    (hslot : (packedSlots contexts clientId maxBytes count)[j]? = some slot)
    (h : slot.lookup key = some value) :
    contexts.lookup key = some value ∧ (isChannel key = false → j = 0) := by
  obtain ⟨dealt, hdealt, ⟨-, hsame⟩ | ⟨hj, htrim⟩⟩ := packedSlots_cases hslot
  · rw [hsame] at h
    obtain ⟨hchannel, hvalue, -⟩ := of_lookup_dealt hdealt h
    refine ⟨hvalue, fun hnot => ?_⟩
    rw [hchannel] at hnot
    cases hnot
  · refine ⟨?_, fun _ => hj⟩
    rw [htrim] at h
    have hold := lookup_trim h
    rw [lookup_untrimmed hdealt] at hold
    split at hold
    · exact (of_lookup_dealt hdealt hold).2.1
    · exact hold

theorem packed_dropped
    (hslot : (packedSlots contexts clientId maxBytes count)[0]? = some slot)
    {e e' : (_ : List Char) × Nat} (he : e ∈ contexts.entries)
    (hthread : isChannel e.1 = false) (hgone : slot.lookup e.1 = none)
    (he' : e' ∈ contexts.entries) (hthread' : isChannel e'.1 = false)
    (hfirst : GoesFirst e' e) : slot.lookup e'.1 = none := by
  obtain ⟨dealt, hdealt, ⟨hpos, -⟩ | ⟨-, htrim⟩⟩ := packedSlots_cases hslot
  · exact absurd hpos (Nat.lt_irrefl 0)
  · rw [htrim] at hgone ⊢
    have hprimary : ∀ e ∈ contexts.entries, isChannel e.1 = false →
        (assignAll dealt (threadMsgEntries contexts)).lookup e.1 = some e.2 := by
      intro e he hthread
      rw [lookup_untrimmed hdealt, hthread]
      exact HMap.mem_entries_iff.1 he
    exact trim_dropped (hprimary e he hthread) hgone (hprimary e' he' hthread') hthread' hfirst

/-! ## The split -/

variable {initialSlotCount maxSlots : Nat} {slotIdGenerator : Nat → SlotId}

/-- The contexts are split, as `splitContextsIntoSlots` calls it. -/
def split (contexts : TextContexts) (clientId : List Char)
    (initialSlotCount maxSlots maxBytes : Nat) (slotIdGenerator : Nat → SlotId) :
    Option SlotSplitResult :=
  splitContextsIntoBudgetedSlots (channelEntries contexts) (threadMsgEntries contexts) clientId
    initialSlotCount maxSlots maxBytes slotIdGenerator

/-- The numbers of slots that are tried. -/
def Allowed (initialSlotCount maxSlots count : Nat) : Prop :=
  initialSlotCount ≤ count ∧ count ≤ max initialSlotCount maxSlots

/-- The split is the packing for a number of slots that fits, or there is no such number. -/
theorem split_cases (contexts : TextContexts) (clientId : List Char)
    (initialSlotCount maxSlots maxBytes : Nat) (slotIdGenerator : Nat → SlotId) :
    (split contexts clientId initialSlotCount maxSlots maxBytes slotIdGenerator = none ∧
      ∀ count, Allowed initialSlotCount maxSlots count →
        ¬ Fits clientId maxBytes ((placement contexts count).map withoutProto)) ∨
    ∃ count result, Allowed initialSlotCount maxSlots count ∧
      Fits clientId maxBytes ((placement contexts count).map withoutProto) ∧
      split contexts clientId initialSlotCount maxSlots maxBytes slotIdGenerator = some result ∧
      result.slots = packedSlots contexts clientId maxBytes count := by
  unfold split splitContextsIntoBudgetedSlots
  dsimp only
  let fits (count : Nat) : Bool :=
    (distribute (channelEntries contexts) count).all (blobBytes clientId · ≤ maxBytes)
  have hbounds := growSlots_bounds fits initialSlotCount (maxSlots - initialSlotCount)
  split
  · next hnot =>
      rw [Bool.not_eq_true'] at hnot
      refine .inl ⟨rfl, fun count hcount hfits => ?_⟩
      have hroom : count ≤ initialSlotCount + (maxSlots - initialSlotCount) := by
        have hle := hcount.2
        omega
      have hfalse : fits count = false := not_fits_of_growSlots fits hnot hcount.1 hroom
      rw [show fits count = true from all_fits_iff.2 hfits] at hfalse
      cases hfalse
  · next hfits =>
      rw [Bool.not_eq_true', Bool.not_eq_false] at hfits
      exact .inr ⟨_, _, ⟨hbounds.1, by omega⟩, all_fits_iff.1 hfits, rfl, rfl⟩

/-- What is asked of the split and of the trim. -/
structure RespectsBudget (contexts : TextContexts) (clientId : List Char)
    (initialSlotCount maxSlots maxBytes : Nat) (slotIdGenerator : Nat → SlotId) : Prop where
  packed : ∀ result,
    split contexts clientId initialSlotCount maxSlots maxBytes slotIdGenerator = some result →
      Packed contexts clientId maxBytes result.slots
  null : split contexts clientId initialSlotCount maxSlots maxBytes slotIdGenerator = none →
    ∀ count, Allowed initialSlotCount maxSlots count →
      ¬ Fits clientId maxBytes (placement contexts count)
  trim_channel : ∀ key, isChannel key = true →
    (trimContextsToBudget contexts clientId maxBytes).contexts.lookup key = contexts.lookup key
  trim_whole : blobBytes clientId contexts ≤ maxBytes →
    (trimContextsToBudget contexts clientId maxBytes).contexts = contexts
  trim_fails : (trimContextsToBudget contexts clientId maxBytes).fitsAfterTrim = false ↔
    maxBytes < blobBytes clientId (channels contexts)

theorem trim_fails_iff : (trimContextsToBudget contexts clientId maxBytes).fitsAfterTrim = false ↔
    maxBytes < blobBytes clientId (channels contexts) := by
  rw [← Bool.not_eq_true, fitsAfterTrim_iff, Nat.not_le]
  rfl

/-- A channel called `__proto__` is in no slot. -/
theorem not_respectsBudget (hproto : contexts.lookup protoName = some value)
    (hcount : Allowed initialSlotCount maxSlots count)
    (hfits : Fits clientId maxBytes ((placement contexts count).map withoutProto)) :
    ¬ RespectsBudget contexts clientId initialSlotCount maxSlots maxBytes slotIdGenerator := by
  intro h
  rcases split_cases contexts clientId initialSlotCount maxSlots maxBytes slotIdGenerator with
    ⟨-, hnone⟩ | ⟨count', result, -, -, hsplit, hslots⟩
  · exact hnone count hcount hfits
  · obtain ⟨j, slot, hslot, hlookup, -⟩ :=
      (h.packed result hsplit).channel protoName value (by decide) hproto
    rw [hslots] at hslot
    obtain ⟨dealt, hdealt, hsame⟩ := lookup_packed_channel hslot
    rw [hsame protoName (by decide)] at hlookup
    have hnone : dealt.lookup protoName = if protoName ≠ protoName ∧
        position protoName (channels contexts).keys % count' = j then
          (channels contexts).lookup protoName else none :=
      lookup_distribute (channels contexts).nodupKeys hdealt protoName
    rw [if_neg fun h => h.1 rfl, hlookup] at hnone
    cases hnone

/-- The split and the trim do what is asked of them if and only if no channel is called
`__proto__`, or the others do not fit in any number of slots. -/
theorem respectsBudget_iff (contexts : TextContexts) (clientId : List Char)
    {initialSlotCount : Nat} (hinitial : 0 < initialSlotCount) (maxSlots maxBytes : Nat)
    (slotIdGenerator : Nat → SlotId) :
    RespectsBudget contexts clientId initialSlotCount maxSlots maxBytes slotIdGenerator ↔
      contexts.lookup protoName = none ∨ ∀ count, Allowed initialSlotCount maxSlots count →
        ¬ Fits clientId maxBytes ((placement contexts count).map withoutProto) := by
  constructor
  · intro h
    by_contra hnot
    rw [not_or, not_forall] at hnot
    obtain ⟨hproto, count, hnot⟩ := hnot
    rw [Classical.not_imp, not_not] at hnot
    obtain ⟨value, hvalue⟩ := Option.ne_none_iff_exists'.1 hproto
    exact not_respectsBudget hvalue hnot.1 hnot.2 h
  · intro hwhen
    refine ⟨fun result hsplit => ?_, fun hsplit count hcount hfits => ?_,
      fun key hkey => lookup_trim_channel hkey, fun hfits => ?_, trim_fails_iff⟩
    · rcases split_cases contexts clientId initialSlotCount maxSlots maxBytes slotIdGenerator with
        ⟨hnone, -⟩ | ⟨count, result', hcount, hfits, hsome, hslots⟩
      · rw [hnone] at hsplit
        cases hsplit
      · rw [hsome] at hsplit
        cases hsplit
        have hproto := hwhen.resolve_right fun h => h count hcount hfits
        rw [hslots]
        exact ⟨fun key value hkey hvalue =>
            packed_channel hproto (hinitial.trans_le hcount.1) hkey hvalue,
          packed_bytes hfits, fun j slot hslot key value h => packed_entry hslot h,
          fun slot hslot e he hthread hgone e' he' hthread' hfirst =>
            packed_dropped hslot he hthread hgone he' hthread' hfirst⟩
    · rcases split_cases contexts clientId initialSlotCount maxSlots maxBytes slotIdGenerator with
        ⟨-, hnone⟩ | ⟨count', result, -, -, hsome, -⟩
      · exact hnone count hcount (fits_withoutProto hfits)
      · rw [hsome] at hsplit
        cases hsplit
    · unfold trimContextsToBudget
      rw [if_pos hfits]

/-- Two channels and two messages, of which the older one has to go. -/
def fourContexts : TextContexts :=
  assignAll ∅ [⟨"general".toList, 3⟩, ⟨"msg:1".toList, 2⟩, ⟨"random".toList, 1⟩,
    ⟨"msg:2".toList, 9⟩]

theorem respectsBudget_trimmed :
    RespectsBudget fourContexts "client".toList 1 8 75 (fun _ => []) ∧
      (split fourContexts "client".toList 1 8 75 fun _ => []).map
        (fun result => result.slots.map AList.keys) =
          some [["general".toList, "random".toList, "msg:2".toList]] :=
  ⟨(respectsBudget_iff _ _ (by decide) _ _ _).2 (.inl (by decide)), by decide⟩

/-- A channel that is called `__proto__` is lost. -/
theorem proto_channel_lost :
    ¬ RespectsBudget ((∅ : TextContexts).put protoName 1) "client".toList 1 8 32768
      (fun _ => []) := by
  have hfits : Fits "client".toList 32768
      ((placement ((∅ : TextContexts).put protoName 1) 1).map withoutProto) := by
    unfold Fits
    decide
  exact not_respectsBudget rfl ⟨by decide, by decide⟩ hfits

/-! ## The split of the manager -/

theorem entries_assign (hproto : key ≠ protoName) (hnew : key ∉ object.keys) :
    (assign object key value).entries = object.entries ++ [⟨key, value⟩] := by
  unfold assign
  rw [if_neg hproto]
  show HMap.putEntries key value object.entries = _
  have hkeys : key ∉ object.entries.keys := hnew
  generalize object.entries = l at hkeys
  induction l with
  | nil => rfl
  | cons e l ih =>
      rw [List.keys_cons, List.mem_cons, not_or] at hkeys
      rw [HMap.putEntries, if_neg fun h => hkeys.1 h.symm, ih hkeys.2,
        List.cons_append]

/-- A slot that has none of the keys gets the entries at its positions, in order. -/
theorem entries_deal (hl : entries.NodupKeys)
    (hproto : protoName ∉ entries.keys) {i : Nat}
    (hnew : ∀ slot ∈ slots, ∀ k ∈ entries.keys, k ∉ slot.keys) (j : Nat) :
    ((deal count i slots entries)[j]?).map (·.entries) = (slots[j]?).map fun slot =>
      slot.entries ++
        entries.filter fun e => (i + position e.1 entries.keys) % count = j := by
  induction entries generalizing i slots with
  | nil =>
      rw [deal]
      simp
  | cons e entries ih =>
      obtain ⟨hfresh, hl⟩ := List.nodupKeys_cons.1 hl
      rw [List.keys_cons, List.mem_cons, not_or] at hproto
      have hrest : (entries.filter fun e' =>
          (i + position e'.1 (e :: entries).keys) % count = j) =
          entries.filter fun e' => (i + 1 + position e'.1 entries.keys) % count = j := by
        refine List.filter_congr fun e' he' => ?_
        have hne : e'.1 ≠ e.1 := fun h =>
          hfresh (h ▸ List.mem_map_of_mem he')
        rw [List.keys_cons, position_cons_ne hne, Nat.add_assoc i 1, Nat.add_comm 1]
      have hassign : ∀ slot ∈ slots, (assign slot e.1 e.2).entries =
          slot.entries ++ [e] := fun slot hslot =>
        entries_assign (fun h => hproto.1 h.symm) (hnew slot hslot e.1 List.mem_cons_self)
      rw [deal, ih hl hproto.2]
      · rw [List.getElem?_modify, Option.map_eq_map, Option.map_map]
        cases hslot : slots[j]? with
        | none => rfl
        | some slot =>
            have hmem := List.mem_of_getElem? hslot
            simp only [Option.map_some, Option.some.injEq, Function.comp_apply]
            rw [List.filter_cons, hrest, List.keys_cons, position_cons_self]
            by_cases hj : i % count = j
            · simp only [Nat.add_zero, hj, decide_true, if_true, hassign slot hmem,
                List.append_assoc, List.singleton_append]
            · simp only [Nat.add_zero, hj, decide_false, Bool.false_eq_true, if_false]
      · intro slot hslot k hk
        obtain ⟨n, hn⟩ := List.getElem?_of_mem hslot
        rw [List.getElem?_modify, Option.map_eq_map] at hn
        obtain ⟨old, hold, rfl⟩ := Option.map_eq_some_iff.1 hn
        have hmem := List.mem_of_getElem? hold
        have hkold := hnew old hmem k (List.mem_cons_of_mem _ hk)
        split
        · show k ∉ (assign old e.1 e.2).entries.keys
          rw [hassign old hmem, List.keys_append, List.mem_append, not_or]
          refine ⟨hkold, fun hmem => hfresh ?_⟩
          rw [← List.mem_singleton.1 hmem]
          exact hk
        · exact hkold

/-- Without `__proto__` the entries are dealt as the manager does it. -/
theorem distribute_eq (channels : TextContexts) (hproto : protoName ∉ channels.keys)
    (count : Nat) : distribute channels.entries count = Desktop.distribute channels count := by
  refine List.ext_getElem? fun j => ?_
  refine Option.map_injective (f := fun slot : TextContexts => slot.entries)
    (fun _ _ => AList.ext) ?_
  rw [distribute, entries_deal channels.nodupKeys hproto]
  · rw [Desktop.distribute, List.getElem?_map, Option.map_map]
    by_cases hj : j < count
    · rw [List.getElem?_replicate, if_pos hj, List.getElem?_range hj]
      simp only [Nat.zero_add]
      rfl
    · rw [List.getElem?_replicate, if_neg hj, List.getElem?_eq_none (by simpa using hj)]
      rfl
  · intro slot hslot k _
    rw [(List.mem_replicate.1 hslot).2]
    exact List.not_mem_nil

theorem assignAll_eq (primary threadMsgs : TextContexts)
    (hproto : protoName ∉ threadMsgs.keys) :
    assignAll primary threadMsgs.entries = primary.putAll threadMsgs := by
  refine List.foldl_ext _ _ _ fun object e he => ?_
  refine if_neg fun h => hproto ?_
  rw [← h]
  exact List.mem_map_of_mem he

/-- Of contexts that have no `__proto__`, as the manager's have none, the slots are
those the manager publishes. -/
theorem splitContextsIntoBudgetedSlots_eq (channels threadMsgs : TextContexts)
    (hchannels : protoName ∉ channels.keys) (hthreadMsgs : protoName ∉ threadMsgs.keys)
    (clientId : List Char) (initialSlotCount maxSlots maxBytes : Nat)
    (slotIdGenerator : Nat → SlotId) :
    (splitContextsIntoBudgetedSlots channels.entries threadMsgs.entries clientId
        initialSlotCount maxSlots maxBytes slotIdGenerator).map SlotSplitResult.slots =
      Desktop.splitContextsIntoBudgetedSlots channels threadMsgs clientId initialSlotCount
        maxSlots maxBytes := by
  unfold splitContextsIntoBudgetedSlots Desktop.splitContextsIntoBudgetedSlots
  simp only [distribute_eq channels hchannels]
  split
  · rfl
  · rw [Option.map_some]
    split
    · next hnil => rw [hnil]; rfl
    · next primary rest hcons =>
        rw [hcons, List.modifyHead_cons, assignAll_eq primary threadMsgs hthreadMsgs]

end Buzz.Desktop.Slots
