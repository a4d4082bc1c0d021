import Buzz.Desktop.ReadState

/-!
# Slots for entries as they come

`splitContextsIntoBudgetedSlots` on the entries of a map, whatever their keys are: the slots
are objects, and the entries are assigned to them one by one. The manager's own contexts
(`Contexts`) leave out the names that every object has; here no key is left out.
-/

namespace Buzz.Desktop.Slots

open Buzz.Lib

instance textKey : ContextKey (List Char) := ⟨id⟩

/-- An object of timestamps, or the entries of a map. -/
abbrev TextContexts := HMap (List Char) Nat

def protoName : List Char := "__proto__".toList

/-- `object[key] = ts`. Every object has a setter for `__proto__`, which takes no number. -/
def assign (object : TextContexts) (key : List Char) (ts : Nat) : TextContexts :=
  if key = protoName then object else object.put key ts

def assignAll (object : TextContexts) (entries : List ((_ : List Char) × Nat)) : TextContexts :=
  entries.foldl (fun object e => assign object e.1 e.2) object

/-- The loop of `distribute`, from entry `i` on. -/
def deal (count : Nat) :
    (i : Nat) → List TextContexts → List ((_ : List Char) × Nat) → List TextContexts
  | _, slotContexts, [] => slotContexts
  | i, slotContexts, e :: rest =>
      deal count (i + 1) (slotContexts.modify (i % count) (assign · e.1 e.2)) rest

def distribute (channelEntries : List ((_ : List Char) × Nat)) (count : Nat) :
    List TextContexts :=
  deal count 0 (List.replicate count ∅) channelEntries

structure SlotSplitResult where
  slots : List TextContexts
  extraSlotIds : List SlotId

def splitContextsIntoBudgetedSlots (channelEntries threadMsgEntries : List ((_ : List Char) × Nat))
    (clientId : List Char) (initialSlotCount maxSlots maxBytes : Nat)
    (slotIdGenerator : Nat → SlotId) : Option SlotSplitResult :=
  let fits (count : Nat) : Bool :=
    (distribute channelEntries count).all (blobBytes clientId · ≤ maxBytes)
  let slotCount := growSlots fits initialSlotCount (maxSlots - initialSlotCount)
  if !fits slotCount then none
  else
    some
      { slots := (distribute channelEntries slotCount).modifyHead fun primary =>
          (trimContextsToBudget (assignAll primary threadMsgEntries) clientId maxBytes).contexts
        extraSlotIds := (List.range (slotCount - initialSlotCount)).map slotIdGenerator }

/-- The two parts `splitContextsIntoSlots` makes of the contexts. -/
def channelEntries (contexts : TextContexts) : List ((_ : List Char) × Nat) :=
  contexts.entries.filter fun e => isChannel e.1

def threadMsgEntries (contexts : TextContexts) : List ((_ : List Char) × Nat) :=
  contexts.entries.filter fun e => !isChannel e.1

end Buzz.Desktop.Slots
