import Buzz.Core.Event
import Buzz.Core.Json
import Buzz.Lib.InsertionOrder
import Buzz.Lib.Machine

/-!
# Read state between the clients of an account

`desktop/src/features/channels/readState`. Every client keeps a timestamp for each
context it has read (a channel, a thread, a message) and publishes them in a blob of
its own, one event in a slot of the relay that the next one replaces. What it hears
from other clients it merges by the maximum, and publishes again.

The functions are those of `ReadStateManager`, on the state of one manager. A publish
waits for the relay several times, and other things happen in between, another publish
among them: it is kept as what is left of it. The blobs are encrypted by the account to
itself, so an event carries the blob as it was. Timestamps and clocks are whole seconds.
The local storage, but for what a manager starts from, and the listeners are left out.
-/

namespace Buzz.Desktop

open Buzz.Lib

/-- The names every JavaScript object has. -/
def objectNames : List (List Char) :=
  ["__proto__", "constructor", "hasOwnProperty", "isPrototypeOf", "propertyIsEnumerable",
    "toLocaleString", "toString", "valueOf", "__defineGetter__", "__defineSetter__",
    "__lookupGetter__", "__lookupSetter__"].map String.toList

/-- A channel's id, or the id of a thread or a message behind its prefix. -/
structure ContextId where
  text : List Char
  plain : text ∉ objectNames := by decide
deriving DecidableEq

/-- A key of contexts, by the text it is. -/
class ContextKey (κ : Type) where
  text : κ → List Char

instance contextIdKey : ContextKey ContextId := ⟨ContextId.text⟩

abbrev SlotId := List Char

/-- A `Map` of timestamps, or an object of them. -/
abbrev Contexts := HMap ContextId Nat

structure ReadStateBlob where
  clientId : List Char
  contexts : Contexts

/-- A `kind:30078` event; its `d` tag is the slot's id behind `read-state:`. -/
structure ReadStateEvent where
  id : EventId
  slotId : SlotId
  createdAt : Nat
  blob : ReadStateBlob

/-! ## Format -/

def readStateMaxPlaintextBytes : Nat := 32768
def readStateMaxSlots : Nat := 8
def maxContexts : Nat := 10000
def publishedIdMemory : Nat := 64

def msgPrefix : List Char := "msg:".toList
def threadPrefix : List Char := "thread:".toList

section Keys

variable {κ : Type} [ContextKey κ]

def isMsg (context : κ) : Bool := msgPrefix.isPrefixOf (ContextKey.text context)
def isThread (context : κ) : Bool := threadPrefix.isPrefixOf (ContextKey.text context)

/-- Neither a thread nor a message. -/
def isChannel (context : κ) : Bool := !isMsg context && !isThread context

end Keys

/-- `TextEncoder.encode(..).length`. -/
def utf8Length (text : List Char) : Nat := (text.map Char.utf8Size).sum

/-- `String.length`. -/
def utf16Length (text : List Char) : Nat :=
  (text.map fun c => if c.toNat < 65536 then 1 else 2).sum

/-- A key that an object lists before the others, by its number. -/
def isArrayIndex (key : List Char) : Bool :=
  key ≠ [] && key.all Char.isDigit && (key = ['0'] || key.head? ≠ some '0') &&
    Nat.ofDigitChars 10 key 0 < 4294967295

section Order

variable {κ : Type} [ContextKey κ]

/-- The entries of an object in the order of `Object.entries`. -/
def orderEntries (entries : List ((_ : κ) × Nat)) : List ((_ : κ) × Nat) :=
  (entries.filter fun e => isArrayIndex (ContextKey.text e.1)).insertionSort
      (fun a b => Nat.ofDigitChars 10 (ContextKey.text a.1) 0 ≤
        Nat.ofDigitChars 10 (ContextKey.text b.1) 0) ++
    entries.filter fun e => !isArrayIndex (ContextKey.text e.1)

theorem orderEntries_perm (entries : List ((_ : κ) × Nat)) :
    (orderEntries entries).Perm entries := by
  refine ((List.perm_insertionSort _ _).append_right _).trans ?_
  exact List.filter_append_perm _ entries

def inOrder (contexts : HMap κ Nat) : HMap κ Nat :=
  ⟨orderEntries contexts.entries,
    (List.perm_nodupKeys (orderEntries_perm contexts.entries)).2 contexts.nodupKeys⟩

end Order

def Contexts.inOrder (contexts : Contexts) : Contexts := Desktop.inOrder contexts

def sanitizeContexts (contexts : Contexts) : Contexts :=
  contexts.inOrder.retain fun key value => utf8Length key.text ≤ 256 && value ≤ 4294967295

def isValidBlob (blob : ReadStateBlob) : Bool :=
  blob.clientId ≠ [] && utf16Length blob.clientId ≤ 64 && blob.contexts.keys.length ≤ maxContexts

def isValidSlotId (slotId : SlotId) : Bool :=
  slotId ≠ [] && utf16Length slotId ≤ 64 && slotId.all (·.toNat ≤ 127)

/-- The author and the tags of the events here are those `publishOneSlot` gives them. -/
def parseReadStateEvent (event : ReadStateEvent) : Option ReadStateEvent :=
  if isValidSlotId event.slotId && isValidBlob event.blob then
    some { event with
      blob := { event.blob with contexts := sanitizeContexts event.blob.contexts } }
  else none

section Blob

variable {κ : Type} [ContextKey κ]

def contextText (e : (_ : κ) × Nat) : List Char :=
  Json.renderString (ContextKey.text e.1) ++ ':' :: Nat.toDigits 10 e.2

/-- `JSON.stringify` of the blob. -/
def blobFor (clientId : List Char) (contexts : HMap κ Nat) : List Char :=
  "\x7b\"v\":1,\"client_id\":".toList ++ Json.renderString clientId ++
    ",\"contexts\":\x7b".toList ++ [','].intercalate (contexts.entries.map contextText) ++
    "\x7d\x7d".toList

def blobBytes (clientId : List Char) (contexts : HMap κ Nat) : Nat :=
  utf8Length (blobFor clientId contexts)

end Blob

/-! ## Budget -/

section Budget

variable {κ : Type} [DecidableEq κ] [ContextKey κ]

structure TrimResult (κ : Type) where
  contexts : HMap κ Nat
  evicted : Nat
  fitsAfterTrim : Bool

/-- What an entry is taken to add to the blob. -/
def estimate (e : (_ : κ) × Nat) : Int :=
  utf16Length (ContextKey.text e.1) + 3 + (Nat.toDigits 10 e.2).length + 1

/-- The entries to evict until the estimate is within the budget. -/
def toEvict (maxBytes : Nat) :
    Int → List ((_ : κ) × Nat) → List ((_ : κ) × Nat)
  | _, [] => []
  | currentBytes, e :: rest =>
      if currentBytes ≤ maxBytes then []
      else e :: toEvict maxBytes (currentBytes - estimate e) rest

/-- Messages before threads, the oldest first. -/
def evictionOrder (contexts : HMap κ Nat) : List ((_ : κ) × Nat) :=
  let entries := (inOrder contexts).entries
  (entries.filter fun e => isMsg e.1).insertionSort (fun a b => a.2 ≤ b.2) ++
    (entries.filter fun e => !isMsg e.1 && isThread e.1).insertionSort fun a b => a.2 ≤ b.2

def trimContextsToBudget (contexts : HMap κ Nat) (clientId : List Char) (maxBytes : Nat) :
    TrimResult κ :=
  if blobBytes clientId contexts ≤ maxBytes then ⟨contexts, 0, true⟩
  else
    let evicted := toEvict maxBytes (blobBytes clientId contexts) (evictionOrder contexts)
    let kept := contexts.retain fun key _ => key ∉ evicted.map (·.1)
    ⟨kept, evicted.length, blobBytes clientId kept ≤ maxBytes⟩

/-- The channel keys dealt out to `count` slots. -/
def distribute (channels : HMap κ Nat) (count : Nat) : List (HMap κ Nat) :=
  (List.range count).map fun slot =>
    channels.retain fun key _ => channels.keys.idxOf key % count = slot

/-- One slot more until they fit, or there is no room. -/
def growSlots (fits : Nat → Bool) : (slotCount room : Nat) → Nat
  | slotCount, 0 => slotCount
  | slotCount, room + 1 =>
      if fits slotCount then slotCount else growSlots fits (slotCount + 1) room

def splitContextsIntoBudgetedSlots (channels threadMsgs : HMap κ Nat) (clientId : List Char)
    (initialSlotCount maxSlots maxBytes : Nat) : Option (List (HMap κ Nat)) :=
  let fits (count : Nat) : Bool := (distribute channels count).all (blobBytes clientId · ≤ maxBytes)
  let slotCount := growSlots fits initialSlotCount (maxSlots - initialSlotCount)
  if !fits slotCount then none
  else
    match distribute channels slotCount with
    | [] => some []
    | primary :: rest =>
        some ((trimContextsToBudget (primary.putAll threadMsgs) clientId maxBytes).contexts :: rest)

end Budget

/-! ## The manager -/

structure Manager where
  clientId : List Char
  slotId : SlotId
  extraSlotIds : List SlotId
  effectiveState : Contexts
  publishableContextIds : List ContextId
  contextSourceCreatedAt : Contexts
  lastPublishedContexts : Contexts := ∅
  debounceTimer : Bool := false
  initialized : Bool := false
  maxFetchedCreatedAt : Nat := 0
  pendingSyncedAdvances : List ContextId := []
  recentlyPublishedIds : List EventId := []

namespace Manager

variable (m : Manager)

def schedulePublish : Manager := { m with debounceTimer := true }

/-- `advanceContext` for what is publishable. -/
def advanceContext (context : ContextId) (timestamp : Nat) : Manager :=
  let current := (m.effectiveState.lookup context).getD 0
  if timestamp ≤ current then
    if context ∈ m.publishableContextIds then m
    else
      { m with publishableContextIds := m.publishableContextIds ++ [context] }.schedulePublish
  else
    { m with
      effectiveState := m.effectiveState.put context timestamp
      publishableContextIds := pushNew m.publishableContextIds context }.schedulePublish

def markContextRead (context : ContextId) (timestamp now : Nat) : Manager :=
  let m := m.advanceContext context timestamp
  { m with
    contextSourceCreatedAt :=
      m.contextSourceCreatedAt.put context (max now (m.maxFetchedCreatedAt + 1)) }

/-- The manager, and whether the context advanced. -/
def applyRemoteContextTimestamp (context : ContextId)
    (timestamp eventCreatedAt : Nat) : Manager × Bool :=
  let sourceCreatedAt := (m.contextSourceCreatedAt.lookup context).getD 0
  let current := (m.effectiveState.lookup context).getD 0
  let next := max current timestamp
  let advanced := decide (next ≠ current)
  ({ m with
      effectiveState :=
        if advanced then m.effectiveState.put context next else m.effectiveState
      contextSourceCreatedAt :=
        if sourceCreatedAt < eventCreatedAt then
          m.contextSourceCreatedAt.put context eventCreatedAt
        else m.contextSourceCreatedAt },
    advanced)

/-- A context of a fetched event. -/
def mergeContext (eventCreatedAt : Nat) (m : Manager) (e : (_ : ContextId) × Nat) : Manager :=
  let (m, advanced) := m.applyRemoteContextTimestamp e.1 e.2 eventCreatedAt
  if advanced then
    { m with
      pendingSyncedAdvances := pushNew m.pendingSyncedAdvances e.1
      publishableContextIds := pushNew m.publishableContextIds e.1 }
  else m

def mergeEvent (parsed : ReadStateEvent) : Manager :=
  parsed.blob.contexts.inOrder.entries.foldl (mergeContext parsed.createdAt)
    { m with maxFetchedCreatedAt := max m.maxFetchedCreatedAt parsed.createdAt }

/-- The newest of the client's own blobs in each slot. -/
def ownBlobsBySlot (clientId : List Char) (parsed : List ReadStateEvent) :
    HMap SlotId ReadStateEvent :=
  (parsed.filter fun event => event.blob.clientId = clientId).foldl
    (fun blobs event =>
      if (blobs.lookup event.slotId).any (event.createdAt ≤ ·.createdAt) then blobs
      else blobs.put event.slotId event)
    ∅

/-- `fresh` is the slot id `generateHex` would give. -/
def mergeEvents (events : List ReadStateEvent) (fresh : SlotId) : Manager :=
  let parsed := events.filterMap parseReadStateEvent
  let own := (ownBlobsBySlot m.clientId parsed).entries.map (·.2.blob.contexts.inOrder)
  let merged := parsed.foldl mergeEvent m
  let squatted := parsed.any fun event =>
    event.slotId = m.slotId && event.blob.clientId ≠ m.clientId
  let merged := if squatted then { merged with slotId := fresh } else merged
  if own.isEmpty then merged
  else
    { merged with
      lastPublishedContexts := HMap.joinMax own
      publishableContextIds :=
        (own.flatMap (·.keys)).foldl pushNew merged.publishableContextIds }

/-- A context of an event from the subscription. -/
def incomingContext (eventCreatedAt : Nat) (state : Manager × Bool)
    (e : (_ : ContextId) × Nat) : Manager × Bool :=
  let (m, advanced) := state.1.applyRemoteContextTimestamp e.1 e.2 eventCreatedAt
  let m :=
    if advanced then { m with pendingSyncedAdvances := pushNew m.pendingSyncedAdvances e.1 }
    else m
  if e.1 ∈ m.publishableContextIds then (m, state.2 || advanced)
  else ({ m with publishableContextIds := m.publishableContextIds ++ [e.1] }, true)

def handleIncomingEvent (event : ReadStateEvent) : Manager :=
  if event.id ∈ m.recentlyPublishedIds then
    { m with recentlyPublishedIds := m.recentlyPublishedIds.erase event.id }
  else
    match parseReadStateEvent event with
    | none => m
    | some parsed =>
        let m := { m with maxFetchedCreatedAt := max m.maxFetchedCreatedAt parsed.createdAt }
        let (m, anyAdvanced) :=
          parsed.blob.contexts.inOrder.entries.foldl (incomingContext parsed.createdAt) (m, false)
        if anyAdvanced && parsed.blob.clientId ≠ m.clientId then m.schedulePublish else m

def rememberPublishedId (id : EventId) : Manager :=
  let ids := pushNew m.recentlyPublishedIds id
  { m with recentlyPublishedIds := if publishedIdMemory < ids.length then ids.tail else ids }

def isIdenticalToLastPublished (contexts : Contexts) : Bool :=
  m.lastPublishedContexts.keys.length = contexts.keys.length &&
    contexts.entries.all fun e => m.lastPublishedContexts.lookup e.1 = some e.2

/-- What may be published. -/
def publishable : Contexts :=
  m.effectiveState.retain fun key _ => key ∈ m.publishableContextIds

def currentContexts : Option Contexts :=
  let trimmed := trimContextsToBudget m.publishable m.clientId readStateMaxPlaintextBytes
  if trimmed.fitsAfterTrim then some trimmed.contexts else none

/-- The extra slots from now on, and what goes to each slot. -/
def splitContextsIntoSlots (supply : List SlotId) :
    Option (List SlotId × List (SlotId × Contexts)) :=
  let allSlotIds := m.slotId :: m.extraSlotIds
  let channels := m.publishable.retain fun key _ => isChannel key
  let threadMsgs := m.publishable.retain fun key _ => !isChannel key
  (splitContextsIntoBudgetedSlots channels threadMsgs m.clientId allSlotIds.length
    readStateMaxSlots readStateMaxPlaintextBytes).map fun slots =>
      let generated := supply.take (slots.length - allSlotIds.length)
      (m.extraSlotIds ++ generated, (allSlotIds ++ generated).zip slots)

end Manager

/-! ## Publishing -/

/-- What is left of a publish: it waits for its fetch, for the deletion of extra slots,
or for the relay to take the blob of a slot. -/
inductive Publish where
  | fetching (slotIds : List SlotId)
  | deleting (rest : List SlotId) (contexts : Contexts)
  | sending (rest : List (SlotId × Contexts))

namespace Manager

variable (m : Manager)

/-- `publish` after the fetch: what is to be sent, if anything. -/
def compose (supply : List SlotId) : Manager × Option Publish :=
  match m.currentContexts with
  | none =>
      match m.splitContextsIntoSlots supply with
      | none => (m, none)
      | some (extraSlotIds, slots) =>
          let m := { m with extraSlotIds }
          if m.isIdenticalToLastPublished (HMap.joinMax (slots.map (·.2.inOrder))) then (m, none)
          else ({ m with lastPublishedContexts := ∅ }, some (.sending slots))
  | some contexts =>
      if m.extraSlotIds ≠ [] then (m, some (.deleting m.extraSlotIds contexts))
      else if m.isIdenticalToLastPublished contexts then (m, none)
      else (m, some (.sending [(m.slotId, contexts)]))

/-- `publish` after the last of the extra slots. -/
def afterDeletion (contexts : Contexts) : Manager × Option Publish :=
  let m := { m with extraSlotIds := [], lastPublishedContexts := ∅ }
  if m.isIdenticalToLastPublished contexts then (m, none)
  else (m, some (.sending [(m.slotId, contexts)]))

/-- The event of one slot, signed at `now`. -/
def signed (slotId : SlotId) (contexts : Contexts) (now : Nat) (id : EventId) :
    ReadStateEvent where
  id := id
  slotId := slotId
  createdAt := max now (m.maxFetchedCreatedAt + 1)
  blob := ⟨m.clientId, contexts⟩

/-- The relay took the event of one slot. -/
def recordPublished (event : ReadStateEvent) : Manager :=
  { m with
    contextSourceCreatedAt := event.blob.contexts.inOrder.entries.foldl
      (fun sources e =>
        if m.lastPublishedContexts.lookup e.1 ≠ some e.2 then sources.put e.1 event.createdAt
        else sources)
      m.contextSourceCreatedAt
    lastPublishedContexts := m.lastPublishedContexts.putAll event.blob.contexts
    maxFetchedCreatedAt := max m.maxFetchedCreatedAt event.createdAt }

/-- The rest of `initialize`, behind its fetch and the subscription. -/
def finishInitialize : Manager :=
  let m :=
    match m.currentContexts with
    | none => m.schedulePublish
    | some contexts => if m.isIdenticalToLastPublished contexts then m else m.schedulePublish
  { m with initialized := true }

end Manager

/-! ## The relay -/

/-- The event takes the place of another one in its slot. -/
def ReadStateEvent.supersedes (event old : ReadStateEvent) : Bool :=
  old.createdAt < event.createdAt ||
    (old.createdAt = event.createdAt &&
      event.id.bytes.map UInt8.toNat < old.id.bytes.map UInt8.toNat)

structure Relay where
  slots : HMap SlotId ReadStateEvent := ∅
  /-- Everything that was ever accepted, for the subscriptions. -/
  published : List ReadStateEvent := []
  /-- The calls of `publishEvent`. -/
  calls : Nat := 0

namespace Relay

def store (r : Relay) (event : ReadStateEvent) : Relay :=
  if (r.slots.lookup event.slotId).any (!event.supersedes ·) then r
  else
    { r with
      slots := r.slots.insert event.slotId event
      published := r.published ++ [event] }

/-- An answer may be of an earlier moment: any events that were accepted, by number. -/
def fetch (r : Relay) (answer : List Nat) : List ReadStateEvent :=
  answer.filterMap (r.published[·]?)

end Relay

/-! ## Clients -/

structure Client where
  manager : Manager
  publishes : List Publish := []
  /-- The events the subscription has brought. -/
  seen : List EventId := []

/-- How a call of `publishEvent` ends. -/
inductive Outcome where
  | ok
  /-- It throws, and the relay does not have the event. -/
  | failed
  /-- It throws, and the relay has it. -/
  | unanswered
deriving DecidableEq

/-- What a client does, or what happens to it. -/
inductive Act where
  | mark (context : ContextId) (timestamp now : Nat)
  /-- The fetch of `initialize`: what the relay answers with, unless it fails. -/
  | fetchAndMerge (answer : Option (List Nat)) (fresh : SlotId)
  | finishInitialize
  | debounce
  /-- The fetch before a publish, and the new slot ids there are for it. -/
  | fetched (k : Nat) (answer : Option (List Nat)) (supply : List SlotId)
  | deleted (k : Nat) (gone : Bool)
  | sent (k : Nat) (now : Nat) (id : EventId) (outcome : Outcome)
  | deliver (n : Nat)

/-- The list with one publish further on, or ended. -/
def settlePublish (publishes : List Publish) (k : Nat) : Option Publish → List Publish
  | some next => publishes.set k next
  | none => publishes.eraseIdx k

def Client.act (c : Client) (r : Relay) : Act → Client × Relay
  | .mark context timestamp now =>
      ({ c with manager := c.manager.markContextRead context timestamp now }, r)
  | .fetchAndMerge answer fresh =>
      match answer with
      | some answer =>
          if c.manager.initialized then (c, r)
          else ({ c with manager := c.manager.mergeEvents (r.fetch answer) fresh }, r)
      | none => (c, r)
  | .finishInitialize =>
      if c.manager.initialized then (c, r)
      else ({ c with manager := c.manager.finishInitialize }, r)
  | .debounce =>
      if c.manager.debounceTimer then
        ({ c with
            manager := { c.manager with debounceTimer := false }
            publishes := c.publishes ++ [.fetching (c.manager.slotId :: c.manager.extraSlotIds)] },
          r)
      else (c, r)
  | .fetched k answer supply =>
      match c.publishes[k]? with
      | some (.fetching slotIds) =>
          let m :=
            match answer with
            | some answer =>
                c.manager.mergeEvents ((r.fetch answer).filter (·.slotId ∈ slotIds))
                  (supply.headD [])
            | none => c.manager
          let (m, next) := m.compose supply.tail
          ({ c with manager := m, publishes := settlePublish c.publishes k next }, r)
      | _ => (c, r)
  | .deleted k gone =>
      match c.publishes[k]? with
      | some (.deleting (slotId :: rest) contexts) =>
          let r := { r with
            slots := if gone then r.slots.erase slotId else r.slots
            calls := r.calls + 1 }
          let (m, next) :=
            if rest = [] then c.manager.afterDeletion contexts
            else (c.manager, some (.deleting rest contexts))
          ({ c with manager := m, publishes := settlePublish c.publishes k next }, r)
      | _ => (c, r)
  | .sent k now id outcome =>
      match c.publishes[k]? with
      | some (.sending ((slotId, contexts) :: rest)) =>
          let event := c.manager.signed slotId contexts now id
          let m := c.manager.rememberPublishedId id
          let m := if outcome = .ok then m.recordPublished event else m
          let r := { r with calls := r.calls + 1 }
          let r := if outcome = .failed then r else r.store event
          let next := if rest = [] then none else some (.sending rest)
          ({ c with manager := m, publishes := settlePublish c.publishes k next }, r)
      | _ => (c, r)
  | .deliver n =>
      match r.published[n]? with
      | some event =>
          ({ c with
              manager := c.manager.handleIncomingEvent event
              seen := event.id :: c.seen },
            r)
      | none => (c, r)

/-- The events of an answer that are in the slots asked for. -/
def Relay.answered (r : Relay) (answer : List Nat) (slotIds : List SlotId) :
    List ReadStateEvent :=
  (r.fetch answer).filter (·.slotId ∈ slotIds)

structure ReadStates where
  clients : List Client
  relay : Relay := {}

structure ReadMove where
  client : Nat
  act : Act

def ReadStates.step (s : ReadStates) (m : ReadMove) : ReadStates :=
  match s.clients[m.client]? with
  | none => s
  | some c =>
      let (c, relay) := c.act s.relay m.act
      { clients := s.clients.set m.client c, relay }

/-- What a manager is constructed from: its identity and the stored read state. -/
structure StoredReadState where
  clientId : List Char
  slotId : SlotId
  extraSlotIds : List SlotId
  contexts : Contexts
  publishableContextIds : List ContextId
  contextSourceCreatedAt : Contexts

def StoredReadState.client (stored : StoredReadState) : Client where
  manager :=
    { clientId := stored.clientId
      slotId := stored.slotId
      extraSlotIds := stored.extraSlotIds
      effectiveState := stored.contexts
      publishableContextIds := stored.publishableContextIds
      contextSourceCreatedAt := stored.contextSourceCreatedAt }

def readStateMachine (stored : List StoredReadState) : Machine ReadStates ReadMove where
  init := { clients := stored.map (·.client) }
  step := ReadStates.step

end Buzz.Desktop
