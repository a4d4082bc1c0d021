import Buzz.Proofs.ReadStatePublish

/-!
# The steps of a client

What an act can do to a client and the relay, one case for each of its outcomes. It is
the only place where `Client.act` is taken apart. The first consequence is that no step
of any client lowers a timestamp or takes a context from what may be published.
-/

namespace Buzz.Desktop

open Buzz.Lib

variable {c c' : Client} {r r' : Relay} {a : Act}

namespace Manager

variable {m m' m'' : Manager}

/-- The manager after a call of `publishEvent` for the event of a slot. -/
def afterSend (m : Manager) (event : ReadStateEvent) (outcome : Outcome) : Manager :=
  if outcome = .ok then (m.rememberPublishedId event.id).recordPublished event
  else m.rememberPublishedId event.id

/-- What a step that hears of no context leaves alone. -/
structure Unread (m m' : Manager) : Prop where
  effectiveState : m'.effectiveState = m.effectiveState
  publishableContextIds : m'.publishableContextIds = m.publishableContextIds
  clientId : m'.clientId = m.clientId
  slotId : m'.slotId = m.slotId
  debounceTimer : m'.debounceTimer = m.debounceTimer
  initialized : m'.initialized = m.initialized

theorem afterSend_unread (m : Manager) (event : ReadStateEvent) (outcome : Outcome) :
    Unread m (m.afterSend event outcome) ∧
      (m.afterSend event outcome).extraSlotIds = m.extraSlotIds := by
  unfold afterSend
  split
  · exact ⟨⟨rfl, rfl, rfl, rfl, rfl, rfl⟩, rfl⟩
  · exact ⟨⟨rfl, rfl, rfl, rfl, rfl, rfl⟩, rfl⟩

theorem Composes.unread {supply : List SlotId} {out : Manager × Option Publish}
    (h : Composes m supply out) : Unread m out.1 := by
  cases h <;> exact ⟨rfl, rfl, rfl, rfl, rfl, rfl⟩

/-- Timestamps and what may be published only grow. -/
structure Grows (m m' : Manager) : Prop where
  read : ∀ key, m.read key ≤ m'.read key
  ids : m.publishableContextIds ⊆ m'.publishableContextIds

theorem Grows.refl (m : Manager) : Grows m m := ⟨fun _ => Nat.le_refl _, List.Subset.refl _⟩

theorem Grows.trans (h : Grows m m') (h' : Grows m' m'') : Grows m m'' :=
  ⟨fun key => (h.read key).trans (h'.read key), List.Subset.trans h.ids h'.ids⟩

theorem Unread.read (h : Unread m m') (key : ContextId) : m'.read key = m.read key := by
  unfold Manager.read
  rw [h.effectiveState]

theorem Unread.grows (h : Unread m m') : Grows m m' :=
  ⟨fun key => Nat.le_of_eq (h.read key).symm,
    h.publishableContextIds ▸ List.Subset.refl m.publishableContextIds⟩

theorem Absorbs.grows {entries : List ((_ : ContextId) × Nat)} (h : Absorbs entries m m') :
    Grows m m' :=
  ⟨h.le, h.ids⟩

end Manager

open Manager

/-- The relay after a deletion was sent. -/
def Relay.drop (r : Relay) (slotId : SlotId) (gone : Bool) : Relay :=
  { r with
    slots := if gone then r.slots.erase slotId else r.slots
    calls := r.calls + 1 }

/-- The relay after the event of a slot was sent. -/
def Relay.receive (r : Relay) (event : ReadStateEvent) (outcome : Outcome) : Relay :=
  if outcome = .failed then { r with calls := r.calls + 1 }
  else { r with calls := r.calls + 1 }.store event

/-- What an act does to a client and the relay. -/
inductive Acts (c : Client) (r : Relay) : Act → Client × Relay → Prop
  | idle (a : Act) : Acts c r a (c, r)
  | mark (context : ContextId) (timestamp now : Nat) (m : Manager)
      (hmarked : Marked context timestamp c.manager m) :
      Acts c r (.mark context timestamp now) ({ c with manager := m }, r)
  | fetchAndMerge (answer : List Nat) (fresh : SlotId) (m : Manager)
      (hnew : c.manager.initialized = false)
      (hmerged : Merged ((r.fetch answer).filterMap parseReadStateEvent) fresh c.manager m) :
      Acts c r (.fetchAndMerge (some answer) fresh) ({ c with manager := m }, r)
  | scheduled (hnew : c.manager.initialized = false) :
      Acts c r .finishInitialize
        ({ c with manager := { c.manager with debounceTimer := true, initialized := true } }, r)
  | upToDate (contexts : Contexts) (hnew : c.manager.initialized = false)
      (hcovers : c.manager.Covers [contexts]) (hsaid : c.manager.Said [contexts]) :
      Acts c r .finishInitialize ({ c with manager := { c.manager with initialized := true } }, r)
  | debounce (htimer : c.manager.debounceTimer = true) :
      Acts c r .debounce
        ({ c with
            manager := { c.manager with debounceTimer := false }
            publishes := c.publishes ++ [.fetching (c.manager.slotId :: c.manager.extraSlotIds)] },
          r)
  | fetched (k : Nat) (answer : Option (List Nat)) (supply : List SlotId) (slotIds : List SlotId)
      (m : Manager) (out : Manager × Option Publish)
      (hk : c.publishes[k]? = some (.fetching slotIds))
      (hmerged : ∃ answered : List ReadStateEvent,
        (∀ event ∈ answered, event ∈ r.published ∧ event.slotId ∈ slotIds) ∧
        Merged (answered.filterMap parseReadStateEvent) (supply.headD []) c.manager m)
      (hcompose : Composes m supply.tail out) :
      Acts c r (.fetched k answer supply)
        ({ c with manager := out.1, publishes := settlePublish c.publishes k out.2 }, r)
  | deleted (k : Nat) (gone : Bool) (slotId slotId' : SlotId) (rest : List SlotId)
      (contexts : Contexts)
      (hk : c.publishes[k]? = some (.deleting (slotId :: slotId' :: rest) contexts)) :
      Acts c r (.deleted k gone)
        ({ c with publishes := c.publishes.set k (.deleting (slotId' :: rest) contexts) },
          r.drop slotId gone)
  | deletedLast (k : Nat) (gone : Bool) (slotId : SlotId) (contexts : Contexts)
      (next : Option Publish) (hk : c.publishes[k]? = some (.deleting [slotId] contexts))
      (hnext : (next = none ∧ ∀ key, contexts.lookup key = none) ∨
        next = some (.sending [(c.manager.slotId, contexts)])) :
      Acts c r (.deleted k gone)
        ({ c with
            manager := { c.manager with extraSlotIds := [], lastPublishedContexts := ∅ }
            publishes := settlePublish c.publishes k next },
          r.drop slotId gone)
  | sent (k now : Nat) (id : EventId) (outcome : Outcome) (slotId : SlotId) (contexts : Contexts)
      (rest : List (SlotId × Contexts))
      (hk : c.publishes[k]? = some (.sending ((slotId, contexts) :: rest))) :
      Acts c r (.sent k now id outcome)
        ({ c with
            manager := c.manager.afterSend (c.manager.signed slotId contexts now id) outcome
            publishes := settlePublish c.publishes k
              (if rest = [] then none else some (.sending rest)) },
          r.receive (c.manager.signed slotId contexts now id) outcome)
  | echoed (n : Nat) (event : ReadStateEvent) (hn : r.published[n]? = some event)
      (hecho : event.id ∈ c.manager.recentlyPublishedIds) :
      Acts c r (.deliver n)
        ({ c with
            manager := { c.manager with
              recentlyPublishedIds := c.manager.recentlyPublishedIds.erase event.id }
            seen := event.id :: c.seen },
          r)
  | ignored (n : Nat) (event : ReadStateEvent) (hn : r.published[n]? = some event)
      (hparse : parseReadStateEvent event = none) :
      Acts c r (.deliver n) ({ c with seen := event.id :: c.seen }, r)
  | heard (n : Nat) (event parsed : ReadStateEvent) (m : Manager)
      (hn : r.published[n]? = some event) (hparse : parseReadStateEvent event = some parsed)
      (hheard : Heard parsed c.manager m) :
      Acts c r (.deliver n) ({ c with manager := m, seen := event.id :: c.seen }, r)

/-- A merge of nothing. -/
theorem Manager.merged_nil (m : Manager) (fresh : SlotId) : Merged [] fresh m m :=
  ⟨.refl m, rfl, rfl, rfl, rfl, rfl, Nat.le_refl _, .inl rfl, fun _ _ h => .inl h⟩

theorem Relay.mem_fetch {answer : List Nat} {event : ReadStateEvent} (h : event ∈ r.fetch answer) :
    event ∈ r.published := by
  obtain ⟨n, -, hn⟩ := List.mem_filterMap.1 h
  exact List.mem_of_getElem? hn

theorem act_acts (c : Client) (r : Relay) (a : Act) : Acts c r a (c.act r a) := by
  unfold Client.act
  cases a with
  | mark context timestamp now =>
      exact .mark context timestamp now _ (markContextRead_spec c.manager context timestamp now)
  | fetchAndMerge answer fresh =>
      cases answer with
      | none => exact .idle _
      | some answer =>
          dsimp only
          split
          · exact .idle _
          · next hnew =>
              exact .fetchAndMerge answer fresh _ (Bool.eq_false_iff.2 hnew)
                (mergeEvents_spec c.manager (r.fetch answer) fresh)
  | finishInitialize =>
      dsimp only
      split
      · exact .idle _
      · next hnew =>
          rw [Bool.not_eq_true] at hnew
          rcases finishInitialize_cases c.manager with heq | ⟨heq, contexts, hcovers, hsaid⟩
          · rw [heq]
            exact .scheduled hnew
          · rw [heq]
            exact .upToDate contexts hnew hcovers hsaid
  | debounce =>
      dsimp only
      split
      · next htimer => exact .debounce htimer
      · exact .idle _
  | fetched k answer supply =>
      dsimp only
      split
      · next slotIds hk =>
          cases answer with
          | none =>
              exact .fetched k none supply slotIds c.manager _ hk
                ⟨[], nofun, merged_nil c.manager _⟩ (compose_spec c.manager supply.tail)
          | some answer =>
              refine .fetched k (some answer) supply slotIds _ _ hk
                ⟨r.answered answer slotIds, ?_, mergeEvents_spec c.manager _ _⟩
                (compose_spec _ supply.tail)
              intro event hevent
              obtain ⟨hmem, hslot⟩ := List.mem_filter.1 hevent
              exact ⟨Relay.mem_fetch hmem, of_decide_eq_true hslot⟩
      · exact .idle _
  | deleted k gone =>
      dsimp only
      split
      · next slotId rest contexts hk =>
          cases rest with
          | nil =>
              obtain ⟨hmanager, hnext⟩ := afterDeletion_cases c.manager contexts
              rw [if_pos rfl, hmanager]
              exact .deletedLast k gone slotId contexts _ hk hnext
          | cons slotId' rest => exact .deleted k gone slotId slotId' rest contexts hk
      · exact .idle _
  | sent k now id outcome =>
      dsimp only
      split
      · next slotId contexts rest hk => exact .sent k now id outcome slotId contexts rest hk
      · exact .idle _
  | deliver n =>
      dsimp only
      split
      · next event hn =>
          rcases handleIncomingEvent_cases c.manager event with
            ⟨hecho, heq⟩ | ⟨hparse, heq⟩ | ⟨-, parsed, hparse, hheard⟩
          · rw [heq]
            exact .echoed n event hn hecho
          · rw [heq]
            exact .ignored n event hn hparse
          · exact .heard n event parsed _ hn hparse hheard
      · exact .idle _

/-! ## Growth -/

theorem Acts.grows {out : Client × Relay} (h : Acts c r a out) :
    Grows c.manager out.1.manager := by
  cases h with
  | mark context timestamp now m hmarked => exact hmarked.absorbs.grows
  | fetchAndMerge answer fresh m hnew hmerged => exact hmerged.absorbs.grows
  | fetched k answer supply slotIds m out hk hmerged hcompose =>
      obtain ⟨answered, -, hmerged⟩ := hmerged
      exact hmerged.absorbs.grows.trans hcompose.unread.grows
  | sent k now id outcome slotId contexts rest hk =>
      exact (afterSend_unread c.manager _ outcome).1.grows
  | heard n event parsed m hn hparse hheard => exact hheard.absorbs.grows
  | _ => exact ⟨fun _ => Nat.le_refl _, List.Subset.refl _⟩

namespace ReadStates

/-- Every client of the state. -/
theorem step_clients {s : ReadStates} {m : ReadMove} {i : Nat} {c' : Client}
    (h : (s.step m).clients[i]? = some c') :
    ∃ c, s.clients[i]? = some c ∧ (c' = c ∨ (i = m.client ∧ c' = (c.act s.relay m.act).1)) := by
  unfold step at h
  cases hclient : s.clients[m.client]? with
  | none =>
      rw [hclient] at h
      exact ⟨c', h, .inl rfl⟩
  | some c =>
      rw [hclient] at h
      rcases getElem?_set_cases h with ⟨rfl, rfl, -⟩ | ⟨-, hsame⟩
      · exact ⟨c, hclient, .inr ⟨rfl, rfl⟩⟩
      · exact ⟨c', hsame, .inl rfl⟩

theorem step_grows {s : ReadStates} {m : ReadMove} {i : Nat} (h : s.clients[i]? = some c) :
    ∃ c', (s.step m).clients[i]? = some c' ∧ Grows c.manager c'.manager := by
  have hlength : i < (s.step m).clients.length := by
    have hlt := (List.getElem?_eq_some_iff.1 h).1
    unfold step
    split
    · exact hlt
    · rw [List.length_set]
      exact hlt
  refine ⟨_, List.getElem?_eq_getElem hlength, ?_⟩
  obtain ⟨c₀, hc₀, hcases⟩ := step_clients (List.getElem?_eq_getElem hlength)
  obtain rfl : c = c₀ := Option.some.inj (h.symm.trans hc₀)
  rcases hcases with heq | ⟨-, heq⟩
  · rw [heq]
    exact .refl _
  · rw [heq]
    exact (act_acts c s.relay m.act).grows

end ReadStates

end Buzz.Desktop
