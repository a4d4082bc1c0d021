import Buzz.Proofs.ReadStateSteps
import Mathlib.Algebra.BigOperators.Group.Finset.Basic
import Mathlib.Algebra.Order.BigOperators.Group.Finset

/-!
# Publishing comes to an end

As long as nothing is marked, no context and no timestamp comes into the system that was
not there before. Every client can still hear each of them a bounded number of times as
news, and only news sets its timer. So there is a weight that no step without a mark
raises, and that every call of `publishEvent` lowers.
-/

namespace Buzz.Desktop

open Buzz.Lib Manager

variable {c : Client} {r : Relay} {a : Act} {m m' : Manager}

/-- What a system without marks stays within: its contexts, their newest timestamp, and
how many slots a client has at most. -/
structure Bound where
  contexts : Finset ContextId
  newest : Nat
  slots : Nat

/-- The parts a publish has still to send. -/
def Publish.parts : Publish → List Contexts
  | .fetching _ => []
  | .deleting _ contexts => [contexts]
  | .sending rest => rest.map (·.2)

namespace Bound

variable {b : Bound} {out : Client × Relay}

/-- A context with a timestamp that is within the bound. -/
def Has (b : Bound) (key : ContextId) (value : Nat) : Prop := key ∈ b.contexts ∧ value ≤ b.newest

def Holds (b : Bound) (contexts : Contexts) : Prop :=
  ∀ key value, contexts.lookup key = some value → b.Has key value

/-- All marks of a client, published or not, are within the bound. -/
structure HoldsClient (b : Bound) (c : Client) : Prop where
  effectiveState : b.Holds c.manager.effectiveState
  ids : ∀ key ∈ c.manager.publishableContextIds, key ∈ b.contexts
  parts : ∀ p ∈ c.publishes, ∀ part ∈ p.parts, b.Holds part
  slots : 1 + c.manager.extraSlotIds.length ≤ b.slots

def HoldsRelay (b : Bound) (r : Relay) : Prop := ∀ event ∈ r.published, b.Holds event.blob.contexts

/-! ## Staying within -/

theorem has_of_parsed (hr : b.HoldsRelay r) {events : List ReadStateEvent}
    (hevents : ∀ event ∈ events, event ∈ r.published) {e : (_ : ContextId) × Nat}
    (he : e ∈ entriesOf (events.filterMap parseReadStateEvent)) : b.Has e.1 e.2 := by
  obtain ⟨parsed, hparsed, hv⟩ := mem_entriesOf.1 he
  obtain ⟨event, hevent, hparse⟩ := List.mem_filterMap.1 hparsed
  exact hr event (hevents event hevent) _ _ (lookup_parsed hparse hv)

theorem holds_of_absorbs {entries : List ((_ : ContextId) × Nat)} (h : Absorbs entries m m')
    (hentries : ∀ e ∈ entries, b.Has e.1 e.2) (hm : b.Holds m.effectiveState)
    (hids : ∀ key ∈ m.publishableContextIds, key ∈ b.contexts) :
    b.Holds m'.effectiveState ∧ ∀ key ∈ m'.publishableContextIds, key ∈ b.contexts := by
  constructor
  · intro k v hv
    rcases h.sub k v hv with hold | hnew
    · exact hm k v hold
    · exact hentries _ hnew
  · intro k hk
    rcases h.idsSub k hk with hold | ⟨e, he, rfl⟩
    · exact hids k hold
    · exact (hentries e he).1

theorem holds_of_covers {parts : List Contexts} (h : m.Covers parts)
    (hm : b.Holds m.effectiveState) : ∀ part ∈ parts, b.Holds part := fun part hpart k v hv =>
  hm k v (lookup_publishable.1 (h.sub part hpart k v hv)).1

/-- The slots of a publish behind its fetch, and what it sends. -/
theorem holds_of_composes {supply : List SlotId} {out : Manager × Option Publish}
    (h : Composes m supply out) (hm : b.Holds m.effectiveState)
    (hslots : 1 + m.extraSlotIds.length ≤ b.slots) (height : readStateMaxSlots ≤ b.slots) :
    (∀ p, out.2 = some p → ∀ part ∈ p.parts, b.Holds part) ∧
      1 + out.1.extraSlotIds.length ≤ b.slots := by
  have htake : ∀ n, 1 + m.extraSlotIds.length + n ≤
      max (1 + m.extraSlotIds.length) readStateMaxSlots →
      1 + (m.extraSlotIds ++ supply.take n).length ≤ b.slots := by
    intro n hn
    rw [List.length_append, List.length_take]
    omega
  cases h with
  | oversized h => exact ⟨nofun, hslots⟩
  | unchanged n parts hcovers hsaid hn => exact ⟨nofun, htake n hn⟩
  | deleting contexts hcovers hextra =>
      refine ⟨fun p hp => ?_, hslots⟩
      cases hp
      exact holds_of_covers hcovers hm
  | single contexts hcovers =>
      refine ⟨fun p hp => ?_, hslots⟩
      cases hp
      exact holds_of_covers hcovers hm
  | split n parts hcovers hlength hn =>
      refine ⟨fun p hp part hpart => ?_, htake n hn⟩
      cases hp
      obtain ⟨slot, hslot, rfl⟩ := List.mem_map.1 hpart
      exact holds_of_covers hcovers hm _ (List.of_mem_zip hslot).2

theorem mem_receive {event sent : ReadStateEvent} {outcome : Outcome}
    (h : event ∈ (r.receive sent outcome).published) : event ∈ r.published ∨ event = sent := by
  unfold Relay.receive at h
  split at h
  · exact .inl h
  · unfold Relay.store at h
    split at h
    · exact .inl h
    · rcases List.mem_append.1 h with h | h
      · exact .inl h
      · exact .inr (List.mem_singleton.1 h)

/-- A publish of the list after one of them went on. -/
theorem parts_settlePublish {publishes : List Publish} {k : Nat} {next : Option Publish}
    (hall : ∀ p ∈ publishes, ∀ part ∈ p.parts, b.Holds part)
    (hnext : ∀ p, next = some p → ∀ part ∈ p.parts, b.Holds part) {p₀ : Publish}
    (hk : publishes[k]? = some p₀) :
    ∀ p ∈ settlePublish publishes k next, ∀ part ∈ p.parts, b.Holds part := by
  intro p hp
  rcases (mem_settlePublish (List.getElem?_eq_some_iff.1 hk).1).1 hp with hp | ⟨j, -, hj⟩
  · exact hnext p hp
  · exact hall p (List.mem_of_getElem? hj)

/-- A step without a mark stays within the bound. -/
theorem holds_act (h : Acts c r a out)
    (hmark : ∀ context timestamp now, a ≠ .mark context timestamp now)
    (hc : b.HoldsClient c) (hr : b.HoldsRelay r)
    (height : readStateMaxSlots ≤ b.slots) :
    b.HoldsClient out.1 ∧ b.HoldsRelay out.2 := by
  cases h with
  | mark context timestamp now m hmarked => exact absurd rfl (hmark context timestamp now)
  | fetchAndMerge answer fresh m hnew hmerged =>
      obtain ⟨heffective, hids⟩ := holds_of_absorbs hmerged.absorbs
        (fun e he => has_of_parsed hr (fun _ => Relay.mem_fetch) he) hc.effectiveState hc.ids
      exact ⟨⟨heffective, hids, hc.parts, hmerged.extraSlotIds ▸ hc.slots⟩, hr⟩
  | fetched k answer supply slotIds m out hk hmerged hcompose =>
      obtain ⟨answered, hanswered, hmerged⟩ := hmerged
      obtain ⟨heffective, hids⟩ := holds_of_absorbs hmerged.absorbs
        (fun e he => has_of_parsed hr (fun event hevent => (hanswered event hevent).1) he)
        hc.effectiveState hc.ids
      obtain ⟨hparts, hslots⟩ := holds_of_composes hcompose heffective
        (hmerged.extraSlotIds ▸ hc.slots) height
      refine ⟨⟨?_, ?_, parts_settlePublish hc.parts hparts hk, hslots⟩, hr⟩
      · show b.Holds out.1.effectiveState
        rw [hcompose.unread.effectiveState]
        exact heffective
      · show ∀ key ∈ out.1.publishableContextIds, key ∈ b.contexts
        rw [hcompose.unread.publishableContextIds]
        exact hids
  | debounce htimer =>
      refine ⟨⟨hc.effectiveState, hc.ids, fun p hp => ?_, hc.slots⟩, hr⟩
      rcases List.mem_append.1 hp with hp | hp
      · exact hc.parts p hp
      · rw [List.mem_singleton.1 hp]
        exact nofun
  | deleted k gone slotId slotId' rest contexts hk =>
      have hparts := hc.parts _ (List.mem_of_getElem? hk)
      refine ⟨⟨hc.effectiveState, hc.ids, ?_, hc.slots⟩, hr⟩
      show ∀ p ∈ settlePublish c.publishes k (some (.deleting (slotId' :: rest) contexts)), _
      refine parts_settlePublish hc.parts (fun p hp => ?_) hk
      cases hp
      exact hparts
  | deletedLast k gone slotId contexts next hk hnext =>
      have hslots : 1 + ([] : List SlotId).length ≤ b.slots := Nat.le_of_add_right_le hc.slots
      have hparts := hc.parts _ (List.mem_of_getElem? hk)
      refine ⟨⟨hc.effectiveState, hc.ids, parts_settlePublish hc.parts (fun p hp => ?_) hk,
        hslots⟩, hr⟩
      rcases hnext with ⟨rfl, -⟩ | rfl
      · cases hp
      · cases hp
        exact hparts
  | sent k now id outcome slotId contexts rest hk =>
      have hparts := hc.parts _ (List.mem_of_getElem? hk)
      obtain ⟨hunread, hextra⟩ := afterSend_unread c.manager
        (c.manager.signed slotId contexts now id) outcome
      refine ⟨⟨?_, ?_, parts_settlePublish hc.parts (fun p hp => ?_) hk, ?_⟩,
        fun event hevent => ?_⟩
      · show b.Holds (c.manager.afterSend _ outcome).effectiveState
        rw [hunread.effectiveState]
        exact hc.effectiveState
      · show ∀ key ∈ (c.manager.afterSend _ outcome).publishableContextIds, key ∈ b.contexts
        rw [hunread.publishableContextIds]
        exact hc.ids
      · split at hp
        · cases hp
        · cases hp
          exact fun part hpart => hparts part (List.mem_cons_of_mem _ hpart)
      · show 1 + (c.manager.afterSend _ outcome).extraSlotIds.length ≤ b.slots
        rw [hextra]
        exact hc.slots
      · rcases mem_receive hevent with hevent | rfl
        · exact hr event hevent
        · exact hparts contexts List.mem_cons_self
  | heard n event parsed m hn hparse hheard =>
      obtain ⟨heffective, hids⟩ := holds_of_absorbs hheard.absorbs
        (fun e he => hr event (List.mem_of_getElem? hn) _ _
          (lookup_parsed hparse (HMap.mem_entries_iff.1 he))) hc.effectiveState hc.ids
      exact ⟨⟨heffective, hids, hc.parts, hheard.extraSlotIds ▸ hc.slots⟩, hr⟩
  | _ => exact ⟨⟨hc.effectiveState, hc.ids, hc.parts, hc.slots⟩, hr⟩

/-! ## The weight -/

/-- How often a context can still be news to a manager. -/
def gap (b : Bound) (m : Manager) (key : ContextId) : Nat :=
  (b.newest - m.read key) + if key ∈ m.publishableContextIds then 0 else 1

/-- How often it can still set its timer. -/
def slack (b : Bound) (m : Manager) : Nat := ∑ key ∈ b.contexts, b.gap m key

theorem gap_le (h : Grows m m') (key : ContextId) : b.gap m' key ≤ b.gap m key := by
  have hread := h.read key
  unfold gap
  by_cases hin : key ∈ m.publishableContextIds
  · rw [if_pos hin, if_pos (h.ids hin)]
    omega
  · rw [if_neg hin]
    split <;> omega

theorem slack_le (h : Grows m m') : b.slack m' ≤ b.slack m :=
  Finset.sum_le_sum fun key _ => gap_le h key

theorem slack_lt (h : Grows m m') {key : ContextId} (hkey : key ∈ b.contexts)
    (hle : m'.read key ≤ b.newest) (hchange : Changes m m' key) : b.slack m' < b.slack m := by
  refine Finset.sum_lt_sum (fun key _ => gap_le h key) ⟨key, hkey, ?_⟩
  have hread := h.read key
  unfold gap
  rcases hchange with hless | ⟨hnew, hadded⟩
  · by_cases hin : key ∈ m.publishableContextIds
    · rw [if_pos hin, if_pos (h.ids hin)]
      omega
    · rw [if_neg hin]
      split <;> omega
  · rw [if_neg hnew, if_pos hadded]
    omega

/-- The calls of `publishEvent` a publish can still make. -/
def cost (b : Bound) : Publish → Nat
  | .fetching _ => b.slots
  | .deleting rest _ => rest.length + 1
  | .sending rest => rest.length

/-- How often a publish can still be started. -/
def starts (b : Bound) (m : Manager) : Nat :=
  (if m.initialized then 0 else 1) + (if m.debounceTimer then 1 else 0) + b.slack m

def costs (b : Bound) (publishes : List Publish) : Nat := (publishes.map b.cost).sum

/-- The calls of `publishEvent` that are still to come from a client, at most. -/
def weight (b : Bound) (c : Client) : Nat := b.slots * b.starts c.manager + b.costs c.publishes

theorem starts_le_of_unread (h : Unread m m') : b.starts m' ≤ b.starts m := by
  have hslack := slack_le h.grows (b := b)
  unfold starts
  rw [h.initialized, h.debounceTimer]
  omega

theorem weight_le (hstarts : b.starts out.1.manager ≤ b.starts c.manager)
    (hcosts : b.costs out.1.publishes + out.2.calls ≤ b.costs c.publishes + r.calls) :
    b.weight out.1 + out.2.calls ≤ b.weight c + r.calls := by
  have hmul := Nat.mul_le_mul_left b.slots hstarts
  unfold weight
  omega

theorem costs_settlePublish {publishes : List Publish} {k : Nat} {next : Option Publish}
    {p : Publish} {n : Nat} (hk : publishes[k]? = some p)
    (hnone : next = none → n ≤ b.cost p) (hsome : ∀ q, next = some q → b.cost q + n ≤ b.cost p) :
    b.costs (settlePublish publishes k next) + n ≤ b.costs publishes := by
  cases next with
  | none =>
      have hsum := sum_map_eraseIdx_some b.cost hk
      have hn := hnone rfl
      show (List.map b.cost (publishes.eraseIdx k)).sum + n ≤ (List.map b.cost publishes).sum
      omega
  | some q =>
      have hsum := sum_map_set_some b.cost hk (q := q)
      have hn := hsome q rfl
      show (List.map b.cost (publishes.set k q)).sum + n ≤ (List.map b.cost publishes).sum
      omega

theorem cost_of_composes {supply : List SlotId} {out : Manager × Option Publish}
    (h : Composes m supply out) (hslots : 1 + m.extraSlotIds.length ≤ b.slots)
    (height : readStateMaxSlots ≤ b.slots) (q : Publish) (hq : out.2 = some q) :
    b.cost q ≤ b.slots := by
  cases h with
  | oversized h => cases hq
  | unchanged n parts hcovers hsaid hn => cases hq
  | deleting contexts hcovers hextra =>
      cases hq
      show m.extraSlotIds.length + 1 ≤ b.slots
      omega
  | single contexts hcovers =>
      cases hq
      show 1 ≤ b.slots
      omega
  | split n parts hcovers hlength hn =>
      cases hq
      show (List.zip _ parts).length ≤ b.slots
      rw [List.length_zip, hlength]
      omega

theorem calls_receive (event : ReadStateEvent) (outcome : Outcome) :
    (r.receive event outcome).calls = r.calls + 1 := by
  unfold Relay.receive
  split
  · rfl
  · unfold Relay.store
    split <;> rfl

/-- No step without a mark raises the weight, and a call of `publishEvent` lowers it. -/
theorem weight_act (h : Acts c r a out)
    (hmark : ∀ context timestamp now, a ≠ .mark context timestamp now)
    (hc : b.HoldsClient c) (hr : b.HoldsRelay r)
    (height : readStateMaxSlots ≤ b.slots) :
    b.weight out.1 + out.2.calls ≤ b.weight c + r.calls := by
  have hwithin := (holds_act h hmark hc hr height).1
  have hslack := slack_le h.grows (b := b)
  cases h with
  | mark context timestamp now m hmarked => exact absurd rfl (hmark context timestamp now)
  | fetchAndMerge answer fresh m hnew hmerged =>
      refine weight_le ?_ (Nat.le_refl _)
      unfold starts
      rw [hmerged.initialized, hmerged.debounceTimer]
      exact Nat.add_le_add_left hslack _
  | scheduled hnew =>
      refine weight_le ?_ (Nat.le_refl _)
      unfold starts
      rw [hnew]
      exact Nat.add_le_add_right (Nat.le_add_right 1 _) _
  | upToDate contexts hnew hcovers hsaid =>
      refine weight_le ?_ (Nat.le_refl _)
      unfold starts
      rw [hnew]
      exact Nat.add_le_add_right (Nat.add_le_add_right (Nat.zero_le 1) _) _
  | debounce htimer =>
      have hstarts : b.starts { c.manager with debounceTimer := false } + 1 =
          b.starts c.manager := by
        show (if c.manager.initialized then 0 else 1) + 0 + b.slack c.manager + 1 = _
        unfold starts
        rw [if_pos htimer]
        omega
      have hcosts : b.costs (c.publishes ++
          [.fetching (c.manager.slotId :: c.manager.extraSlotIds)]) =
          b.costs c.publishes + b.slots := by
        unfold costs
        rw [List.map_append, List.sum_append_nat]
        rfl
      show b.slots * b.starts { c.manager with debounceTimer := false } +
        b.costs (c.publishes ++ [.fetching (c.manager.slotId :: c.manager.extraSlotIds)]) +
          r.calls ≤ b.slots * b.starts c.manager + b.costs c.publishes + r.calls
      rw [hcosts, ← hstarts, Nat.mul_add, Nat.mul_one]
      omega
  | fetched k answer supply slotIds m out hk hmerged hcompose =>
      obtain ⟨answered, -, hmerged⟩ := hmerged
      refine weight_le ?_ (Nat.add_le_add_right ?_ _)
      · refine (starts_le_of_unread hcompose.unread).trans ?_
        unfold starts
        rw [hmerged.initialized, hmerged.debounceTimer]
        exact Nat.add_le_add_left (slack_le hmerged.absorbs.grows) _
      · refine costs_settlePublish (n := 0) hk (fun _ => Nat.zero_le _) fun q hq => ?_
        exact cost_of_composes hcompose (hmerged.extraSlotIds ▸ hc.slots) height q hq
  | deleted k gone slotId slotId' rest contexts hk =>
      have hcosts : b.costs (settlePublish c.publishes k
          (some (.deleting (slotId' :: rest) contexts))) + 1 ≤ b.costs c.publishes := by
        refine costs_settlePublish hk nofun fun q hq => ?_
        cases hq
        exact Nat.le_refl _
      refine weight_le (Nat.le_refl _) ?_
      show b.costs (c.publishes.set k (.deleting (slotId' :: rest) contexts)) + (r.calls + 1) ≤ _
      change b.costs (c.publishes.set k (.deleting (slotId' :: rest) contexts)) + 1 ≤ _ at hcosts
      omega
  | deletedLast k gone slotId contexts next hk hnext =>
      have hcosts : b.costs (settlePublish c.publishes k next) + 1 ≤ b.costs c.publishes := by
        refine costs_settlePublish hk (fun _ => Nat.le_add_left 1 1) fun q hq => ?_
        rcases hnext with ⟨rfl, -⟩ | rfl
        · cases hq
        · cases hq
          exact Nat.le_refl _
      refine weight_le (Nat.le_refl _) ?_
      show b.costs (settlePublish c.publishes k next) + (r.calls + 1) ≤ _
      omega
  | sent k now id outcome slotId contexts rest hk =>
      have hcosts : b.costs (settlePublish c.publishes k
          (if rest = [] then none else some (.sending rest))) + 1 ≤ b.costs c.publishes := by
        refine costs_settlePublish hk (fun _ => Nat.le_add_left 1 _) fun q hq => ?_
        split at hq
        · cases hq
        · cases hq
          exact Nat.le_refl _
      refine weight_le (starts_le_of_unread (afterSend_unread c.manager _ outcome).1) ?_
      rw [calls_receive]
      show b.costs (settlePublish c.publishes k _) + (r.calls + 1) ≤ _
      omega
  | heard n event parsed m hn hparse hheard =>
      refine Nat.add_le_add_right (Nat.add_le_add_right (Nat.mul_le_mul_left b.slots ?_) _) _
      show b.starts m ≤ _
      unfold starts
      rw [hheard.initialized]
      by_cases htimer : c.manager.debounceTimer = true
      · rw [if_pos (hheard.debounceTimer.2 (.inl htimer)), if_pos htimer]
        exact Nat.add_le_add_left hslack _
      · by_cases hnews : m.debounceTimer = true
        · -- It was news, and can be news once less.
          obtain ⟨⟨key, hchange⟩, -⟩ := (hheard.debounceTimer.1 hnews).resolve_left htimer
          have hkey : key ∈ b.contexts ∧ m.read key ≤ b.newest := by
            rcases hchange with hless | ⟨-, hadded⟩
            · exact hwithin.effectiveState key _ (lookup_of_read (Nat.zero_lt_of_lt hless))
            · refine ⟨hwithin.ids key hadded, ?_⟩
              cases hread : m.read key with
              | zero => exact Nat.zero_le _
              | succ v =>
                  have hpos : 0 < m.read key := by omega
                  exact hread ▸ (hwithin.effectiveState key _ (lookup_of_read hpos)).2
          have hless := slack_lt hheard.absorbs.grows hkey.1 hkey.2 hchange
          rw [if_pos hnews, if_neg htimer]
          omega
        · rw [if_neg hnews, if_neg htimer]
          exact Nat.add_le_add_left hslack _
  | _ => exact Nat.le_refl _

/-! ## Runs -/

/-- Clients and relay are within the bound. -/
structure HoldsAll (b : Bound) (s : ReadStates) : Prop where
  clients : ∀ c ∈ s.clients, b.HoldsClient c
  relay : b.HoldsRelay s.relay
  slots : readStateMaxSlots ≤ b.slots

def totalWeight (b : Bound) (s : ReadStates) : Nat := (s.clients.map b.weight).sum

end Bound

/-- The timestamps a client has, and those it is about to send. -/
def Client.entries (c : Client) : List ((_ : ContextId) × Nat) :=
  c.manager.effectiveState.entries ++
    c.publishes.flatMap fun p => p.parts.flatMap fun part => part.entries

namespace ReadStates

def entries (s : ReadStates) : List ((_ : ContextId) × Nat) :=
  s.clients.flatMap Client.entries ++ entriesOf s.relay.published

/-- All that there is at a moment. -/
def bound (s : ReadStates) : Bound where
  contexts := (s.entries.map Sigma.fst ++
    s.clients.flatMap fun c => c.manager.publishableContextIds).toFinset
  newest := (s.entries.map Sigma.snd).sum
  slots := readStateMaxSlots + (s.clients.map fun c => 1 + c.manager.extraSlotIds.length).sum

theorem has_bound {s : ReadStates} {key : ContextId} {value : Nat}
    (h : ⟨key, value⟩ ∈ s.entries) : s.bound.Has key value := by
  refine ⟨?_, ?_⟩
  · rw [bound, List.mem_toFinset]
    exact List.mem_append_left _ (List.mem_map_of_mem h)
  · exact List.le_sum_of_mem (List.mem_map_of_mem (f := Sigma.snd) h)

theorem holdsAll_bound (s : ReadStates) : s.bound.HoldsAll s := by
  refine ⟨fun c hc => ⟨?_, ?_, ?_, ?_⟩, ?_, Nat.le_add_right _ _⟩
  · intro k v hv
    refine has_bound (List.mem_append_left _ (List.mem_flatMap.2 ⟨c, hc, ?_⟩))
    exact List.mem_append_left _ (HMap.mem_entries_iff.2 hv)
  · intro k hk
    rw [bound, List.mem_toFinset]
    exact List.mem_append_right _ (List.mem_flatMap.2 ⟨c, hc, hk⟩)
  · intro p hp part hpart k v hv
    refine has_bound (List.mem_append_left _ (List.mem_flatMap.2 ⟨c, hc, ?_⟩))
    refine List.mem_append_right _ (List.mem_flatMap.2 ⟨p, hp, ?_⟩)
    exact List.mem_flatMap.2 ⟨part, hpart, HMap.mem_entries_iff.2 hv⟩
  · refine Nat.le_trans ?_ (Nat.le_add_left _ _)
    exact List.le_sum_of_mem (List.mem_map_of_mem (f := fun c : Client =>
      1 + c.manager.extraSlotIds.length) hc)
  · intro event hevent k v hv
    exact has_bound (List.mem_append_right _ (mem_entriesOf.2 ⟨event, hevent, hv⟩))

end ReadStates

/-- The user marks a context as read. -/
def ReadMove.isMark (m : ReadMove) : Bool :=
  match m.act with
  | .mark _ _ _ => true
  | _ => false

theorem ReadMove.act_ne_mark {m : ReadMove} (h : m.isMark = false) (context : ContextId)
    (timestamp now : Nat) : m.act ≠ .mark context timestamp now := by
  intro heq
  unfold isMark at h
  rw [heq] at h
  cases h

namespace Bound

variable {b : Bound} {s : ReadStates} {m : ReadMove}

theorem step_weight (hs : b.HoldsAll s) (hm : m.isMark = false) :
    b.HoldsAll (s.step m) ∧
      b.totalWeight (s.step m) + (s.step m).relay.calls ≤ b.totalWeight s + s.relay.calls := by
  unfold ReadStates.step
  cases hclient : s.clients[m.client]? with
  | none => exact ⟨hs, Nat.le_refl _⟩
  | some c =>
      have hc := hs.clients c (List.mem_of_getElem? hclient)
      have hacts := act_acts c s.relay m.act
      obtain ⟨hclient', hrelay⟩ := holds_act hacts (m.act_ne_mark hm) hc hs.relay hs.slots
      have hweight := weight_act hacts (m.act_ne_mark hm) hc hs.relay hs.slots
      refine ⟨⟨fun c' hc' => ?_, hrelay, hs.slots⟩, ?_⟩
      · rcases List.mem_or_eq_of_mem_set hc' with hold | rfl
        · exact hs.clients c' hold
        · exact hclient'
      · have hsum := sum_map_set_some b.weight hclient (q := (c.act s.relay m.act).1)
        show ((s.clients.set m.client (c.act s.relay m.act).1).map b.weight).sum +
          (c.act s.relay m.act).2.calls ≤ (s.clients.map b.weight).sum + s.relay.calls
        omega

end Bound

/-- From any state on there is a number of calls of `publishEvent` that no run without a
mark exceeds. -/
theorem calls_bounded (stored : List StoredReadState) (s : ReadStates) :
    ∃ limit, ∀ ms : List ReadMove, (∀ m ∈ ms, m.isMark = false) →
      ((readStateMachine stored).runFrom s ms).relay.calls ≤ limit := by
  refine ⟨s.bound.totalWeight s + s.relay.calls, fun ms hms => ?_⟩
  have hgen : ∀ (ms : List ReadMove) (s' : ReadStates), (∀ m ∈ ms, m.isMark = false) →
      s.bound.HoldsAll s' → ((readStateMachine stored).runFrom s' ms).relay.calls ≤
        s.bound.totalWeight s' + s'.relay.calls := by
    intro ms
    induction ms with
    | nil => exact fun s' _ _ => Nat.le_add_left _ _
    | cons m ms ih =>
        intro s' hms hs'
        obtain ⟨hnext, hweight⟩ := Bound.step_weight hs' (hms m List.mem_cons_self)
        exact (ih (s'.step m) (fun m' hm' => hms m' (List.mem_cons_of_mem _ hm')) hnext).trans
          hweight
  exact hgen ms s hms s.holdsAll_bound

end Buzz.Desktop
