import Buzz.Proofs.ReadStateConvergence

/-!
# Runs of the clients of an account

Timestamps never go down and publishing comes to an end in every run. The clients agree
in the end if no call of `publishEvent` throws, if a publish composes what it sends only
when no earlier one of its client has something to send, and if what is marked survives
being read by others and finds room in the slots.
-/

namespace Buzz.Desktop

open Buzz.Lib Manager

namespace Manager

variable {m m' : Manager}

theorem publishable_congr (heffective : m'.effectiveState = m.effectiveState)
    (hids : ∀ key, key ∈ m'.publishableContextIds ↔ key ∈ m.publishableContextIds) :
    m'.publishable = m.publishable := by
  unfold publishable
  rw [heffective]
  simp only [hids]

theorem hasRoom_congr (hpublishable : m'.publishable = m.publishable)
    (hclientId : m'.clientId = m.clientId) (hslotId : m'.slotId = m.slotId)
    (hextra : m'.extraSlotIds = m.extraSlotIds) : m'.hasRoom = m.hasRoom := by
  unfold hasRoom currentContexts splitContextsIntoSlots
  rw [hpublishable, hclientId, hslotId, hextra]

end Manager

namespace Account

variable {acc : Account} {i : Nat} {c : Client} {r : Relay}

/-- Nothing comes of a fetch of the client's own slots but what it said last. -/
theorem hasRoom_of_own (hc : acc.Sound i c r) {events : List ReadStateEvent} {fresh : SlotId}
    {m : Manager} (hevents : ∀ event ∈ events, event ∈ r.published ∧ acc.owner event.slotId = i)
    (hmerged : Merged (events.filterMap parseReadStateEvent) fresh c.manager m)
    (hslotId : m.slotId = c.manager.slotId) : m.hasRoom = c.manager.hasRoom := by
  have hbacked : ∀ e ∈ entriesOf (events.filterMap parseReadStateEvent),
      c.manager.Backed e.1 e.2 := by
    intro e he
    obtain ⟨parsed, hparsed, hv⟩ := mem_entriesOf.1 he
    obtain ⟨event, hevent, hparse⟩ := List.mem_filterMap.1 hparsed
    obtain ⟨hpublished, howner⟩ := hevents event hevent
    exact ((hc.own event hpublished howner).2 _ _ (lookup_parsed hparse hv)).backed
  have heffective := hmerged.absorbs.same fun e he => (hbacked e he).le
  refine hasRoom_congr (publishable_congr heffective fun key => ⟨fun hkey => ?_, fun hkey =>
    hmerged.absorbs.ids hkey⟩) hmerged.clientId hslotId hmerged.extraSlotIds
  rcases hmerged.absorbs.idsSub key hkey with hold | ⟨e, he, rfl⟩
  · exact hold
  · exact (hbacked e he).ids

end Account

/-! ## Conditions -/

namespace Act

/-- The ids that are new in the act are new: no other client has the slot, and no event
the id. -/
def Admitted (acc : Account) (i : Nat) (c : Client) (r : Relay) : Act → Prop
  | .fetched _ _ supply =>
      readStateMaxSlots < supply.length ∧
        (∀ slotId ∈ supply, acc.owner slotId = i ∧ isValidSlotId slotId = true) ∧
        (c.manager.slotId :: (c.manager.extraSlotIds ++ supply)).Nodup
  | .sent _ _ id _ => ∀ event ∈ r.published, event.id ≠ id
  | _ => True

/-- It is not one of those after which the clients may differ. -/
def Orderly (c : Client) : Act → Prop
  | .mark context timestamp _ => utf8Length context.text ≤ 256 ∧ timestamp ≤ 4294967295
  | .fetched _ _ _ => c.manager.hasRoom = true ∧ ∀ p ∈ c.publishes, p.composed = false
  | .sent _ _ _ outcome => outcome = .ok
  | _ => True

instance (acc : Account) (i : Nat) (c : Client) (r : Relay) :
    DecidablePred (Admitted acc i c r)
  | .fetched _ _ supply => inferInstanceAs (Decidable (readStateMaxSlots < supply.length ∧
      (∀ slotId ∈ supply, acc.owner slotId = i ∧ isValidSlotId slotId = true) ∧
      (c.manager.slotId :: (c.manager.extraSlotIds ++ supply)).Nodup))
  | .sent _ _ id _ => inferInstanceAs (Decidable (∀ event ∈ r.published, event.id ≠ id))
  | .mark _ _ _ | .fetchAndMerge _ _ | .finishInitialize | .debounce | .deleted _ _
  | .deliver _ => isTrue trivial

instance (c : Client) : DecidablePred (Orderly c)
  | .mark context timestamp _ =>
      inferInstanceAs (Decidable (utf8Length context.text ≤ 256 ∧ timestamp ≤ 4294967295))
  | .fetched _ _ _ => inferInstanceAs (Decidable (c.manager.hasRoom = true ∧
      ∀ p ∈ c.publishes, p.composed = false))
  | .sent _ _ _ outcome => inferInstanceAs (Decidable (outcome = .ok))
  | .fetchAndMerge _ _ | .finishInitialize | .debounce | .deleted _ _ | .deliver _ =>
      isTrue trivial

end Act

namespace ReadMove

/-- The ids that are new in the move are new. -/
def Admitted (acc : Account) (s : ReadStates) (m : ReadMove) : Prop :=
  ∀ c ∈ s.clients[m.client]?, m.act.Admitted acc m.client c s.relay

/-- The move is orderly for the client that makes it. -/
def Orderly (s : ReadStates) (m : ReadMove) : Prop :=
  ∀ c ∈ s.clients[m.client]?, m.act.Orderly c

instance (acc : Account) (s : ReadStates) (m : ReadMove) : Decidable (m.Admitted acc s) :=
  inferInstanceAs (Decidable (∀ c ∈ s.clients[m.client]?, _))

instance (s : ReadStates) (m : ReadMove) : Decidable (m.Orderly s) :=
  inferInstanceAs (Decidable (∀ c ∈ s.clients[m.client]?, _))

end ReadMove

namespace Account

variable {acc : Account} {i : Nat} {c : Client} {r : Relay}

/-- The invariant of the whole system. -/
structure Invariant (acc : Account) (s : ReadStates) : Prop where
  relay : acc.RelaySound s.relay
  clients : ∀ i c, s.clients[i]? = some c → acc.Sound i c s.relay

/-- What a step of one client does to it, to the relay, and to what the others see. -/
structure Steps (acc : Account) (i : Nat) (r : Relay) (out : Client × Relay) : Prop where
  client : acc.Sound i out.1 out.2
  relay : acc.RelaySound out.2
  frame : acc.Frame i r out.2

theorem act_steps {s : ReadStates} {m : ReadMove} {out : Client × Relay}
    (hs : acc.Invariant s) (hclient : s.clients[m.client]? = some c)
    (h : Acts c s.relay m.act out) (hadmitted : m.act.Admitted acc m.client c s.relay)
    (horderly : m.act.Orderly c) : acc.Steps m.client s.relay out := by
  have hc := hs.clients m.client c hclient
  have hr := hs.relay
  obtain ⟨i, a⟩ := m
  dsimp only at hclient h hc hadmitted horderly
  cases h with
  | idle a => exact ⟨hc, hr, .refl acc i _⟩
  | mark context timestamp now m hmarked =>
      exact ⟨sound_mark hc hmarked horderly.1 horderly.2, hr, .refl acc i _⟩
  | fetchAndMerge answer fresh m hnew hmerged =>
      exact ⟨(sound_merge hc hr (fun _ => Relay.mem_fetch) hmerged (.inl hnew)).1, hr,
        .refl acc i _⟩
  | scheduled hnew => exact ⟨sound_finishInitialize hc (.inl rfl), hr, .refl acc i _⟩
  | upToDate contexts hnew hcovers hsaid =>
      exact ⟨sound_finishInitialize hc (.inr ⟨rfl, contexts, hcovers, hsaid⟩), hr, .refl acc i _⟩
  | debounce htimer => exact ⟨sound_debounce hc, hr, .refl acc i _⟩
  | fetched k answer supply slotIds m out hk hmerged hcompose =>
      obtain ⟨answered, hanswered, hmerged⟩ := hmerged
      obtain ⟨hlength, hsupply, hnodup⟩ := hadmitted
      have hmem := List.mem_of_getElem? hk
      have hown : ∀ event ∈ answered, event ∈ s.relay.published ∧ acc.owner event.slotId = i :=
        fun event hevent => ⟨(hanswered event hevent).1,
          hc.publishes _ hmem event.slotId (hanswered event hevent).2⟩
      obtain ⟨hc₁, hslotId⟩ := sound_merge hc hr (fun event hevent => (hown event hevent).1)
        hmerged (.inr ⟨_, hmem, rfl⟩)
      have htail : ∀ slotId ∈ supply.tail, acc.Slot i slotId := fun slotId hslot =>
        ⟨(hsupply slotId (List.mem_of_mem_tail hslot)).1,
          (hsupply slotId (List.mem_of_mem_tail hslot)).2⟩
      refine ⟨sound_composed hc₁ hk (fun j p _ hj => horderly.2 p (List.mem_of_getElem? hj)) ?_ ?_
        htail ?_ hcompose, hr, .refl acc i _⟩
      · rw [hasRoom_of_own hc hown hmerged hslotId]
        exact horderly.1
      · rw [List.length_tail]
        omega
      · show (m.slotId :: (m.extraSlotIds ++ supply.tail)).Nodup
        rw [hslotId, hmerged.extraSlotIds]
        exact hnodup.sublist
          (((List.Sublist.refl _).append (List.tail_sublist _)).cons_cons _)
  | deleted k gone slotId slotId' rest contexts hk =>
      obtain ⟨howner, hpart⟩ := hc.publishes _ (List.mem_of_getElem? hk)
      have hnext : acc.GoesOn i c.manager (slotId' :: rest) contexts
          (some (.deleting (slotId' :: rest) contexts)) :=
        .inr ⟨_, rfl, rfl, List.Subset.refl _,
          fun s hs => howner s (List.mem_cons_of_mem _ hs), hpart⟩
      exact ⟨sound_dropped hc gone hk hnext (.inl rfl) (.inl rfl), hr.drop slotId gone,
        .drop gone (howner slotId List.mem_cons_self)⟩
  | deletedLast k gone slotId contexts next hk hnext =>
      obtain ⟨howner, hpart⟩ := hc.publishes _ (List.mem_of_getElem? hk)
      refine ⟨sound_dropped hc gone hk ?_ (.inr rfl) (.inr rfl), hr.drop slotId gone,
        .drop gone (howner slotId List.mem_cons_self)⟩
      rcases hnext with hnone | heq
      · exact .inl hnone
      · refine .inr ⟨.sending [(c.manager.slotId, contexts)], heq, rfl, List.Subset.refl _,
          List.nodup_singleton _, fun slot hslot => ?_⟩
        rw [List.mem_singleton.1 hslot]
        exact ⟨hc.slots _ List.mem_cons_self, hpart⟩
  | sent k now id outcome slotId contexts rest hk =>
      obtain rfl : outcome = .ok := horderly
      have hslot := ((hc.publishes _ (List.mem_of_getElem? hk)).2 _ List.mem_cons_self).1
      rw [receive_signed hc hr hk]
      exact ⟨sound_sent hc hk, hr.accepted hc hk hadmitted, .accepted hslot.owner⟩
  | echoed n event hn hecho =>
      exact ⟨sound_echoed hc hr (List.mem_of_getElem? hn) hecho, hr, .refl acc i _⟩
  | ignored n event hn hparse =>
      obtain ⟨parsed, hparse', -⟩ := parse_of_readable (hr.readable event (List.mem_of_getElem? hn))
      rw [hparse] at hparse'
      cases hparse'
  | heard n event parsed m hn hparse hheard =>
      exact ⟨sound_heard hc hr (List.mem_of_getElem? hn) hparse hheard, hr, .refl acc i _⟩

theorem step_invariant {s : ReadStates} {m : ReadMove} (hs : acc.Invariant s)
    (hadmitted : m.Admitted acc s) (horderly : m.Orderly s) : acc.Invariant (s.step m) := by
  unfold ReadStates.step
  cases hclient : s.clients[m.client]? with
  | none => exact hs
  | some c =>
      have hsteps := act_steps hs hclient (act_acts c s.relay m.act) (hadmitted c hclient)
        (horderly c hclient)
      refine ⟨hsteps.relay, fun j c' hj => ?_⟩
      rcases getElem?_set_cases hj with ⟨rfl, rfl, -⟩ | ⟨hne, hold⟩
      · exact hsteps.client
      · exact (hs.clients j c' hold).frame hsteps.frame hne

/-- What the clients start from: no slot belongs to two of them. -/
structure Starts (acc : Account) (stored : List StoredReadState) : Prop where
  clientIds : stored.map (·.clientId) = acc.clientIds
  valid : ∀ state ∈ stored, state.clientId ≠ [] ∧ utf16Length state.clientId ≤ 64
  slots : ∀ (i : Nat) (state : StoredReadState), stored[i]? = some state →
    ∀ slotId ∈ state.slotId :: state.extraSlotIds,
      acc.owner slotId = i ∧ isValidSlotId slotId = true
  nodup : ∀ state ∈ stored, (state.slotId :: state.extraSlotIds).Nodup
  values : ∀ state ∈ stored, ∀ key value, state.contexts.lookup key = some value →
    ValidEntry key value

theorem Starts.invariant {stored : List StoredReadState} (h : acc.Starts stored) :
    acc.Invariant (readStateMachine stored).init := by
  refine ⟨⟨List.nodup_nil, nofun, nofun, nofun, nofun⟩, fun i c hi => ?_⟩
  change (stored.map (·.client))[i]? = some c at hi
  rw [List.getElem?_map] at hi
  obtain ⟨state, hstate, rfl⟩ := Option.map_eq_some_iff.1 hi
  have hmem := List.mem_of_getElem? hstate
  refine ⟨?_, h.valid state hmem, fun slotId hslot => ?_, h.nodup state hmem, h.values state hmem,
    nofun, nofun, nofun, nofun, nofun, nofun, nofun⟩
  · rw [← h.clientIds, List.getElem?_map, hstate]
    rfl
  · exact ⟨(h.slots i state hstate slotId hslot).1, (h.slots i state hstate slotId hslot).2⟩

end Account

namespace ReadStates

/-- Every client has started, and no publish is pending. -/
def settled (s : ReadStates) : Bool :=
  s.clients.all fun c =>
    c.manager.initialized && !c.manager.debounceTimer && c.publishes.isEmpty

/-- Every stored event was delivered to every client. -/
def delivered (s : ReadStates) : Bool :=
  s.relay.slots.entries.all fun e => s.clients.all fun c => e.2.id ∈ c.seen

variable {s : ReadStates} {c : Client}

theorem settled_client (h : s.settled = true) (hc : c ∈ s.clients) :
    c.manager.initialized = true ∧ c.manager.debounceTimer = false ∧ c.publishes = [] := by
  have hall := List.all_eq_true.1 h c hc
  rw [Bool.and_eq_true, Bool.and_eq_true, Bool.not_eq_true', List.isEmpty_iff] at hall
  exact ⟨hall.1.1, hall.1.2, hall.2⟩

theorem seen_of_delivered (h : s.delivered = true) {event : ReadStateEvent} {slotId : SlotId}
    (hstored : s.relay.slots.lookup slotId = some event) (hc : c ∈ s.clients) :
    event.id ∈ c.seen := by
  have hall := List.all_eq_true.1 h ⟨slotId, event⟩ (HMap.mem_entries_iff.2 hstored)
  exact of_decide_eq_true (List.all_eq_true.1 hall c hc)

end ReadStates

namespace Account

variable {acc : Account} {s : ReadStates} {i j : Nat} {c c' : Client} {key : ContextId}
  {value : Nat}

/-- What one client may publish the other one has heard. -/
theorem Invariant.backed_other (hs : acc.Invariant s) (hsettled : s.settled = true)
    (hdelivered : s.delivered = true) (hi : s.clients[i]? = some c) (hj : s.clients[j]? = some c')
    (hkey : isChannel key = true) (hv : c.manager.publishable.lookup key = some value) :
    c'.manager.Backed key value := by
  have hc := hs.clients i c hi
  obtain ⟨hinitialized, htimer, hnone⟩ :=
    ReadStates.settled_client hsettled (List.mem_of_getElem? hi)
  obtain ⟨w, hle, hkept⟩ := hc.quiet hinitialized htimer (by rw [hnone]; exact nofun) key value
    hkey hv
  rcases hkept with ⟨p, hp, -⟩ | ⟨event, hstored, -, -, hlookup⟩
  · rw [hnone] at hp
    cases hp
  · obtain ⟨event', hevent', heq, hbacked⟩ := (hs.clients j c' hj).seen event.id
      (ReadStates.seen_of_delivered hdelivered hstored (List.mem_of_getElem? hj))
    obtain rfl : event' = event :=
      List.inj_on_of_nodup_map hs.relay.ids hevent' (hs.relay.slots _ event hstored).2 heq
    have hw := hbacked key w hlookup
    exact ⟨hw.ids, (hc.backed hv).pos, hle.trans hw.le⟩

theorem Invariant.agree (hs : acc.Invariant s) (hsettled : s.settled = true)
    (hdelivered : s.delivered = true) (hi : s.clients[i]? = some c) (hj : s.clients[j]? = some c')
    (hkey : isChannel key = true) (hv : c.manager.publishable.lookup key = some value) :
    c'.manager.effectiveState.lookup key = some value := by
  have hother := hs.backed_other hsettled hdelivered hi hj hkey hv
  have hback := hs.backed_other hsettled hdelivered hj hi hkey hother.lookup
  have hread := read_of_lookup (lookup_publishable.1 hv).1
  rw [(lookup_publishable.1 hother.lookup).1]
  exact congrArg some (Nat.le_antisymm (hback.le.trans_eq hread) hother.le)

end Account

section Statement

variable (stored : List StoredReadState)

theorem runFrom_read_le {s : ReadStates} {i : Nat} {c : Client} (h : s.clients[i]? = some c)
    (ms : List ReadMove) :
    ∃ c', ((readStateMachine stored).runFrom s ms).clients[i]? = some c' ∧
      ∀ key, c.manager.read key ≤ c'.manager.read key := by
  induction ms generalizing s c with
  | nil => exact ⟨c, h, fun _ => Nat.le_refl _⟩
  | cons m ms ih =>
      obtain ⟨c₁, h₁, hgrows⟩ := ReadStates.step_grows (m := m) h
      obtain ⟨c', h', hle⟩ := ih h₁
      exact ⟨c', h', fun key => (hgrows.read key).trans (hle key)⟩

/-- Timestamps never go down; without marks there is an end to publishing; and in an
orderly run the clients agree when nothing is left to do. -/
theorem read_state_converges (acc : Account) (hstored : acc.Starts stored) :
    (∀ (ms ms' : List ReadMove) (i : Nat) (c : Client),
      ((readStateMachine stored).run ms).clients[i]? = some c →
      ∃ c', ((readStateMachine stored).run (ms ++ ms')).clients[i]? = some c' ∧
        ∀ key, c.manager.read key ≤ c'.manager.read key) ∧
    (∀ ms : List ReadMove, ∃ limit, ∀ ms' : List ReadMove, (∀ m ∈ ms', m.isMark = false) →
      ((readStateMachine stored).run (ms ++ ms')).relay.calls ≤ limit) ∧
    ∀ ms : List ReadMove,
      (readStateMachine stored).Meets (fun s m => m.Admitted acc s)
        (readStateMachine stored).init ms →
      (readStateMachine stored).Meets (fun s m => m.Orderly s)
        (readStateMachine stored).init ms →
      ((readStateMachine stored).run ms).settled = true →
      ((readStateMachine stored).run ms).delivered = true →
      ∀ (i j : Nat) (c c' : Client) (key : ContextId) (value : Nat),
        ((readStateMachine stored).run ms).clients[i]? = some c →
        ((readStateMachine stored).run ms).clients[j]? = some c' →
        isChannel key = true → c.manager.publishable.lookup key = some value →
        c'.manager.effectiveState.lookup key = some value := by
  refine ⟨fun ms ms' i c hi => ?_, fun ms => ?_, fun ms hadmitted horderly => ?_⟩
  · rw [Machine.run_append]
    exact runFrom_read_le stored hi ms'
  · obtain ⟨limit, hlimit⟩ := calls_bounded stored ((readStateMachine stored).run ms)
    refine ⟨limit, fun ms' hms' => ?_⟩
    rw [Machine.run_append]
    exact hlimit ms' hms'
  · have hinv : acc.Invariant ((readStateMachine stored).run ms) :=
      (readStateMachine stored).inv_run hstored.invariant
        (fun s m hs hcond => Account.step_invariant hs hcond.1 hcond.2)
        ((readStateMachine stored).meets_and hadmitted horderly)
    intro hsettled hdelivered i j c c' key value hi hj hkey hv
    exact hinv.agree hsettled hdelivered hi hj hkey hv

end Statement

/-! ## Two clients -/

section Runs

/-- A slot id of the laptop starts with an `a`, one of the phone with a `b`. -/
def slotOf (first last : Char) : SlotId := first :: List.replicate 30 '0' ++ [last]

def newSlots (first : Char) : List SlotId := "123456789".toList.map (slotOf first)

def laptopAndPhone : List StoredReadState :=
  [⟨"laptop".toList, slotOf 'a' '0', [], ∅, [], ∅⟩, ⟨"phone".toList, slotOf 'b' '0', [], ∅, [], ∅⟩]

def oneAccount : Account where
  clientIds := ["laptop".toList, "phone".toList]
  nodup := by decide
  owner slotId := if slotId.head? = some 'a' then 0 else 1

def general : ContextId := { text := "general".toList }

theorem oneAccount_starts : oneAccount.Starts laptopAndPhone := by
  refine ⟨rfl, by decide, fun i state hi => ?_, by decide, fun state hstate k v hv => ?_⟩
  · match i with
    | 0 =>
        cases hi
        decide
    | 1 =>
        cases hi
        decide
  · rcases List.mem_cons.1 hstate with rfl | hstate
    · cases hv
    · cases List.mem_singleton.1 hstate
      cases hv

/-- The laptop publishes what it read, and the phone hears of it and says so. -/
def inTurn : List ReadMove :=
  [⟨0, .finishInitialize⟩, ⟨1, .finishInitialize⟩, ⟨0, .mark general 5 10⟩, ⟨0, .debounce⟩,
    ⟨0, .fetched 0 (some []) (newSlots 'a')⟩, ⟨0, .sent 0 10 (.ofByte 1) .ok⟩,
    ⟨1, .deliver 0⟩, ⟨1, .debounce⟩, ⟨1, .fetched 0 (some []) (newSlots 'b')⟩,
    ⟨1, .sent 0 10 (.ofByte 2) .ok⟩, ⟨0, .deliver 0⟩, ⟨0, .deliver 1⟩, ⟨1, .deliver 1⟩]

theorem read_state_converges_in_turn :
    ∃ c c', ((readStateMachine laptopAndPhone).run inTurn).clients[0]? = some c ∧
      ((readStateMachine laptopAndPhone).run inTurn).clients[1]? = some c' ∧
      c.manager.publishable.lookup general = some 5 ∧
      c'.manager.effectiveState.lookup general = some 5 := by
  obtain ⟨c, hc, hv⟩ : ∃ c, ((readStateMachine laptopAndPhone).run inTurn).clients[0]? = some c ∧
      c.manager.publishable.lookup general = some 5 := ⟨_, rfl, by decide +kernel⟩
  obtain ⟨c', hc'⟩ : ∃ c', ((readStateMachine laptopAndPhone).run inTurn).clients[1]? = some c' :=
    ⟨_, rfl⟩
  exact ⟨c, c', hc, hc', hv,
    (read_state_converges laptopAndPhone oneAccount oneAccount_starts).2.2 inTurn
      (by decide +kernel) (by decide +kernel) (by decide +kernel) (by decide +kernel) 0 1 c c'
      general 5 hc hc' (by decide +kernel) hv⟩

/-- While the first publish of the laptop waits, the next one is composed and sent: the
first one then overwrites it. -/
def overtaken : List ReadMove :=
  [⟨0, .finishInitialize⟩, ⟨1, .finishInitialize⟩, ⟨0, .mark general 5 10⟩, ⟨0, .debounce⟩,
    ⟨0, .fetched 0 (some []) (newSlots 'a')⟩, ⟨0, .mark general 6 16⟩, ⟨0, .debounce⟩,
    ⟨0, .fetched 1 (some []) (newSlots 'a')⟩, ⟨0, .sent 1 21 (.ofByte 1) .ok⟩,
    ⟨0, .sent 0 21 (.ofByte 2) .ok⟩, ⟨1, .deliver 1⟩, ⟨1, .debounce⟩,
    ⟨1, .fetched 0 (some []) (newSlots 'b')⟩, ⟨1, .sent 0 30 (.ofByte 3) .ok⟩,
    ⟨0, .deliver 1⟩, ⟨0, .deliver 2⟩, ⟨1, .deliver 2⟩]

theorem read_state_differs_after_overtaken :
    (readStateMachine laptopAndPhone).Meets (fun s m => m.Admitted oneAccount s)
      (readStateMachine laptopAndPhone).init overtaken ∧
    ((readStateMachine laptopAndPhone).run overtaken).settled = true ∧
    ((readStateMachine laptopAndPhone).run overtaken).delivered = true ∧
    isChannel general = true ∧
    ((readStateMachine laptopAndPhone).run overtaken).clients.map
      (·.manager.publishable.lookup general) = [some 6, some 5] := by
  decide +kernel

end Runs

end Buzz.Desktop
