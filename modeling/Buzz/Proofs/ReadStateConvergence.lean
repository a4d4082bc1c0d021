import Buzz.Proofs.ReadStateSound

/-!
# The clients converge

The steps of a publish keep the invariant as long as no two publishes of a client have
something to send at the same time: what the one composed is then sent before the next
one looks at the timestamps again, and a slot is only overwritten by more recent ones.
When nothing is left to be published and everything stored was delivered, every client
has heard what every other one holds.
-/

namespace Buzz.Desktop

open Buzz.Lib Manager

namespace Account

variable {acc : Account} {i : Nat} {c c' : Client} {r r' : Relay} {key : ContextId} {value : Nat}
  {p : Publish} {next : Option Publish}

/-! ## One publish at a time -/

/-- Kept by one publish, the parts it has to send and the slots it leaves alone. -/
def KeptBy (acc : Account) (i : Nat) (r : Relay) (parts : List Contexts) (doomed : List SlotId)
    (key : ContextId) (value : Nat) : Prop :=
  ∃ w, value ≤ w ∧
    ((∃ part ∈ parts, part.lookup key = some w) ∨
      ∃ event : ReadStateEvent, r.slots.lookup event.slotId = some event ∧
        acc.owner event.slotId = i ∧ event.slotId ∉ doomed ∧
        event.blob.contexts.lookup key = some w)

/-- All publishes but one are waiting for their fetch. -/
def Alone (c : Client) (k : Nat) : Prop :=
  ∀ j p, j ≠ k → c.publishes[j]? = some p → p.composed = false

theorem parts_of_fetching (h : p.composed = false) :
    p.parts = [] ∧ ∀ slotId, p.doomed slotId = [] := by
  cases p with
  | fetching slotIds => exact ⟨rfl, fun _ => rfl⟩
  | deleting rest contexts => cases h
  | sending rest => cases h

/-- What is kept, when the publishes are these and waiting ones. -/
theorem kept_iff_of_waiting (only : Option Publish)
    (hmem : ∀ p, only = some p → p ∈ c.publishes)
    (hothers : ∀ p ∈ c.publishes, only = some p ∨ p.composed = false) :
    acc.Kept i c r key value ↔ acc.KeptBy i r (only.elim [] Publish.parts)
      (only.elim [] (Publish.doomed c.manager.slotId)) key value := by
  unfold Kept KeptBy
  refine exists_congr fun w => and_congr_right fun _ => or_congr ?_ ?_
  · constructor
    · rintro ⟨p, hp, part, hpart, hv⟩
      rcases hothers p hp with rfl | hfetching
      · exact ⟨part, hpart, hv⟩
      · rw [(parts_of_fetching hfetching).1] at hpart
        cases hpart
    · rintro ⟨part, hpart, hv⟩
      cases only with
      | none => cases hpart
      | some p => exact ⟨p, hmem p rfl, part, hpart, hv⟩
  · refine exists_congr fun event => and_congr_right fun _ => and_congr_right fun _ =>
      and_congr_left fun _ => ?_
    constructor
    · intro hfree
      cases only with
      | none => exact List.not_mem_nil
      | some p => exact hfree p (hmem p rfl)
    · intro hfree p hp
      rcases hothers p hp with rfl | hfetching
      · exact hfree
      · rw [(parts_of_fetching hfetching).2]
        exact List.not_mem_nil

theorem Alone.kept_iff {k : Nat} (halone : Alone c k)
    (hk : c.publishes[k]? = some p) :
    acc.Kept i c r key value ↔
      acc.KeptBy i r p.parts (p.doomed c.manager.slotId) key value := by
  refine kept_iff_of_waiting (some p) (fun q hq => ?_) fun q hq => ?_
  · cases hq
    exact List.mem_of_getElem? hk
  · obtain ⟨j, hj⟩ := List.mem_iff_getElem?.1 hq
    by_cases hjk : j = k
    · rw [hjk] at hj
      exact .inl (hk.symm.trans hj)
    · exact .inr (halone j q hjk hj)

/-- The same after the publish went on. -/
theorem Alone.kept_settle_iff {k : Nat} (halone : Alone c k)
    (hk : c.publishes[k]? = some p) (next : Option Publish)
    (hpublishes : c'.publishes = settlePublish c.publishes k next) :
    acc.Kept i c' r key value ↔ acc.KeptBy i r (next.elim [] Publish.parts)
      (next.elim [] (Publish.doomed c'.manager.slotId)) key value := by
  have hlt := (List.getElem?_eq_some_iff.1 hk).1
  refine kept_iff_of_waiting next (fun q hq => ?_) fun q hq => ?_
  · rw [hpublishes, mem_settlePublish hlt]
    exact .inl hq
  · rw [hpublishes, mem_settlePublish hlt] at hq
    rcases hq with hq | ⟨j, hne, hj⟩
    · exact .inl hq
    · exact .inr (halone j q hne hj)

theorem Alone.one_settle {k : Nat} (halone : Alone c k) (next : Option Publish) (j j' : Nat)
    (p q : Publish) (hp : (settlePublish c.publishes k next)[j]? = some p)
    (hq : (settlePublish c.publishes k next)[j']? = some q) (hpc : p.composed = true)
    (hqc : q.composed = true) : j = j' := by
  cases next with
  | none =>
      have hmem : p ∈ c.publishes.eraseIdx k := List.mem_of_getElem? hp
      obtain ⟨l, hne, hl⟩ := List.mem_eraseIdx_iff_getElem?.1 hmem
      rw [halone l p hne hl] at hpc
      cases hpc
  | some next =>
      have hat : ∀ l p, (c.publishes.set k next)[l]? = some p → p.composed = true → l = k := by
        intro l p hl hc
        rcases getElem?_set_cases hl with ⟨rfl, -, -⟩ | ⟨hne, hold⟩
        · rfl
        · rw [halone l p hne hold] at hc
          cases hc
      exact (hat j p hp hpc).trans (hat j' q hq hqc).symm

section

variable (hc : acc.Sound i c r)
include hc

/-- While a publish sends no other one has anything to send. -/
theorem Sound.alone {k : Nat} (hk : c.publishes[k]? = some p)
    (hcomposed : p.composed = true) :
    Alone c k := by
  intro j q hne hj
  rw [Bool.eq_false_iff]
  intro hq
  exact hne (hc.one j k q p hj hk hq hcomposed)

omit hc in
theorem composed_of_settle {k : Nat} (hk : c.publishes[k]? = some p)
    (hcomposed : p.composed = true)
    (hall : ∀ q ∈ settlePublish c.publishes k next, q.composed = true) :
    ∀ q ∈ c.publishes, q.composed = true := by
  intro q hq
  obtain ⟨j, hj⟩ := List.mem_iff_getElem?.1 hq
  by_cases hjk : j = k
  · rw [hjk, hk] at hj
    exact Option.some.inj hj ▸ hcomposed
  · have hlt := (List.getElem?_eq_some_iff.1 hk).1
    exact hall q ((mem_settlePublish hlt).2 (.inr ⟨j, hjk, hj⟩))

omit hc in
theorem prepared_settle {k : Nat} (hk : c.publishes[k]? = some p)
    (next : Option Publish)
    (hnext : ∀ q, next = some q → acc.Prepared i c.manager q) :
    ∀ q ∈ settlePublish c.publishes k next, q ∈ c.publishes ∨ acc.Prepared i c.manager q := by
  intro q hq
  have hlt := (List.getElem?_eq_some_iff.1 hk).1
  rcases (mem_settlePublish hlt).1 hq with heq | ⟨j, -, hj⟩
  · exact .inr (hnext q heq)
  · exact .inl (List.mem_of_getElem? hj)

/-! ## Publishing -/

/-- A step that hears of no context. -/
structure Publishing (acc : Account) (i : Nat) (c : Client) (r : Relay) (c' : Client)
    (r' : Relay) : Prop where
  effectiveState : c'.manager.effectiveState = c.manager.effectiveState
  publishableContextIds : c'.manager.publishableContextIds = c.manager.publishableContextIds
  clientId : c'.manager.clientId = c.manager.clientId
  slotId : c'.manager.slotId = c.manager.slotId
  slots : ∀ slotId ∈ c'.manager.extraSlotIds, acc.Slot i slotId
  nodup : (c.manager.slotId :: c'.manager.extraSlotIds).Nodup
  maxFetchedCreatedAt : c.manager.maxFetchedCreatedAt ≤ c'.manager.maxFetchedCreatedAt
  seen : c'.seen = c.seen
  kept : ∀ key value, c.manager.Backed key value → isChannel key = true →
    acc.Kept i c r key value → acc.Kept i c' r' key value
  last : ∀ key value, c'.manager.lastPublishedContexts.lookup key = some value →
    c.manager.lastPublishedContexts.lookup key = some value ∨ acc.Secured i c' r' key value
  published : r.published ⊆ r'.published
  events : ∀ event ∈ r'.published, event ∈ r.published ∨
    (event.createdAt ≤ c'.manager.maxFetchedCreatedAt ∧ ∀ key value,
      event.blob.contexts.lookup key = some value → acc.Secured i c' r' key value)
  publishes : ∀ p ∈ c'.publishes, p ∈ c.publishes ∨ acc.Prepared i c.manager p
  one : ∀ (j k : Nat) (p q : Publish), c'.publishes[j]? = some p → c'.publishes[k]? = some q →
    p.composed = true → q.composed = true → j = k
  recent : ∀ id ∈ c'.manager.recentlyPublishedIds, id ∈ c.manager.recentlyPublishedIds ∨
    ∃ event ∈ r'.published, event.id = id ∧ acc.owner event.slotId = i
  quiet : c'.manager.initialized = true → c'.manager.debounceTimer = false →
    (∀ p ∈ c'.publishes, p.composed = true) →
    ∀ key value, isChannel key = true → c.manager.publishable.lookup key = some value →
      acc.Kept i c r key value ∨ acc.Kept i c' r' key value

theorem Sound.backed (hv : c.manager.publishable.lookup key = some value) :
    c.manager.Backed key value := by
  obtain ⟨hlookup, hids⟩ := lookup_publishable.1 hv
  exact ⟨hids, (hc.values key value hlookup).pos, Nat.le_of_eq (read_of_lookup hlookup).symm⟩

theorem Sound.publishing (h : acc.Publishing i c r c' r') :
    acc.Sound i c' r' := by
  have hgrows : Grows c.manager c'.manager :=
    ⟨fun k => Nat.le_of_eq (read_congr h.effectiveState k).symm,
      h.publishableContextIds ▸ List.Subset.refl c.manager.publishableContextIds⟩
  have hsecured : ∀ k v, acc.Secured i c r k v → acc.Secured i c' r' k v := fun k v hs =>
    ⟨hs.backed.grows hgrows, fun hk => h.kept k v hs.backed hk (hs.kept hk)⟩
  refine ⟨?_, ?_, ?_, ?_, ?_, ?_, ?_, ?_, h.one, ?_, ?_, ?_⟩
  · rw [h.clientId]
    exact hc.clientId
  · rw [h.clientId]
    exact hc.valid
  · rw [h.slotId]
    intro slotId hslot
    rcases List.mem_cons.1 hslot with rfl | hslot
    · exact hc.slots _ List.mem_cons_self
    · exact h.slots slotId hslot
  · rw [h.slotId]
    exact h.nodup
  · rw [h.effectiveState]
    exact hc.values
  · intro k v hv
    rcases h.last k v hv with hold | hnew
    · exact hsecured k v (hc.last k v hold)
    · exact hnew
  · intro event hevent howner
    rcases h.events event hevent with hold | hnew
    · obtain ⟨hmax, hentries⟩ := hc.own event hold howner
      exact ⟨hmax.trans h.maxFetchedCreatedAt, fun k v hv => hsecured k v (hentries k v hv)⟩
    · exact hnew
  · intro p hp
    rcases h.publishes p hp with hold | hnew
    · exact (hc.publishes p hold).grows hgrows
    · exact hnew.grows hgrows
  · rw [h.seen]
    intro id hid
    obtain ⟨event, hevent, heq, hbacked⟩ := hc.seen id hid
    exact ⟨event, h.published hevent, heq, fun k v hv => (hbacked k v hv).grows hgrows⟩
  · intro id hid
    rcases h.recent id hid with hold | hnew
    · obtain ⟨event, hevent, hown⟩ := hc.recent id hold
      exact ⟨event, h.published hevent, hown⟩
    · exact hnew
  · intro hinitialized htimer hcomposed k v hk hv
    have hv' : c.manager.publishable.lookup k = some v := by
      rw [lookup_publishable] at hv ⊢
      rw [← h.effectiveState, ← h.publishableContextIds]
      exact hv
    rcases h.quiet hinitialized htimer hcomposed k v hk hv' with hkept | hkept
    · exact h.kept k v (hc.backed hv') hk hkept
    · exact hkept

theorem sound_debounce :
    acc.Sound i
      { c with
        manager := { c.manager with debounceTimer := false }
        publishes := c.publishes ++ [.fetching (c.manager.slotId :: c.manager.extraSlotIds)] }
      r := by
  have hmem : ∀ p ∈ c.publishes ++ [.fetching (c.manager.slotId :: c.manager.extraSlotIds)],
      p ∈ c.publishes ∨ p = .fetching (c.manager.slotId :: c.manager.extraSlotIds) := by
    intro p hp
    rcases List.mem_append.1 hp with hp | hp
    · exact .inl hp
    · exact .inr (List.mem_singleton.1 hp)
  have hlast : (.fetching (c.manager.slotId :: c.manager.extraSlotIds) : Publish) ∈
      c.publishes ++ [.fetching (c.manager.slotId :: c.manager.extraSlotIds)] :=
    List.mem_append_right _ (List.mem_singleton_self _)
  refine hc.publishing ⟨rfl, rfl, rfl, rfl, fun s hs => hc.slots s (List.mem_cons_of_mem _ hs),
    hc.nodup, Nat.le_refl _, rfl, ?_, fun _ _ hv => .inl hv, List.Subset.refl _,
    fun _ hevent => .inl hevent, ?_, ?_, fun _ hid => .inl hid, ?_⟩
  · rintro k v - - ⟨w, hle, hkept⟩
    refine ⟨w, hle, ?_⟩
    rcases hkept with ⟨p, hp, hpart⟩ | ⟨event, hstored, howner, hfree, hv⟩
    · exact .inl ⟨p, List.mem_append_left _ hp, hpart⟩
    · refine .inr ⟨event, hstored, howner, fun p hp => ?_, hv⟩
      rcases hmem p hp with hp | rfl
      · exact hfree p hp
      · exact List.not_mem_nil
  · intro p hp
    rcases hmem p hp with hp | rfl
    · exact .inl hp
    · exact .inr fun slotId hslot => (hc.slots slotId hslot).owner
  · intro j k p q hp hq hpc hqc
    rcases getElem?_snoc_cases hp with ⟨-, rfl⟩ | ⟨-, hp⟩
    · cases hpc
    · rcases getElem?_snoc_cases hq with ⟨-, rfl⟩ | ⟨-, hq⟩
      · cases hqc
      · exact hc.one j k p q hp hq hpc hqc
  · intro _ _ hcomposed
    exact nomatch hcomposed _ hlast

theorem Sound.part {parts : List Contexts} (hcovers : c.manager.Covers parts)
    (part : Contexts) (hpart : part ∈ parts) :
    c.manager.Part part :=
  ⟨hcovers.fits part hpart, fun k v hv => hc.backed (hcovers.sub part hpart k v hv)⟩

/-- A publish that composed parts of every channel has all that was kept before. -/
theorem sound_composed_some {k : Nat} {slotIds extraSlotIds : List SlotId}
    {last : Contexts} {next : Publish}
    (hk : c.publishes[k]? = some (.fetching slotIds)) (halone : Alone c k)
    (hcovers : c.manager.Covers next.parts)
    (hprepared : acc.Prepared i c.manager next)
    (hslots : ∀ s ∈ extraSlotIds, acc.Slot i s)
    (hnodup : (c.manager.slotId :: extraSlotIds).Nodup)
    (hlast : last = c.manager.lastPublishedContexts ∨ last = ∅) :
    acc.Sound i
      { c with
        manager := { c.manager with extraSlotIds, lastPublishedContexts := last }
        publishes := settlePublish c.publishes k (some next) } r := by
  have hkept : ∀ k' v, c.manager.Backed k' v → isChannel k' = true → acc.Kept i
      { c with
        manager := { c.manager with extraSlotIds, lastPublishedContexts := last }
        publishes := settlePublish c.publishes k (some next) } r k' v := by
    intro k' v hbacked hk'
    obtain ⟨part, hpart, hv⟩ := hcovers.holds k' _ hk' hbacked.lookup
    exact (halone.kept_settle_iff hk (some next) rfl).2 ⟨_, hbacked.le, .inl ⟨part, hpart, hv⟩⟩
  refine hc.publishing ⟨rfl, rfl, rfl, rfl, hslots, hnodup, Nat.le_refl _, rfl,
    fun k' v hbacked hk' _ => hkept k' v hbacked hk', ?_, List.Subset.refl _,
    fun _ hevent => .inl hevent,
    prepared_settle hk (some next) (fun q hq => Option.some.inj hq ▸ hprepared),
    halone.one_settle (some next), fun _ hid => .inl hid,
    fun _ _ _ k' v hk' hv => .inr (hkept k' v (hc.backed hv) hk')⟩
  intro k' v hv
  rcases hlast with rfl | rfl
  · exact .inl hv
  · cases hv

theorem sound_composed {k : Nat} {slotIds supply : List SlotId}
    {out : Manager × Option Publish}
    (hk : c.publishes[k]? = some (.fetching slotIds)) (halone : Alone c k)
    (hroom : c.manager.hasRoom = true)
    (hsupply : readStateMaxSlots ≤ supply.length)
    (hslots : ∀ s ∈ supply, acc.Slot i s)
    (hnodup : (c.manager.slotId :: (c.manager.extraSlotIds ++ supply)).Nodup)
    (hcompose : Composes c.manager supply out) :
    acc.Sound i { c with manager := out.1, publishes := settlePublish c.publishes k out.2 } r := by
  have hextra : ∀ s ∈ c.manager.extraSlotIds, acc.Slot i s := fun s hs =>
    hc.slots s (List.mem_cons_of_mem _ hs)
  have htake : ∀ n, ∀ s ∈ c.manager.extraSlotIds ++ supply.take n, acc.Slot i s := by
    intro n s hs
    rcases List.mem_append.1 hs with hs | hs
    · exact hextra s hs
    · exact hslots s (List.mem_of_mem_take hs)
  have hnodup' : ∀ n, (c.manager.slotId :: (c.manager.extraSlotIds ++ supply.take n)).Nodup :=
    fun n => hnodup.sublist (((List.Sublist.refl _).append (List.take_sublist n _)).cons_cons _)
  cases hcompose with
  | oversized h =>
      rw [hroom] at h
      cases h
  | unchanged n parts hcovers hsaid hn =>
      refine hc.publishing ⟨rfl, rfl, rfl, rfl, htake n, hnodup' n, Nat.le_refl _, rfl, ?_,
        fun _ _ hv => .inl hv, List.Subset.refl _, fun _ hevent => .inl hevent,
        prepared_settle hk none nofun, halone.one_settle none, fun _ hid => .inl hid,
        fun _ _ _ k' v hk' hv => .inl (hc.kept_of_said hcovers (hsaid hsupply) hk' hv)⟩
      intro k' v _ _ hkept
      exact (halone.kept_settle_iff hk none rfl).2 ((halone.kept_iff hk).1 hkept)
  | deleting contexts hcovers hne =>
      refine sound_composed_some hc hk halone hcovers ⟨fun s hs => (hextra s hs).owner, ?_⟩ hextra
        hc.nodup (.inl rfl)
      exact hc.part hcovers contexts (List.mem_singleton_self _)
  | single contexts hcovers =>
      refine sound_composed_some hc hk halone hcovers ⟨List.nodup_singleton _, ?_⟩ hextra hc.nodup
        (.inl rfl)
      intro slot hslot
      rw [List.mem_singleton.1 hslot]
      exact ⟨hc.slots _ List.mem_cons_self, hc.part hcovers contexts (List.mem_singleton_self _)⟩
  | split n parts hcovers hlength hn =>
      have hids := length_slots (m := c.manager) hsupply hn
      refine sound_composed_some hc hk halone ?_ ⟨?_, ?_⟩ (htake n) (hnodup' n) (.inr rfl)
      · show c.manager.Covers (List.map Prod.snd (List.zip _ parts))
        rw [List.map_snd_zip (by rw [hids, hlength])]
        exact hcovers
      · show (List.map Prod.fst (List.zip _ parts)).Nodup
        rw [List.map_fst_zip (by rw [hids, hlength])]
        exact hnodup' n
      · intro slot hslot
        obtain ⟨hid, hpart⟩ := List.of_mem_zip hslot
        refine ⟨?_, hc.part hcovers slot.2 hpart⟩
        rcases List.mem_cons.1 hid with hid | hid
        · rw [hid]
          exact hc.slots _ List.mem_cons_self
        · exact htake n _ hid

end

/-! ## Deleting -/

theorem lookup_drop {slotId slotId' : SlotId} (gone : Bool) (hne : slotId' ≠ slotId) :
    (r.drop slotId gone).slots.lookup slotId' = r.slots.lookup slotId' := by
  show (if gone then r.slots.erase slotId else r.slots).lookup slotId' = _
  split
  · rw [HMap.lookup_erase_ite, if_neg hne]
  · rfl

theorem RelaySound.drop (hr : acc.RelaySound r) (slotId : SlotId) (gone : Bool) :
    acc.RelaySound (r.drop slotId gone) := by
  refine ⟨hr.ids, fun slotId' event hstored => hr.slots slotId' event ?_, hr.readable, hr.author,
    hr.values⟩
  change (if gone then r.slots.erase slotId else r.slots).lookup slotId' = some event at hstored
  split at hstored
  · rw [HMap.lookup_erase_ite] at hstored
    split at hstored
    · cases hstored
    · exact hstored
  · exact hstored

/-- What a publish goes on with after the deletion of a slot. -/
def GoesOn (acc : Account) (i : Nat) (m : Manager) (rest : List SlotId) (contexts : Contexts)
    (next : Option Publish) : Prop :=
  (next = none ∧ ∀ key, contexts.lookup key = none) ∨
    ∃ p, next = some p ∧ p.parts = [contexts] ∧ p.doomed m.slotId ⊆ m.slotId :: rest ∧
      acc.Prepared i m p

theorem keptBy_drop {m : Manager} {slotId : SlotId} {rest : List SlotId}
    {contexts : Contexts} (gone : Bool)
    (hnext : acc.GoesOn i m rest contexts next)
    (h : acc.KeptBy i r [contexts] (m.slotId :: slotId :: rest) key value) :
    acc.KeptBy i (r.drop slotId gone) (next.elim [] Publish.parts)
      (next.elim [] (Publish.doomed m.slotId)) key value := by
  obtain ⟨w, hle, hkept⟩ := h
  refine ⟨w, hle, ?_⟩
  rcases hkept with ⟨part, hpart, hv⟩ | ⟨event, hstored, howner, hfree, hv⟩
  · rw [List.mem_singleton.1 hpart] at hv
    rcases hnext with ⟨-, hempty⟩ | ⟨p, rfl, hparts, -, -⟩
    · rw [hempty key] at hv
      cases hv
    · refine .inl ⟨contexts, ?_, hv⟩
      show contexts ∈ p.parts
      rw [hparts]
      exact List.mem_singleton_self _
  · have hne : event.slotId ≠ slotId := fun heq =>
      hfree (heq ▸ List.mem_cons_of_mem _ List.mem_cons_self)
    refine .inr ⟨event, ?_, howner, ?_, hv⟩
    · rw [lookup_drop gone hne]
      exact hstored
    · rcases hnext with ⟨rfl, -⟩ | ⟨p, rfl, -, hdoomed, -⟩
      · exact List.not_mem_nil
      · intro hin
        rcases List.mem_cons.1 (hdoomed hin) with heq | hin
        · exact hfree (heq ▸ List.mem_cons_self)
        · exact hfree (List.mem_cons_of_mem _ (List.mem_cons_of_mem _ hin))

theorem sound_dropped (hc : acc.Sound i c r) {k : Nat} {slotId : SlotId}
    {rest : List SlotId} {contexts last : Contexts} {extraSlotIds : List SlotId}
    (gone : Bool)
    (hk : c.publishes[k]? = some (.deleting (slotId :: rest) contexts))
    (hnext : acc.GoesOn i c.manager rest contexts next)
    (hextra : extraSlotIds = c.manager.extraSlotIds ∨ extraSlotIds = [])
    (hlast : last = c.manager.lastPublishedContexts ∨ last = ∅) :
    acc.Sound i
      { c with
        manager := { c.manager with extraSlotIds, lastPublishedContexts := last }
        publishes := settlePublish c.publishes k next } (r.drop slotId gone) := by
  have halone := hc.alone hk rfl
  refine hc.publishing ⟨rfl, rfl, rfl, rfl, ?_, ?_, Nat.le_refl _, rfl, ?_, ?_,
    List.Subset.refl _, fun _ hevent => .inl hevent, prepared_settle hk next ?_,
    halone.one_settle next, fun _ hid => .inl hid, ?_⟩
  · rcases hextra with rfl | rfl
    · exact fun s hs => hc.slots s (List.mem_cons_of_mem _ hs)
    · exact nofun
  · rcases hextra with rfl | rfl
    · exact hc.nodup
    · exact List.nodup_singleton _
  · intro k' v _ _ hkept
    have hby := keptBy_drop gone hnext ((halone.kept_iff hk).1 hkept)
    exact (halone.kept_settle_iff hk next rfl).2 hby
  · intro k' v hv
    rcases hlast with rfl | rfl
    · exact .inl hv
    · cases hv
  · intro q hq
    rcases hnext with ⟨rfl, -⟩ | ⟨p, rfl, -, -, hprepared⟩
    · cases hq
    · exact Option.some.inj hq ▸ hprepared
  · intro hinitialized htimer hcomposed k' v hk' hv
    exact .inl (hc.quiet hinitialized htimer (composed_of_settle hk rfl hcomposed) k' v hk' hv)

/-! ## Sending -/

/-- The relay takes an event that is newer than what is in its slot. -/
theorem receive_newer {event : ReadStateEvent}
    (hnewer : ∀ old, r.slots.lookup event.slotId = some old → old.createdAt < event.createdAt) :
    r.receive event .ok =
      { slots := r.slots.insert event.slotId event
        published := r.published ++ [event]
        calls := r.calls + 1 } := by
  unfold Relay.receive Relay.store
  rw [if_neg nofun, if_neg]
  rw [Bool.not_eq_true, Option.any_eq_false_iff_get]
  intro hsome
  have hless := hnewer _ (Option.some_get hsome).symm
  rw [Bool.not_eq_false']
  unfold ReadStateEvent.supersedes
  rw [decide_eq_true hless, Bool.true_or]

/-- The relay after it took an event. -/
def accepted (r : Relay) (event : ReadStateEvent) : Relay where
  slots := r.slots.insert event.slotId event
  published := r.published ++ [event]
  calls := r.calls + 1

section Sending

variable {k now : Nat} {slotId : SlotId} {contexts : Contexts} {rest : List (SlotId × Contexts)}
  {id : EventId}

/-- An event of a client is newer than all its earlier ones. -/
theorem receive_signed (hc : acc.Sound i c r) (hr : acc.RelaySound r)
    (hk : c.publishes[k]? = some (.sending ((slotId, contexts) :: rest))) :
    r.receive (c.manager.signed slotId contexts now id) .ok =
      accepted r (c.manager.signed slotId contexts now id) := by
  refine receive_newer fun old hold => ?_
  have hprepared := hc.publishes _ (List.mem_of_getElem? hk)
  have howner := (hprepared.2 _ List.mem_cons_self).1.owner
  obtain ⟨hslot, hmem⟩ := hr.slots _ old hold
  have hmax := (hc.own old hmem (hslot ▸ howner)).1
  exact (Nat.lt_succ_of_le hmax).trans_le (Nat.le_max_right now _)

theorem RelaySound.accepted (hr : acc.RelaySound r) (hc : acc.Sound i c r)
    (hk : c.publishes[k]? = some (.sending ((slotId, contexts) :: rest)))
    (hfresh : ∀ event ∈ r.published, event.id ≠ id) :
    acc.RelaySound (accepted r (c.manager.signed slotId contexts now id)) := by
  have hprepared := hc.publishes _ (List.mem_of_getElem? hk)
  obtain ⟨hslot, hpart⟩ := hprepared.2 _ List.mem_cons_self
  have hvalues : ∀ k v, contexts.lookup k = some v → ValidEntry k v := by
    intro k v hv
    have hbacked := hpart.backed k v hv
    have hvalid := hc.values k _ (lookup_publishable.1 hbacked.lookup).1
    exact ⟨hbacked.pos, hbacked.le.trans hvalid.small, hvalid.short⟩
  have hmem : ∀ event ∈ r.published ++ [c.manager.signed slotId contexts now id],
      event ∈ r.published ∨ event = c.manager.signed slotId contexts now id := by
    intro event hevent
    rcases List.mem_append.1 hevent with hevent | hevent
    · exact .inl hevent
    · exact .inr (List.mem_singleton.1 hevent)
  refine ⟨?_, ?_, ?_, ?_, ?_⟩
  · show ((r.published ++ [c.manager.signed slotId contexts now id]).map (·.id)).Nodup
    rw [List.map_append]
    refine hr.ids.append (List.nodup_singleton _) (List.disjoint_singleton.2 fun hin => ?_)
    obtain ⟨event, hevent, heq⟩ := List.mem_map.1 hin
    exact hfresh event hevent heq
  · intro slotId' event hstored
    rcases HMap.lookup_insert_cases hstored with ⟨rfl, rfl⟩ | ⟨-, hold⟩
    · exact ⟨rfl, List.mem_append_right _ (List.mem_singleton_self _)⟩
    · obtain ⟨hslot', hevent⟩ := hr.slots slotId' event hold
      exact ⟨hslot', List.mem_append_left _ hevent⟩
  · intro event hevent
    rcases hmem event hevent with hevent | rfl
    · exact hr.readable event hevent
    · refine ⟨hslot.valid, ?_, fun k v hv => ⟨(hvalues k v hv).short, (hvalues k v hv).small⟩⟩
      show (decide (c.manager.clientId ≠ []) && decide (utf16Length c.manager.clientId ≤ 64) &&
        decide (contexts.keys.length ≤ maxContexts)) = true
      rw [decide_eq_true hc.valid.1, decide_eq_true hc.valid.2, decide_eq_true hpart.fits]
      rfl
  · intro event hevent
    rcases hmem event hevent with hevent | rfl
    · exact hr.author event hevent
    · show acc.clientIds[acc.owner slotId]? = some c.manager.clientId
      rw [hslot.owner]
      exact hc.clientId
  · intro event hevent
    rcases hmem event hevent with hevent | rfl
    · exact hr.values event hevent
    · exact hvalues

theorem lookup_accepted_self (event : ReadStateEvent) :
    (accepted r event).slots.lookup event.slotId = some event := by
  show (r.slots.insert event.slotId event).lookup event.slotId = _
  rw [HMap.lookup_insert_ite, if_pos rfl]

theorem lookup_accepted {event : ReadStateEvent} {slotId' : SlotId} (hne : slotId' ≠ event.slotId) :
    (accepted r event).slots.lookup slotId' = r.slots.lookup slotId' := by
  show (r.slots.insert event.slotId event).lookup slotId' = _
  rw [HMap.lookup_insert_ite, if_neg hne]

theorem sound_sent (hc : acc.Sound i c r)
    (hk : c.publishes[k]? = some (.sending ((slotId, contexts) :: rest))) :
    acc.Sound i
      { c with
        manager := c.manager.afterSend (c.manager.signed slotId contexts now id) .ok
        publishes := settlePublish c.publishes k
          (if rest = [] then none else some (.sending rest)) }
      (accepted r (c.manager.signed slotId contexts now id)) := by
  have halone := hc.alone hk rfl
  obtain ⟨hnodup, hslots⟩ := hc.publishes _ (List.mem_of_getElem? hk)
  obtain ⟨hslot, hpart⟩ := hslots _ List.mem_cons_self
  rw [List.map_cons, List.nodup_cons] at hnodup
  obtain ⟨hunread, hextra⟩ := afterSend_unread c.manager
    (c.manager.signed slotId contexts now id) .ok
  have hgrows := hunread.grows
  generalize hnext : (if rest = [] then none else some (Publish.sending rest)) = next
  -- The rest of the parts, whether or not there are any.
  have hparts : next.elim [] Publish.parts = rest.map (·.2) := by
    rw [← hnext]
    split
    · next hnil => rw [hnil]; rfl
    · rfl
  have hdoomed : ∀ s, next.elim [] (Publish.doomed s) = rest.map (·.1) := by
    intro s
    rw [← hnext]
    split
    · next hnil => rw [hnil]; rfl
    · rfl
  have hkeptIff : ∀ k' v, acc.Kept i
      { c with
        manager := c.manager.afterSend (c.manager.signed slotId contexts now id) .ok
        publishes := settlePublish c.publishes k next }
      (accepted r (c.manager.signed slotId contexts now id)) k' v ↔
      acc.KeptBy i (accepted r (c.manager.signed slotId contexts now id)) (rest.map (·.2))
        (rest.map (·.1)) k' v := by
    intro k' v
    rw [halone.kept_settle_iff hk next rfl, hparts, hdoomed]
  have hstored : ∀ k' v, contexts.lookup k' = some v → acc.Kept i
      { c with
        manager := c.manager.afterSend (c.manager.signed slotId contexts now id) .ok
        publishes := settlePublish c.publishes k next }
      (accepted r (c.manager.signed slotId contexts now id)) k' v := fun k' v hv =>
    (hkeptIff k' v).2 ⟨v, Nat.le_refl v, .inr ⟨c.manager.signed slotId contexts now id,
      lookup_accepted_self _, hslot.owner, hnodup.1, hv⟩⟩
  have hsecured : ∀ k' v, contexts.lookup k' = some v → acc.Secured i
      { c with
        manager := c.manager.afterSend (c.manager.signed slotId contexts now id) .ok
        publishes := settlePublish c.publishes k next }
      (accepted r (c.manager.signed slotId contexts now id)) k' v := fun k' v hv =>
    ⟨(hpart.backed k' v hv).grows hgrows, fun _ => hstored k' v hv⟩
  refine hc.publishing ⟨hunread.effectiveState, hunread.publishableContextIds, hunread.clientId,
    hunread.slotId, ?_, ?_, Nat.le_max_left _ _, rfl, ?_, ?_, List.subset_append_left _ _, ?_,
    prepared_settle hk next ?_, halone.one_settle next, ?_, ?_⟩
  · exact fun s hs => hc.slots s (List.mem_cons_of_mem _ (hextra ▸ hs))
  · show (c.manager.slotId :: (c.manager.afterSend _ .ok).extraSlotIds).Nodup
    rw [hextra]
    exact hc.nodup
  · intro k' v _ _ hkept
    obtain ⟨w, hle, hcases⟩ := (halone.kept_iff hk).1 hkept
    rcases hcases with ⟨part, hmem, hv⟩ | ⟨event, hold, howner, hfree, hv⟩
    · rcases List.mem_cons.1 hmem with rfl | hmem
      · exact (hstored k' w hv).le hle
      · exact (hkeptIff k' v).2 ⟨w, hle, .inl ⟨part, hmem, hv⟩⟩
    · have hfree' : event.slotId ∉ slotId :: rest.map (·.1) := hfree
      rw [List.mem_cons, not_or] at hfree'
      refine (hkeptIff k' v).2 ⟨w, hle, .inr ⟨event, ?_, howner, hfree'.2, hv⟩⟩
      rw [lookup_accepted hfree'.1]
      exact hold
  · intro k' v hv
    change (c.manager.lastPublishedContexts.putAll contexts).lookup k' = some v at hv
    rw [HMap.lookup_putAll, Option.or_eq_some_iff] at hv
    rcases hv with hnew | ⟨-, hold⟩
    · exact .inr (hsecured k' v hnew)
    · exact .inl hold
  · intro event hevent
    rcases List.mem_append.1 hevent with hevent | hevent
    · exact .inl hevent
    · rw [List.mem_singleton.1 hevent]
      exact .inr ⟨Nat.le_max_right _ _, hsecured⟩
  · intro q hq
    rw [← hnext] at hq
    split at hq
    · cases hq
    · cases hq
      exact ⟨hnodup.2, fun slot hmem => hslots slot (List.mem_cons_of_mem _ hmem)⟩
  · intro id' hid'
    rcases mem_rememberPublishedId hid' with hold | rfl
    · exact .inl hold
    · exact .inr ⟨_, List.mem_append_right _ (List.mem_singleton_self _), rfl, hslot.owner⟩
  · intro hinitialized htimer hcomposed k' v hk' hv
    rw [hunread.initialized] at hinitialized
    rw [hunread.debounceTimer] at htimer
    exact .inl (hc.quiet hinitialized htimer (composed_of_settle hk rfl hcomposed) k' v hk' hv)

end Sending

/-! ## The others -/

/-- What the others see of a step of a client: its slots, and perhaps a new event. -/
structure Frame (acc : Account) (i : Nat) (r r' : Relay) : Prop where
  slots : ∀ slotId, acc.owner slotId ≠ i → r'.slots.lookup slotId = r.slots.lookup slotId
  published : r.published ⊆ r'.published
  events : ∀ event ∈ r'.published, event ∈ r.published ∨ acc.owner event.slotId = i

theorem Frame.refl (acc : Account) (i : Nat) (r : Relay) : acc.Frame i r r :=
  ⟨fun _ _ => rfl, List.Subset.refl _, fun _ h => .inl h⟩

theorem Frame.drop {slotId : SlotId} (gone : Bool) (howner : acc.owner slotId = i) :
    acc.Frame i r (r.drop slotId gone) := by
  refine ⟨fun slotId' hne => lookup_drop gone fun heq => hne (heq ▸ howner), List.Subset.refl _,
    fun _ h => .inl h⟩

theorem Frame.accepted {event : ReadStateEvent} (howner : acc.owner event.slotId = i) :
    acc.Frame i r (accepted r event) := by
  refine ⟨fun slotId' hne => lookup_accepted fun heq => hne (heq ▸ howner),
    List.subset_append_left _ _, fun event' h => ?_⟩
  rcases List.mem_append.1 h with h | h
  · exact .inl h
  · rw [List.mem_singleton.1 h]
    exact .inr howner

theorem Sound.frame {j : Nat} (hc : acc.Sound j c r) (hframe : acc.Frame i r r') (hne : j ≠ i) :
    acc.Sound j c r' := by
  have hkept : ∀ k v, acc.Kept j c r k v → acc.Kept j c r' k v := by
    rintro k v ⟨w, hle, hkept⟩
    refine ⟨w, hle, hkept.imp_right ?_⟩
    rintro ⟨event, hstored, howner, hrest⟩
    refine ⟨event, ?_, howner, hrest⟩
    rw [hframe.slots event.slotId (howner ▸ hne)]
    exact hstored
  have hsecured : ∀ k v, acc.Secured j c r k v → acc.Secured j c r' k v := fun k v hs =>
    ⟨hs.backed, fun hk => hkept k v (hs.kept hk)⟩
  refine ⟨hc.clientId, hc.valid, hc.slots, hc.nodup, hc.values,
    fun k v hv => hsecured k v (hc.last k v hv), ?_, hc.publishes, hc.one, ?_, ?_,
    fun hinitialized htimer hcomposed k v hk hv =>
      hkept k v (hc.quiet hinitialized htimer hcomposed k v hk hv)⟩
  · intro event hevent howner
    rcases hframe.events event hevent with hold | hnew
    · obtain ⟨hmax, hentries⟩ := hc.own event hold howner
      exact ⟨hmax, fun k v hv => hsecured k v (hentries k v hv)⟩
    · exact absurd (howner.symm.trans hnew) hne
  · intro id hid
    obtain ⟨event, hevent, hrest⟩ := hc.seen id hid
    exact ⟨event, hframe.published hevent, hrest⟩
  · intro id hid
    obtain ⟨event, hevent, hrest⟩ := hc.recent id hid
    exact ⟨event, hframe.published hevent, hrest⟩

end Account

end Buzz.Desktop
