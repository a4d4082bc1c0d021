import Buzz.Proofs.ReadStateQuiescence

/-!
# What the relay keeps of a client

Each slot belongs to one client, which alone writes it. A timestamp that a client has
published is *kept* as long as some slot of the client holds it, or one as great, that
is not about to be deleted or overwritten, or as long as it is in a part that the client
has still to send. The invariant of a client says that all it has published is kept, and
everything that may be published once there is no reason to publish.

Here are the steps that only read: marks, merges and the end of the initialization.
-/

namespace Buzz.Desktop

open Buzz.Lib Manager

/-- The clients of an account by their ids, and whose the slots are. -/
structure Account where
  clientIds : List (List Char)
  nodup : clientIds.Nodup
  owner : SlotId → Nat

namespace Publish

/-- It knows what to send. -/
def composed : Publish → Bool
  | .fetching _ => false
  | _ => true

/-- The slots it is going to delete or to overwrite. -/
def doomed (slotId : SlotId) : Publish → List SlotId
  | .fetching _ => []
  | .deleting rest _ => slotId :: rest
  | .sending rest => rest.map (·.1)

end Publish

/-- A timestamp that survives being read by others. -/
structure ValidEntry (key : ContextId) (value : Nat) : Prop where
  pos : 0 < value
  small : value ≤ 4294967295
  short : utf8Length key.text ≤ 256

namespace Manager

variable {m m' : Manager} {key : ContextId} {value : Nat}

/-- The context may be published, and its timestamp is at least this. -/
structure Backed (m : Manager) (key : ContextId) (value : Nat) : Prop where
  ids : key ∈ m.publishableContextIds
  pos : 0 < value
  le : value ≤ m.read key

theorem Backed.grows (h : m.Backed key value) (hgrows : Grows m m') : m'.Backed key value :=
  ⟨hgrows.ids h.ids, h.pos, h.le.trans (hgrows.read key)⟩

theorem Backed.lookup (h : m.Backed key value) :
    m.publishable.lookup key = some (m.read key) :=
  lookup_publishable.2 ⟨lookup_of_read (h.pos.trans_le h.le), h.ids⟩

/-- What a part of a publish holds. -/
structure Part (m : Manager) (part : Contexts) : Prop where
  fits : part.keys.length ≤ maxContexts
  backed : ∀ key value, part.lookup key = some value → m.Backed key value

theorem Part.grows {part : Contexts} (h : m.Part part) (hgrows : Grows m m') : m'.Part part :=
  ⟨h.fits, fun key value hv => (h.backed key value hv).grows hgrows⟩

end Manager

namespace Account

variable {acc : Account} {i : Nat} {c c' : Client} {r : Relay} {key : ContextId} {value : Nat}
  {m : Manager} {event : ReadStateEvent}

/-- A slot the client may write. -/
structure Slot (acc : Account) (i : Nat) (slotId : SlotId) : Prop where
  owner : acc.owner slotId = i
  valid : isValidSlotId slotId = true

/-- What a publish was prepared with. -/
def Prepared (acc : Account) (i : Nat) (m : Manager) : Publish → Prop
  | .fetching slotIds => ∀ slotId ∈ slotIds, acc.owner slotId = i
  | .deleting rest contexts => (∀ slotId ∈ rest, acc.owner slotId = i) ∧ m.Part contexts
  | .sending rest =>
      (rest.map (·.1)).Nodup ∧ ∀ slot ∈ rest, acc.Slot i slot.1 ∧ m.Part slot.2

theorem Prepared.grows {m' : Manager} {p : Publish} (h : acc.Prepared i m p)
    (hgrows : Grows m m') : acc.Prepared i m' p := by
  cases p with
  | fetching slotIds => exact h
  | deleting rest contexts => exact ⟨h.1, h.2.grows hgrows⟩
  | sending rest =>
      exact ⟨h.1, fun slot hslot => ⟨(h.2 slot hslot).1, (h.2 slot hslot).2.grows hgrows⟩⟩

/-- The timestamp, or a greater one, is in a part still to be sent, or in an event that
stays. -/
def Kept (acc : Account) (i : Nat) (c : Client) (r : Relay) (key : ContextId) (value : Nat) :
    Prop :=
  ∃ w, value ≤ w ∧
    ((∃ p ∈ c.publishes, ∃ part ∈ p.parts, part.lookup key = some w) ∨
      ∃ event : ReadStateEvent, r.slots.lookup event.slotId = some event ∧
        acc.owner event.slotId = i ∧
        (∀ p ∈ c.publishes, event.slotId ∉ p.doomed c.manager.slotId) ∧
        event.blob.contexts.lookup key = some w)

theorem Kept.le {value' : Nat} (h : acc.Kept i c r key value) (hle : value' ≤ value) :
    acc.Kept i c r key value' := by
  obtain ⟨w, hw, hkept⟩ := h
  exact ⟨w, hle.trans hw, hkept⟩

theorem Kept.congr (h : acc.Kept i c r key value) (hpublishes : c'.publishes = c.publishes)
    (hslotId : c'.manager.slotId = c.manager.slotId) : acc.Kept i c' r key value := by
  unfold Kept at h ⊢
  rw [hpublishes, hslotId]
  exact h

/-- A timestamp that was published. -/
structure Secured (acc : Account) (i : Nat) (c : Client) (r : Relay) (key : ContextId)
    (value : Nat) : Prop where
  backed : c.manager.Backed key value
  kept : isChannel key = true → acc.Kept i c r key value

/-- The invariant of a client. -/
structure Sound (acc : Account) (i : Nat) (c : Client) (r : Relay) : Prop where
  clientId : acc.clientIds[i]? = some c.manager.clientId
  valid : c.manager.clientId ≠ [] ∧ utf16Length c.manager.clientId ≤ 64
  slots : ∀ slotId ∈ c.manager.slotId :: c.manager.extraSlotIds, acc.Slot i slotId
  nodup : (c.manager.slotId :: c.manager.extraSlotIds).Nodup
  values : ∀ key value, c.manager.effectiveState.lookup key = some value → ValidEntry key value
  last : ∀ key value, c.manager.lastPublishedContexts.lookup key = some value →
    acc.Secured i c r key value
  own : ∀ event ∈ r.published, acc.owner event.slotId = i →
    event.createdAt ≤ c.manager.maxFetchedCreatedAt ∧
      ∀ key value, event.blob.contexts.lookup key = some value → acc.Secured i c r key value
  publishes : ∀ p ∈ c.publishes, acc.Prepared i c.manager p
  one : ∀ (j k : Nat) (p q : Publish), c.publishes[j]? = some p → c.publishes[k]? = some q →
    p.composed = true → q.composed = true → j = k
  seen : ∀ id ∈ c.seen, ∃ event ∈ r.published, event.id = id ∧
    ∀ key value, event.blob.contexts.lookup key = some value → c.manager.Backed key value
  recent : ∀ id ∈ c.manager.recentlyPublishedIds,
    ∃ event ∈ r.published, event.id = id ∧ acc.owner event.slotId = i
  quiet : c.manager.initialized = true → c.manager.debounceTimer = false →
    (∀ p ∈ c.publishes, p.composed = true) →
    ∀ key value, isChannel key = true → c.manager.publishable.lookup key = some value →
      acc.Kept i c r key value

/-- The invariant of the relay. -/
structure RelaySound (acc : Account) (r : Relay) : Prop where
  ids : (r.published.map (·.id)).Nodup
  slots : ∀ slotId event, r.slots.lookup slotId = some event →
    event.slotId = slotId ∧ event ∈ r.published
  readable : ∀ event ∈ r.published, Readable event
  author : ∀ event ∈ r.published,
    acc.clientIds[acc.owner event.slotId]? = some event.blob.clientId
  values : ∀ event ∈ r.published, ∀ key value,
    event.blob.contexts.lookup key = some value → ValidEntry key value

section

variable (hc : acc.Sound i c r)
include hc

/-- A client knows its own events by their client id. -/
theorem clientId_eq_iff (hr : acc.RelaySound r) (hevent : event ∈ r.published) :
    event.blob.clientId = c.manager.clientId ↔ acc.owner event.slotId = i := by
  have hauthor := hr.author event hevent
  constructor
  · intro heq
    rw [heq] at hauthor
    have hlt := (List.getElem?_eq_some_iff.1 hauthor).1
    exact (List.getElem?_inj hlt acc.nodup).1 (hauthor.trans hc.clientId.symm)
  · intro heq
    rw [heq, hc.clientId] at hauthor
    exact (Option.some.inj hauthor).symm

/-! ## Reading -/

/-- A step that leaves the publishes and the slots alone. -/
structure Reading (acc : Account) (i : Nat) (r : Relay) (c c' : Client) : Prop where
  grows : Grows c.manager c'.manager
  publishes : c'.publishes = c.publishes
  clientId : c'.manager.clientId = c.manager.clientId
  slotId : c'.manager.slotId = c.manager.slotId
  extraSlotIds : c'.manager.extraSlotIds = c.manager.extraSlotIds
  maxFetchedCreatedAt : c.manager.maxFetchedCreatedAt ≤ c'.manager.maxFetchedCreatedAt
  recent : c'.manager.recentlyPublishedIds ⊆ c.manager.recentlyPublishedIds
  values : ∀ key value, c'.manager.effectiveState.lookup key = some value → ValidEntry key value
  last : ∀ key value, c'.manager.lastPublishedContexts.lookup key = some value →
    c.manager.lastPublishedContexts.lookup key = some value ∨
      ∃ event ∈ r.published, acc.owner event.slotId = i ∧
        event.blob.contexts.lookup key = some value
  seen : ∀ id ∈ c'.seen, id ∈ c.seen ∨ ∃ event ∈ r.published, event.id = id ∧
    ∀ key value, event.blob.contexts.lookup key = some value → c'.manager.Backed key value
  quiet : c'.manager.initialized = true → c'.manager.debounceTimer = false →
    (∀ p ∈ c.publishes, p.composed = true) →
    ∀ key value, isChannel key = true → c'.manager.publishable.lookup key = some value →
      acc.Kept i c r key value

theorem Sound.reading (h : acc.Reading i r c c') : acc.Sound i c' r := by
  have hsecured : ∀ k v, acc.Secured i c r k v → acc.Secured i c' r k v := fun k v hs =>
    ⟨hs.backed.grows h.grows, fun hk => (hs.kept hk).congr h.publishes h.slotId⟩
  refine ⟨?_, ?_, ?_, ?_, h.values, ?_, ?_, ?_, ?_, ?_, ?_, ?_⟩
  · rw [h.clientId]
    exact hc.clientId
  · rw [h.clientId]
    exact hc.valid
  · rw [h.slotId, h.extraSlotIds]
    exact hc.slots
  · rw [h.slotId, h.extraSlotIds]
    exact hc.nodup
  · intro k v hv
    rcases h.last k v hv with hold | ⟨event, hevent, howner, hnew⟩
    · exact hsecured k v (hc.last k v hold)
    · exact hsecured k v ((hc.own event hevent howner).2 k v hnew)
  · intro event hevent howner
    obtain ⟨hmax, hentries⟩ := hc.own event hevent howner
    exact ⟨hmax.trans h.maxFetchedCreatedAt, fun k v hv => hsecured k v (hentries k v hv)⟩
  · rw [h.publishes]
    exact fun p hp => (hc.publishes p hp).grows h.grows
  · rw [h.publishes]
    exact hc.one
  · intro id hid
    rcases h.seen id hid with hold | hnew
    · obtain ⟨event, hevent, heq, hbacked⟩ := hc.seen id hold
      exact ⟨event, hevent, heq, fun k v hv => (hbacked k v hv).grows h.grows⟩
    · exact hnew
  · exact fun id hid => hc.recent id (h.recent hid)
  · intro hinitialized htimer hcomposed k v hk hv
    rw [h.publishes] at hcomposed
    exact (h.quiet hinitialized htimer hcomposed k v hk hv).congr h.publishes h.slotId

/-- What the last publish said is kept. -/
theorem Sound.kept_of_said {parts : List Contexts}
    (hcovers : c.manager.Covers parts) (hsaid : c.manager.Said parts)
    (hkey : isChannel key = true)
    (hv : c.manager.publishable.lookup key = some value) :
    acc.Kept i c r key value := by
  obtain ⟨part, hpart, hlookup⟩ := hcovers.holds key value hkey hv
  obtain ⟨w, hw, hle⟩ := hsaid part hpart key value hlookup
  exact ((hc.last key w hw).kept hkey).le hle

omit hc in
/-- Without a change the same may be published. -/
theorem publishable_of_same {m' : Manager}
    (hread : ∀ key, m'.read key ≤ m.read key)
    (hids : m'.publishableContextIds ⊆ m.publishableContextIds)
    (hgrows : Grows m m') (hpos : 0 < value)
    (hv : m'.publishable.lookup key = some value) :
    m.publishable.lookup key = some value := by
  obtain ⟨hlookup, hkey⟩ := lookup_publishable.1 hv
  have heq : m.read key = value := by
    rw [← read_of_lookup hlookup]
    exact Nat.le_antisymm (hgrows.read key) (hread key)
  refine lookup_publishable.2 ⟨?_, hids hkey⟩
  rw [← heq]
  exact lookup_of_read (heq ▸ hpos)

theorem sound_mark {context : ContextId} {timestamp : Nat}
    (hmarked : Marked context timestamp c.manager m)
    (hshort : utf8Length context.text ≤ 256) (hsmall : timestamp ≤ 4294967295) :
    acc.Sound i { c with manager := m } r := by
  have hvalues : ∀ k v, m.effectiveState.lookup k = some v → ValidEntry k v := by
    intro k v hv
    by_cases hpos : 0 < timestamp
    · rcases hmarked.absorbs.sub k v hv with hold | hnew
      · exact hc.values k v hold
      · cases List.mem_singleton.1 hnew
        exact ⟨hpos, hsmall, hshort⟩
    · -- A mark at zero is never news.
      have hsame := hmarked.absorbs.same fun e he => by
        rw [List.mem_singleton.1 he]
        dsimp only
        omega
      exact hc.values k v (hsame ▸ hv)
  refine hc.reading ⟨hmarked.absorbs.grows, rfl, hmarked.clientId, hmarked.slotId,
    hmarked.extraSlotIds, Nat.le_of_eq hmarked.maxFetchedCreatedAt.symm, ?_, hvalues, ?_,
    fun id hid => .inl hid, ?_⟩
  · rw [hmarked.recentlyPublishedIds]
    exact List.Subset.refl _
  · intro k v hv
    rw [hmarked.lastPublishedContexts] at hv
    exact .inl hv
  · intro hinitialized htimer hcomposed k v hk hv
    rcases hmarked.debounceTimer with hset | ⟨heffective, hids, hsame⟩
    · exact absurd hset (Bool.eq_false_iff.1 htimer)
    · refine hc.quiet (hmarked.initialized ▸ hinitialized) (hsame ▸ htimer) hcomposed k v hk ?_
      rw [lookup_publishable] at hv ⊢
      rw [← heffective, ← hids]
      exact hv

theorem sound_finishInitialize
    (heq : m = { c.manager with debounceTimer := true, initialized := true } ∨
      (m = { c.manager with initialized := true } ∧
      ∃ contexts, c.manager.Covers [contexts] ∧ c.manager.Said [contexts])) :
    acc.Sound i { c with manager := m } r := by
  rcases heq with rfl | ⟨rfl, contexts, hcovers, hsaid⟩
  · exact hc.reading ⟨⟨fun _ => Nat.le_refl _, List.Subset.refl _⟩, rfl, rfl, rfl, rfl,
      Nat.le_refl _, List.Subset.refl _, hc.values, fun _ _ hv => .inl hv,
      fun _ hid => .inl hid, fun _ htimer => nomatch htimer⟩
  · exact hc.reading ⟨⟨fun _ => Nat.le_refl _, List.Subset.refl _⟩, rfl, rfl, rfl, rfl,
      Nat.le_refl _, List.Subset.refl _, hc.values, fun _ _ hv => .inl hv,
      fun _ hid => .inl hid, fun _ _ _ _ _ hk hv => hc.kept_of_said hcovers hsaid hk hv⟩

/-- A fetch is merged before the client is initialized, or in the course of a publish. -/
theorem sound_merge (hr : acc.RelaySound r) {events : List ReadStateEvent}
    {fresh : SlotId} (hevents : ∀ event ∈ events, event ∈ r.published)
    (hmerged : Merged (events.filterMap parseReadStateEvent) fresh c.manager m)
    (hbusy : c.manager.initialized = false ∨ ∃ p ∈ c.publishes, p.composed = false) :
    acc.Sound i { c with manager := m } r ∧ m.slotId = c.manager.slotId := by
  -- Nobody else writes the slot, so there is no conflict.
  have hslotId : m.slotId = c.manager.slotId := by
    rcases hmerged.slotId with hsame | ⟨-, parsed, hparsed, hslot, hclient⟩
    · exact hsame
    · obtain ⟨event, hevent, hparse⟩ := List.mem_filterMap.1 hparsed
      obtain ⟨hslot', hclient'⟩ := parsed_coordinates hparse
      refine absurd ?_ hclient
      rw [hclient', clientId_eq_iff hc hr (hevents event hevent), ← hslot', hslot]
      exact (hc.slots _ List.mem_cons_self).owner
  refine ⟨hc.reading ⟨hmerged.absorbs.grows, rfl, hmerged.clientId, hslotId, hmerged.extraSlotIds,
    hmerged.maxFetchedCreatedAt, ?_, ?_, ?_, fun id hid => .inl hid, ?_⟩, hslotId⟩
  · rw [hmerged.recentlyPublishedIds]
    exact List.Subset.refl _
  · intro k v hv
    rcases hmerged.absorbs.sub k v hv with hold | hnew
    · exact hc.values k v hold
    · obtain ⟨parsed, hparsed, hv'⟩ := mem_entriesOf.1 hnew
      obtain ⟨event, hevent, hparse⟩ := List.mem_filterMap.1 hparsed
      exact hr.values event (hevents event hevent) k v (lookup_parsed hparse hv')
  · intro k v hv
    rcases hmerged.last k v hv with hold | ⟨-, parsed, hparsed, hclient, hv'⟩
    · exact .inl hold
    · obtain ⟨event, hevent, hparse⟩ := List.mem_filterMap.1 hparsed
      rw [(parsed_coordinates hparse).2, clientId_eq_iff hc hr (hevents event hevent)] at hclient
      exact .inr ⟨event, hevents event hevent, hclient, lookup_parsed hparse hv'⟩
  · intro hinitialized htimer hcomposed
    rcases hbusy with hnew | ⟨p, hp, hfetching⟩
    · rw [hmerged.initialized, hnew] at hinitialized
      cases hinitialized
    · rw [hcomposed p hp] at hfetching
      cases hfetching

theorem sound_heard (hr : acc.RelaySound r) {parsed : ReadStateEvent}
    (hevent : event ∈ r.published)
    (hparse : parseReadStateEvent event = some parsed)
    (hheard : Heard parsed c.manager m) :
    acc.Sound i { c with manager := m, seen := event.id :: c.seen } r := by
  have hvalues : ∀ k v, m.effectiveState.lookup k = some v → ValidEntry k v := by
    intro k v hv
    rcases hheard.absorbs.sub k v hv with hold | hnew
    · exact hc.values k v hold
    · exact hr.values event hevent k v (lookup_parsed hparse (HMap.mem_entries_iff.1 hnew))
  have hbacked : ∀ k v, event.blob.contexts.lookup k = some v → m.Backed k v := by
    intro k v hv
    obtain ⟨parsed', hparse', hsame⟩ := parse_of_readable (hr.readable event hevent)
    obtain rfl : parsed = parsed' := Option.some.inj (hparse.symm.trans hparse')
    rw [← hsame] at hv
    exact ⟨hheard.ids k v hv, (hr.values event hevent k v (hsame k ▸ hv)).pos,
      hheard.absorbs.hears ⟨k, v⟩ (HMap.mem_entries_iff.2 hv)⟩
  refine hc.reading ⟨hheard.absorbs.grows, rfl, hheard.clientId, hheard.slotId, hheard.extraSlotIds,
    hheard.maxFetchedCreatedAt, ?_, hvalues, ?_, ?_, ?_⟩
  · rw [hheard.recentlyPublishedIds]
    exact List.Subset.refl _
  · intro k v hv
    rw [hheard.lastPublishedContexts] at hv
    exact .inl hv
  · intro id hid
    rcases List.mem_cons.1 hid with rfl | hid
    · exact .inr ⟨event, hevent, rfl, hbacked⟩
    · exact .inl hid
  · intro hinitialized htimer hcomposed k v hk hv
    have hnotimer : ¬ m.debounceTimer = true := Bool.eq_false_iff.1 htimer
    rw [hheard.debounceTimer, not_or, not_and_or, not_not] at hnotimer
    obtain ⟨hold, hnothing⟩ := hnotimer
    -- Nothing changed: it was no news, or the client's own.
    have hnochange : ∀ key, ¬ Changes c.manager m key := by
      rcases hnothing with hnone | hown
      · exact fun key hchange => hnone ⟨key, hchange⟩
      · rw [(parsed_coordinates hparse).2, clientId_eq_iff hc hr hevent] at hown
        have hentries := (hc.own event hevent hown).2
        rintro key (hless | ⟨hnew, hadded⟩)
        · have hv' := HMap.mem_entries_iff.1 (hheard.absorbs.mem_of_lt hless)
          have hle := (hentries _ _ (lookup_parsed hparse hv')).backed.le
          omega
        · obtain ⟨e, he, rfl⟩ := (hheard.absorbs.idsSub _ hadded).resolve_left hnew
          have hv' := lookup_parsed hparse (HMap.mem_entries_iff.1 he)
          exact hnew (hentries _ _ hv').backed.ids
    refine hc.quiet (hheard.initialized ▸ hinitialized) (Bool.eq_false_iff.2 hold) hcomposed k v hk
      (publishable_of_same (fun key => ?_) (fun key hkey => ?_) hheard.absorbs.grows
        (hvalues k v (lookup_publishable.1 hv).1).pos hv)
    · exact Nat.not_lt.1 fun hless => hnochange key (.inl hless)
    · exact Decidable.byContradiction fun hnew => hnochange key (.inr ⟨hnew, hkey⟩)

/-- The echo of an event of its own tells a client nothing. -/
theorem sound_echoed (hr : acc.RelaySound r) (hevent : event ∈ r.published)
    (hecho : event.id ∈ c.manager.recentlyPublishedIds) :
    acc.Sound i
      { c with
        manager := { c.manager with
          recentlyPublishedIds := c.manager.recentlyPublishedIds.erase event.id }
        seen := event.id :: c.seen } r := by
  obtain ⟨event', hevent', heq, howner⟩ := hc.recent event.id hecho
  obtain rfl : event' = event := List.inj_on_of_nodup_map hr.ids hevent' hevent heq
  refine hc.reading ⟨⟨fun _ => Nat.le_refl _, List.Subset.refl _⟩, rfl, rfl, rfl, rfl,
    Nat.le_refl _, List.erase_subset, hc.values, fun _ _ hv => .inl hv, fun id hid => ?_, hc.quiet⟩
  rcases List.mem_cons.1 hid with rfl | hid
  · refine .inr ⟨event', hevent, rfl, fun k v hv => ?_⟩
    have hbacked := ((hc.own event' hevent howner).2 k v hv).backed
    exact ⟨hbacked.ids, hbacked.pos, hbacked.le⟩
  · exact .inl hid

end

end Account

end Buzz.Desktop
