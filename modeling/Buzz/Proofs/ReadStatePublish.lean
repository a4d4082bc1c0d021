import Buzz.Proofs.ReadStateMerge

/-!
# What a publish sends

Behind its fetch a publish either has nothing to say that the last one did not, or it
goes on with parts that together hold every channel that may be published. There are
too many of them only if not even all the slots have room. What is sent is accepted by
every reader as it is.
-/

namespace Buzz.Desktop

open Buzz.Lib

variable {m : Manager} {contexts : Contexts} {supply : List SlotId} {key : ContextId}
  {value : Nat}

namespace Manager

theorem lookup_publishable : m.publishable.lookup key = some value ↔
    m.effectiveState.lookup key = some value ∧ key ∈ m.publishableContextIds := by
  unfold publishable
  rw [HMap.lookup_retain, Option.filter_eq_some_iff, decide_eq_true_eq]

/-- Parts that a reader takes, of nothing but what may be published, and with every
channel of it. -/
structure Covers (m : Manager) (parts : List Contexts) : Prop where
  sub : ∀ part ∈ parts, ∀ key value, part.lookup key = some value →
    m.publishable.lookup key = some value
  fits : ∀ part ∈ parts, part.keys.length ≤ maxContexts
  holds : ∀ key value, isChannel key = true → m.publishable.lookup key = some value →
    ∃ part ∈ parts, part.lookup key = some value

theorem currentContexts_spec (h : m.currentContexts = some contexts) : m.Covers [contexts] := by
  unfold currentContexts at h
  dsimp only at h
  split at h
  · next hfits =>
      obtain rfl := Option.some.inj h
      refine ⟨?_, ?_, ?_⟩
      · intro part hpart k v hv
        rw [List.mem_singleton.1 hpart] at hv
        exact lookup_trim hv
      · intro part hpart
        rw [List.mem_singleton.1 hpart]
        exact length_keys_le (fits_of_fitsAfterTrim hfits)
      · intro k v hk hv
        refine ⟨_, List.mem_singleton_self _, ?_⟩
        rw [lookup_trim_channel hk]
        exact hv
  · cases h

/-- The slots after a split: those there were and `n` new ones, at most eight. -/
theorem splitContextsIntoSlots_spec {extraSlotIds : List SlotId}
    {slots : List (SlotId × Contexts)}
    (h : m.splitContextsIntoSlots supply = some (extraSlotIds, slots)) :
    ∃ n parts, extraSlotIds = m.extraSlotIds ++ supply.take n ∧
      slots = (m.slotId :: extraSlotIds).zip parts ∧ m.Covers parts ∧
      parts.length = 1 + m.extraSlotIds.length + n ∧
      1 + m.extraSlotIds.length + n ≤ max (1 + m.extraSlotIds.length) readStateMaxSlots := by
  have hlookup : ∀ (p : ContextId → Bool) (k : ContextId) (v : Nat),
      (m.publishable.retain fun key _ => p key).lookup k = some v ↔
        m.publishable.lookup k = some v ∧ p k = true := by
    intro p k v
    rw [HMap.lookup_retain, Option.filter_eq_some_iff]
  unfold splitContextsIntoSlots at h
  rw [Option.map_eq_some_iff] at h
  obtain ⟨parts, hparts, heq⟩ := h
  obtain ⟨rfl, rfl⟩ := Prod.mk.inj heq
  obtain ⟨hslotted, hleast, hmost⟩ := split_spec (Nat.succ_pos _)
    (fun k v hv => ((hlookup _ k v).1 hv).2)
    (fun k v hv => by simpa using ((hlookup (fun key => !isChannel key) k v).1 hv).2) hparts
  rw [List.length_cons]
  refine ⟨parts.length - (m.extraSlotIds.length + 1), parts, rfl, rfl, ⟨?_, ?_, ?_⟩, ?_, ?_⟩
  · intro part hpart k v hv
    rcases hslotted.sub part hpart k v hv with hv | hv
    · exact ((hlookup _ k v).1 hv).1
    · exact ((hlookup (fun key => !isChannel key) k v).1 hv).1
  · exact fun part hpart => length_keys_le (hslotted.fits part hpart)
  · exact fun k v hk hv => hslotted.holds k v ((hlookup _ k v).2 ⟨hv, hk⟩)
  · omega
  · omega

/-- The last publish already said all that is in the contexts. -/
theorem isIdentical_lookup (h : m.isIdenticalToLastPublished contexts = true)
    (hv : contexts.lookup key = some value) :
    m.lastPublishedContexts.lookup key = some value := by
  unfold isIdenticalToLastPublished at h
  rw [Bool.and_eq_true, List.all_eq_true] at h
  exact of_decide_eq_true (h.2 ⟨key, value⟩ (HMap.mem_entries_iff.2 hv))

/-- All that the parts say was said before, or more. -/
def Said (m : Manager) (parts : List Contexts) : Prop :=
  ∀ part ∈ parts, ∀ key value, part.lookup key = some value →
    ∃ w, m.lastPublishedContexts.lookup key = some w ∧ value ≤ w

theorem said_of_isIdentical (h : m.isIdenticalToLastPublished contexts = true) :
    m.Said [contexts] := by
  intro part hpart k v hv
  rw [List.mem_singleton.1 hpart] at hv
  exact ⟨v, isIdentical_lookup h hv, Nat.le_refl v⟩

theorem said_of_isIdentical_joinMax {parts : List Contexts}
    (h : m.isIdenticalToLastPublished (HMap.joinMax (parts.map Contexts.inOrder)) = true) :
    m.Said parts := by
  intro part hpart k v hv
  have hordered : part.inOrder.lookup k = some v := by rw [lookup_inOrder, hv]
  obtain ⟨w, hw, hle⟩ := HMap.lookup_joinMax_le (List.mem_map_of_mem hpart) hordered
  exact ⟨w, isIdentical_lookup h hw, hle⟩

/-- Whether the channels find room in one slot or in all of them. -/
def hasRoom (m : Manager) : Bool :=
  m.currentContexts.isSome || (m.splitContextsIntoSlots []).isSome

/-- How a publish goes on behind its fetch. -/
inductive Composes (m : Manager) (supply : List SlotId) : Manager × Option Publish → Prop
  | oversized (h : m.hasRoom = false) : Composes m supply (m, none)
  | unchanged (n : Nat) (parts : List Contexts) (hcovers : m.Covers parts)
      (hsaid : readStateMaxSlots ≤ supply.length → m.Said parts)
      (hn : 1 + m.extraSlotIds.length + n ≤ max (1 + m.extraSlotIds.length) readStateMaxSlots) :
      Composes m supply ({ m with extraSlotIds := m.extraSlotIds ++ supply.take n }, none)
  | deleting (contexts : Contexts) (hcovers : m.Covers [contexts]) (hextra : m.extraSlotIds ≠ []) :
      Composes m supply (m, some (.deleting m.extraSlotIds contexts))
  | single (contexts : Contexts) (hcovers : m.Covers [contexts]) :
      Composes m supply (m, some (.sending [(m.slotId, contexts)]))
  | split (n : Nat) (parts : List Contexts) (hcovers : m.Covers parts)
      (hlength : parts.length = 1 + m.extraSlotIds.length + n)
      (hn : 1 + m.extraSlotIds.length + n ≤ max (1 + m.extraSlotIds.length) readStateMaxSlots) :
      Composes m supply
        ({ m with
            extraSlotIds := m.extraSlotIds ++ supply.take n
            lastPublishedContexts := ∅ },
          some (.sending ((m.slotId :: (m.extraSlotIds ++ supply.take n)).zip parts)))

/-- With enough ids for the slots no part is left without one. -/
theorem length_slots {n : Nat} (hsupply : readStateMaxSlots ≤ supply.length)
    (hn : 1 + m.extraSlotIds.length + n ≤ max (1 + m.extraSlotIds.length) readStateMaxSlots) :
    (m.slotId :: (m.extraSlotIds ++ supply.take n)).length = 1 + m.extraSlotIds.length + n := by
  rw [List.length_cons, List.length_append, List.length_take]
  omega

theorem compose_spec (m : Manager) (supply : List SlotId) :
    Composes m supply (m.compose supply) := by
  unfold compose
  cases hcurrent : m.currentContexts with
  | some contexts =>
      have hcovers := currentContexts_spec hcurrent
      dsimp only
      split
      · next hextra => exact .deleting contexts hcovers hextra
      · split
        · next hsame =>
            have hnone : ({ m with extraSlotIds := m.extraSlotIds ++ supply.take 0 } : Manager) =
                m := by
              rw [List.take_zero, List.append_nil]
            have hunchanged : Composes m supply
                ({ m with extraSlotIds := m.extraSlotIds ++ supply.take 0 }, none) :=
              .unchanged 0 [contexts] hcovers (fun _ => said_of_isIdentical hsame)
                (Nat.le_max_left _ _)
            rw [hnone] at hunchanged
            exact hunchanged
        · exact .single contexts hcovers
  | none =>
      cases hsplit : m.splitContextsIntoSlots supply with
      | none =>
          refine .oversized ?_
          unfold hasRoom
          have hnone : m.splitContextsIntoSlots [] = none := by
            unfold splitContextsIntoSlots at hsplit ⊢
            rw [Option.map_eq_none_iff] at hsplit ⊢
            exact hsplit
          rw [hcurrent, hnone]
          rfl
      | some split =>
          obtain ⟨extraSlotIds, slots⟩ := split
          obtain ⟨n, parts, rfl, rfl, hcovers, hlength, hn⟩ := splitContextsIntoSlots_spec hsplit
          dsimp only
          split
          · next hsame =>
              refine .unchanged n parts hcovers (fun hsupply => ?_) hn
              have hsnd : ((m.slotId :: (m.extraSlotIds ++ supply.take n)).zip parts).map
                  (Contexts.inOrder ∘ Prod.snd) = parts.map Contexts.inOrder := by
                rw [← List.map_map, List.map_snd_zip]
                rw [length_slots hsupply hn, hlength]
              rw [show (fun slot : SlotId × Contexts => slot.2.inOrder) =
                Contexts.inOrder ∘ Prod.snd from rfl, hsnd] at hsame
              exact said_of_isIdentical_joinMax hsame
          · exact .split n parts hcovers hlength hn

theorem afterDeletion_cases (m : Manager) (contexts : Contexts) :
    (m.afterDeletion contexts).1 = { m with extraSlotIds := [], lastPublishedContexts := ∅ } ∧
      (((m.afterDeletion contexts).2 = none ∧ ∀ key, contexts.lookup key = none) ∨
        (m.afterDeletion contexts).2 = some (.sending [(m.slotId, contexts)])) := by
  unfold afterDeletion
  dsimp only
  split
  · next hsame =>
      refine ⟨rfl, .inl ⟨rfl, fun k => ?_⟩⟩
      rw [Option.eq_none_iff_forall_ne_some]
      intro v hv
      cases isIdentical_lookup hsame hv
  · exact ⟨rfl, .inr rfl⟩

/-- Either there is something to publish, or it was all said before. -/
theorem finishInitialize_cases (m : Manager) :
    m.finishInitialize = { m with debounceTimer := true, initialized := true } ∨
      (m.finishInitialize = { m with initialized := true } ∧
        ∃ contexts, m.Covers [contexts] ∧ m.Said [contexts]) := by
  unfold finishInitialize
  cases hcurrent : m.currentContexts with
  | none => exact .inl rfl
  | some contexts =>
      dsimp only
      split
      · next hsame =>
          exact .inr ⟨rfl, contexts, currentContexts_spec hcurrent, said_of_isIdentical hsame⟩
      · exact .inl rfl

theorem mem_rememberPublishedId {id old : EventId}
    (h : old ∈ (m.rememberPublishedId id).recentlyPublishedIds) :
    old ∈ m.recentlyPublishedIds ∨ old = id := by
  change old ∈ (if publishedIdMemory < (pushNew m.recentlyPublishedIds id).length then
    (pushNew m.recentlyPublishedIds id).tail else pushNew m.recentlyPublishedIds id) at h
  rw [← mem_pushNew]
  split at h
  · exact List.mem_of_mem_tail h
  · exact h

end Manager

/-! ## Readers -/

/-- A reader keeps all of the event. -/
structure Readable (event : ReadStateEvent) : Prop where
  slotId : isValidSlotId event.slotId = true
  blob : isValidBlob event.blob = true
  entries : ∀ key value, event.blob.contexts.lookup key = some value →
    utf8Length key.text ≤ 256 ∧ value ≤ 4294967295

theorem lookup_sanitizeContexts : (sanitizeContexts contexts).lookup key = some value ↔
    contexts.lookup key = some value ∧ utf8Length key.text ≤ 256 ∧ value ≤ 4294967295 := by
  unfold sanitizeContexts
  rw [HMap.lookup_retain, Option.filter_eq_some_iff, lookup_inOrder, Bool.and_eq_true,
    decide_eq_true_eq, decide_eq_true_eq]

theorem parse_of_readable {event : ReadStateEvent} (h : Readable event) :
    ∃ parsed, parseReadStateEvent event = some parsed ∧
      ∀ key, parsed.blob.contexts.lookup key = event.blob.contexts.lookup key := by
  unfold parseReadStateEvent
  rw [h.slotId, h.blob, Bool.and_self, if_pos rfl]
  refine ⟨_, rfl, fun k => Option.ext fun v => ?_⟩
  rw [lookup_sanitizeContexts]
  exact ⟨fun hv => hv.1, fun hv => ⟨hv, h.entries k v hv⟩⟩

theorem parsed_coordinates {event parsed : ReadStateEvent}
    (h : parseReadStateEvent event = some parsed) :
    parsed.slotId = event.slotId ∧ parsed.blob.clientId = event.blob.clientId := by
  unfold parseReadStateEvent at h
  split at h
  · obtain rfl := Option.some.inj h
    exact ⟨rfl, rfl⟩
  · cases h

/-- Whatever a reader makes of an event, it adds nothing. -/
theorem lookup_parsed {event parsed : ReadStateEvent}
    (h : parseReadStateEvent event = some parsed)
    (hv : parsed.blob.contexts.lookup key = some value) :
    event.blob.contexts.lookup key = some value := by
  unfold parseReadStateEvent at h
  split at h
  · obtain rfl := Option.some.inj h
    exact (lookup_sanitizeContexts.1 hv).1
  · cases h

/-! ## The publishes of a client -/

theorem mem_settlePublish {publishes : List Publish} {k : Nat} {next : Option Publish}
    {p : Publish} (hk : k < publishes.length) :
    p ∈ settlePublish publishes k next ↔ next = some p ∨ ∃ j, j ≠ k ∧ publishes[j]? = some p := by
  cases next with
  | none =>
      show p ∈ publishes.eraseIdx k ↔ _
      rw [List.mem_eraseIdx_iff_getElem?]
      exact ⟨.inr, fun h => h.resolve_left nofun⟩
  | some next =>
      show p ∈ publishes.set k next ↔ _
      rw [List.mem_iff_getElem?]
      constructor
      · rintro ⟨j, hj⟩
        rw [List.getElem?_set] at hj
        split at hj
        · exact .inl hj
        · next hne => exact .inr ⟨j, fun h => hne h.symm, hj⟩
      · rintro (hnext | ⟨j, hne, hj⟩)
        · refine ⟨k, ?_⟩
          rw [List.getElem?_set_self hk]
          exact hnext
        · refine ⟨j, ?_⟩
          rw [List.getElem?_set_ne fun h => hne h.symm]
          exact hj

end Buzz.Desktop
