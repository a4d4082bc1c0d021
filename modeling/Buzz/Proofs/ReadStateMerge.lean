import Buzz.Proofs.ReadStateBudget

/-!
# What a manager takes over

Marks and merges only ever raise the timestamps of a manager and add to what it may
publish. The two loops over the contexts of an event differ in what becomes publishable
by them, and in whether they say that something changed.
-/

namespace Buzz.Desktop

open Buzz.Lib

namespace Manager

variable {m m' m'' : Manager} {key : ContextId} {value : Nat}
  {entries : List ((_ : ContextId) × Nat)}

/-- The timestamp of a context; `0` if it was never read. -/
def read (m : Manager) (key : ContextId) : Nat := (m.effectiveState.lookup key).getD 0

theorem read_of_lookup (h : m.effectiveState.lookup key = some value) : m.read key = value := by
  unfold read
  rw [h, Option.getD_some]

theorem lookup_of_read (h : 0 < m.read key) :
    m.effectiveState.lookup key = some (m.read key) := by
  unfold read at h ⊢
  cases hlookup : m.effectiveState.lookup key with
  | none =>
      rw [hlookup] at h
      cases h
  | some v => rfl

/-- The fields that no merge of contexts touches; the newest time seen goes up. -/
structure Keeps (m m' : Manager) : Prop where
  clientId : m'.clientId = m.clientId
  slotId : m'.slotId = m.slotId
  extraSlotIds : m'.extraSlotIds = m.extraSlotIds
  lastPublishedContexts : m'.lastPublishedContexts = m.lastPublishedContexts
  debounceTimer : m'.debounceTimer = m.debounceTimer
  initialized : m'.initialized = m.initialized
  recentlyPublishedIds : m'.recentlyPublishedIds = m.recentlyPublishedIds
  maxFetchedCreatedAt : m.maxFetchedCreatedAt ≤ m'.maxFetchedCreatedAt

theorem Keeps.refl (m : Manager) : Keeps m m :=
  ⟨rfl, rfl, rfl, rfl, rfl, rfl, rfl, Nat.le_refl _⟩

theorem Keeps.trans (h : Keeps m m') (h' : Keeps m' m'') : Keeps m m'' :=
  ⟨h'.1.trans h.1, h'.2.trans h.2, h'.3.trans h.3, h'.4.trans h.4, h'.5.trans h.5,
    h'.6.trans h.6, h'.7.trans h.7, h.8.trans h'.8⟩

/-- The manager has taken over a list of timestamps, as far as they were news. -/
structure Absorbs (entries : List ((_ : ContextId) × Nat)) (m m' : Manager) : Prop where
  le : ∀ key, m.read key ≤ m'.read key
  hears : ∀ e ∈ entries, e.2 ≤ m'.read e.1
  sub : ∀ key value, m'.effectiveState.lookup key = some value →
    m.effectiveState.lookup key = some value ∨ ⟨key, value⟩ ∈ entries
  ids : m.publishableContextIds ⊆ m'.publishableContextIds
  idsSub : ∀ key ∈ m'.publishableContextIds,
    key ∈ m.publishableContextIds ∨ ∃ e ∈ entries, e.1 = key
  same : (∀ e ∈ entries, e.2 ≤ m.read e.1) → m'.effectiveState = m.effectiveState

theorem Absorbs.refl (m : Manager) : Absorbs [] m m :=
  ⟨fun _ => Nat.le_refl _, nofun, fun _ _ h => .inl h, List.Subset.refl _, fun _ h => .inl h,
    fun _ => rfl⟩

theorem read_congr (h : m'.effectiveState = m.effectiveState) (key : ContextId) :
    m'.read key = m.read key := by
  unfold read
  rw [h]

theorem Absorbs.trans {entries' : List ((_ : ContextId) × Nat)} (h : Absorbs entries m m')
    (h' : Absorbs entries' m' m'') : Absorbs (entries ++ entries') m m'' where
  le key := (h.le key).trans (h'.le key)
  hears e he := by
    rcases List.mem_append.1 he with he | he
    · exact (h.hears e he).trans (h'.le e.1)
    · exact h'.hears e he
  sub key value hv := by
    rcases h'.sub key value hv with hv | he
    · exact (h.sub key value hv).imp_right (List.mem_append_left _)
    · exact .inr (List.mem_append_right _ he)
  ids := List.Subset.trans h.ids h'.ids
  idsSub key hkey := by
    rcases h'.idsSub key hkey with hkey | ⟨e, he, rfl⟩
    · refine (h.idsSub key hkey).imp_right ?_
      rintro ⟨e, he, rfl⟩
      exact ⟨e, List.mem_append_left _ he, rfl⟩
    · exact .inr ⟨e, List.mem_append_right _ he, rfl⟩
  same hold := by
    have hfirst := h.same fun e he => hold e (List.mem_append_left _ he)
    refine (h'.same fun e he => ?_).trans hfirst
    rw [read_congr hfirst]
    exact hold e (List.mem_append_right _ he)

/-- What is heard may be said once more, or more of it. -/
theorem Absorbs.mono {entries' : List ((_ : ContextId) × Nat)} (h : Absorbs entries m m')
    (hsub : entries ⊆ entries') (hears : ∀ e ∈ entries', e.2 ≤ m'.read e.1) :
    Absorbs entries' m m' :=
  { h with
    hears
    sub := fun key value hv => (h.sub key value hv).imp_right fun he => hsub he
    idsSub := fun key hkey => (h.idsSub key hkey).imp_right fun ⟨e, he, heq⟩ => ⟨e, hsub he, heq⟩
    same := fun hold => h.same fun e he => hold e (hsub he) }

/-- It is about the timestamps and what may be published, and about no other field. -/
theorem Absorbs.congr {m₁ m₁' : Manager} (h : Absorbs entries m m')
    (hold : m₁.effectiveState = m.effectiveState)
    (hids : m₁.publishableContextIds = m.publishableContextIds)
    (hnew : m₁'.effectiveState = m'.effectiveState)
    (hids' : m₁'.publishableContextIds = m'.publishableContextIds) : Absorbs entries m₁ m₁' := by
  have hread := read_congr hold
  have hread' := read_congr hnew
  refine ⟨fun k => ?_, fun e he => ?_, fun k v hv => ?_, ?_, fun k hk => ?_, fun hall => ?_⟩
  · rw [hread, hread']
    exact h.le k
  · rw [hread']
    exact h.hears e he
  · rw [hold]
    exact h.sub k v (hnew ▸ hv)
  · rw [hids, hids']
    exact h.ids
  · rw [hids]
    exact h.idsSub k (hids' ▸ hk)
  · rw [hold, hnew]
    exact h.same fun e he => hread e.1 ▸ hall e he

/-! ## One context -/

theorem applyRemote_advanced (m : Manager) (key : ContextId) (timestamp eventCreatedAt : Nat) :
    (m.applyRemoteContextTimestamp key timestamp eventCreatedAt).2 = true ↔
      m.read key < timestamp := by
  show decide (max (m.read key) timestamp ≠ m.read key) = true ↔ _
  rw [decide_eq_true_eq]
  omega

theorem applyRemote_keeps (m : Manager) (key : ContextId) (timestamp eventCreatedAt : Nat) :
    Keeps m (m.applyRemoteContextTimestamp key timestamp eventCreatedAt).1 ∧
      (m.applyRemoteContextTimestamp key timestamp eventCreatedAt).1.publishableContextIds =
        m.publishableContextIds :=
  ⟨⟨rfl, rfl, rfl, rfl, rfl, rfl, rfl, Nat.le_refl _⟩, rfl⟩

theorem applyRemote_absorbs (m : Manager) (key : ContextId) (timestamp eventCreatedAt : Nat) :
    Absorbs [⟨key, timestamp⟩] m
      (m.applyRemoteContextTimestamp key timestamp eventCreatedAt).1 := by
  have hread : ∀ k, (m.applyRemoteContextTimestamp key timestamp eventCreatedAt).1.read k =
      if k = key then max (m.read key) timestamp else m.read k := by
    intro k
    unfold applyRemoteContextTimestamp
    by_cases hadvanced : max (m.read key) timestamp ≠ m.read key
    · show ((if decide (max (m.read key) timestamp ≠ m.read key) = true then
        m.effectiveState.put key (max (m.read key) timestamp) else m.effectiveState).lookup k).getD
          0 = _
      rw [if_pos (decide_eq_true hadvanced), HMap.lookup_put]
      split <;> rfl
    · show ((if decide (max (m.read key) timestamp ≠ m.read key) = true then
        m.effectiveState.put key (max (m.read key) timestamp) else m.effectiveState).lookup k).getD
          0 = _
      rw [if_neg fun h => hadvanced (of_decide_eq_true h)]
      rw [not_ne_iff] at hadvanced
      split
      · next heq => rw [hadvanced, heq]; rfl
      · rfl
  refine ⟨fun k => ?_, fun e he => ?_, fun k v hv => ?_, List.Subset.refl _, fun k hk => .inl hk,
    fun hold => ?_⟩
  · rw [hread]
    split
    · next heq => rw [heq]; omega
    · exact Nat.le_refl _
  · rw [List.mem_singleton.1 he, hread, if_pos rfl]
    exact Nat.le_max_right _ _
  · change (if decide (max (m.read key) timestamp ≠ m.read key) = true then
      m.effectiveState.put key (max (m.read key) timestamp) else m.effectiveState).lookup k =
        some v at hv
    split at hv
    · next hadvanced =>
        rw [HMap.lookup_put] at hv
        split at hv
        · next heq =>
            -- It advanced, so the maximum is what was heard.
            have hmax := of_decide_eq_true hadvanced
            right
            rw [List.mem_singleton, heq, ← Option.some.inj hv, Nat.max_eq_right (by omega)]
        · exact .inl hv
    · exact .inl hv
  · show (if decide (max (m.read key) timestamp ≠ m.read key) = true then
      m.effectiveState.put key (max (m.read key) timestamp) else m.effectiveState) = _
    have hle : timestamp ≤ m.read key := hold ⟨key, timestamp⟩ (List.mem_singleton_self _)
    rw [if_neg]
    rw [decide_eq_true_eq, not_ne_iff]
    exact Nat.max_eq_left hle

/-! ## The loops -/

theorem mergeContext_spec (eventCreatedAt : Nat) (m : Manager) (e : (_ : ContextId) × Nat) :
    Absorbs [e] m (m.mergeContext eventCreatedAt e) ∧
      Keeps m (m.mergeContext eventCreatedAt e) := by
  have habsorbs : Absorbs [e] m (m.applyRemoteContextTimestamp e.1 e.2 eventCreatedAt).1 :=
    applyRemote_absorbs m e.1 e.2 eventCreatedAt
  have hkeeps := (applyRemote_keeps m e.1 e.2 eventCreatedAt).1
  unfold mergeContext
  dsimp only
  split
  · refine ⟨⟨habsorbs.le, habsorbs.hears, habsorbs.sub, ?_, ?_, habsorbs.same⟩,
      ⟨hkeeps.1, hkeeps.2, hkeeps.3, hkeeps.4, hkeeps.5, hkeeps.6, hkeeps.7, hkeeps.8⟩⟩
    · exact fun k hk => mem_pushNew.2 (.inl hk)
    · intro k hk
      rcases mem_pushNew.1 hk with hk | rfl
      · exact .inl hk
      · exact .inr ⟨e, List.mem_singleton_self _, rfl⟩
  · exact ⟨habsorbs, hkeeps⟩

/-- A timestamp that was raised is one that was heard. -/
theorem Absorbs.mem_of_lt (h : Absorbs entries m m') (hlt : m.read key < m'.read key) :
    ⟨key, m'.read key⟩ ∈ entries := by
  have hpos : 0 < m'.read key := Nat.zero_lt_of_lt hlt
  rcases h.sub key _ (lookup_of_read hpos) with hold | hmem
  · rw [← read_of_lookup hold] at hlt
    omega
  · exact hmem

theorem foldl_mergeContext_spec (eventCreatedAt : Nat) (entries : List ((_ : ContextId) × Nat))
    (m : Manager) :
    Absorbs entries m (entries.foldl (mergeContext eventCreatedAt) m) ∧
      Keeps m (entries.foldl (mergeContext eventCreatedAt) m) := by
  induction entries generalizing m with
  | nil => exact ⟨.refl m, .refl m⟩
  | cons e entries ih =>
      obtain ⟨hfirst, hkeeps⟩ := mergeContext_spec eventCreatedAt m e
      obtain ⟨hrest, hkeeps'⟩ := ih (m.mergeContext eventCreatedAt e)
      exact ⟨hfirst.trans hrest, hkeeps.trans hkeeps'⟩

/-- A context the loop over an incoming event changes: its timestamp, or that it may be
published. -/
def Changes (m m' : Manager) (key : ContextId) : Prop :=
  m.read key < m'.read key ∨ (key ∉ m.publishableContextIds ∧ key ∈ m'.publishableContextIds)

/-- One context of an incoming event. -/
theorem incomingContext_spec (eventCreatedAt : Nat) (state : Manager × Bool)
    (e : (_ : ContextId) × Nat) :
    Absorbs [e] state.1 (incomingContext eventCreatedAt state e).1 ∧
      Keeps state.1 (incomingContext eventCreatedAt state e).1 ∧
      e.1 ∈ (incomingContext eventCreatedAt state e).1.publishableContextIds ∧
      ((incomingContext eventCreatedAt state e).2 = true ↔ state.2 = true ∨
        state.1.read e.1 < e.2 ∨ e.1 ∉ state.1.publishableContextIds) := by
  obtain ⟨m, flag⟩ := state
  have habsorbs : Absorbs [e] m (m.applyRemoteContextTimestamp e.1 e.2 eventCreatedAt).1 :=
    applyRemote_absorbs m e.1 e.2 eventCreatedAt
  obtain ⟨hkeeps, hids⟩ := applyRemote_keeps m e.1 e.2 eventCreatedAt
  have hadvanced := applyRemote_advanced m e.1 e.2 eventCreatedAt
  -- What is noted for the listeners does not matter here.
  obtain ⟨m₁, hm₁, habsorbs₁, hkeeps₁, hids₁⟩ : ∃ m₁ : Manager,
      (if (m.applyRemoteContextTimestamp e.1 e.2 eventCreatedAt).2 = true then
        { (m.applyRemoteContextTimestamp e.1 e.2 eventCreatedAt).1 with
          pendingSyncedAdvances := pushNew (m.applyRemoteContextTimestamp e.1 e.2
            eventCreatedAt).1.pendingSyncedAdvances e.1 }
        else (m.applyRemoteContextTimestamp e.1 e.2 eventCreatedAt).1) = m₁ ∧
      Absorbs [e] m m₁ ∧ Keeps m m₁ ∧ m₁.publishableContextIds = m.publishableContextIds := by
    refine ⟨_, rfl, ?_⟩
    split
    · exact ⟨habsorbs.congr rfl rfl rfl rfl,
        ⟨hkeeps.1, hkeeps.2, hkeeps.3, hkeeps.4, hkeeps.5, hkeeps.6, hkeeps.7, hkeeps.8⟩, hids⟩
    · exact ⟨habsorbs, hkeeps, hids⟩
  unfold incomingContext
  dsimp only
  rw [hm₁, hids₁]
  split
  · next hmem =>
      refine ⟨habsorbs₁, hkeeps₁, hids₁ ▸ hmem, ?_⟩
      rw [Bool.or_eq_true, hadvanced]
      exact or_congr_right ⟨.inl, fun h => h.resolve_right (not_not_intro hmem)⟩
  · next hmem =>
      refine ⟨⟨habsorbs₁.le, habsorbs₁.hears, habsorbs₁.sub, ?_, ?_, habsorbs₁.same⟩,
        ⟨hkeeps₁.1, hkeeps₁.2, hkeeps₁.3, hkeeps₁.4, hkeeps₁.5, hkeeps₁.6, hkeeps₁.7, hkeeps₁.8⟩,
        ?_, ?_⟩
      · exact fun k hk => List.mem_append_left _ hk
      · intro k hk
        rcases List.mem_append.1 hk with hk | hk
        · exact .inl hk
        · exact .inr ⟨e, List.mem_singleton_self _, (List.mem_singleton.1 hk).symm⟩
      · exact List.mem_append_right _ (List.mem_singleton_self _)
      · exact ⟨fun _ => .inr (.inr hmem), fun _ => rfl⟩

theorem foldl_incomingContext_spec (eventCreatedAt : Nat)
    (entries : List ((_ : ContextId) × Nat)) (state : Manager × Bool) :
    let state' := entries.foldl (incomingContext eventCreatedAt) state
    Absorbs entries state.1 state'.1 ∧ Keeps state.1 state'.1 ∧
      (∀ e ∈ entries, e.1 ∈ state'.1.publishableContextIds) ∧
      (state'.2 = true ↔ state.2 = true ∨ ∃ e ∈ entries, Changes state.1 state'.1 e.1) := by
  induction entries generalizing state with
  | nil =>
      refine ⟨.refl _, .refl _, nofun, ?_⟩
      simp
  | cons e entries ih =>
      obtain ⟨hfirst, hkeeps, hmem, hflag⟩ :=
        incomingContext_spec eventCreatedAt state e
      obtain ⟨hrest, hkeeps', hmem', hflag'⟩ := ih (incomingContext eventCreatedAt state e)
      rw [List.foldl_cons]
      refine ⟨hfirst.trans hrest, hkeeps.trans hkeeps', ?_, ?_⟩
      · intro e' he'
        rcases List.mem_cons.1 he' with rfl | he'
        · exact hrest.ids hmem
        · exact hmem' e' he'
      · rw [hflag', hflag, or_assoc]
        refine or_congr_right ?_
        constructor
        · rintro ((hless | hnew) | ⟨e', he', hchange⟩)
          · refine ⟨e, List.mem_cons_self, .inl (hless.trans_le ?_)⟩
            exact (hfirst.trans hrest).hears e List.mem_cons_self
          · exact ⟨e, List.mem_cons_self, .inr ⟨hnew, hrest.ids hmem⟩⟩
          · refine ⟨e', List.mem_cons_of_mem _ he', ?_⟩
            rcases hchange with hless | ⟨hnew, hadded⟩
            · exact .inl ((hfirst.le e'.1).trans_lt hless)
            · exact .inr ⟨fun h => hnew (hfirst.ids h), hadded⟩
        · rintro ⟨e', he', hchange⟩
          by_cases hnow : state.1.read e.1 < e.2 ∨ e.1 ∉ state.1.publishableContextIds
          · exact .inl hnow
          · -- The first context changed nothing, so it was a later one.
            right
            rw [not_or, Nat.not_lt, not_not] at hnow
            have hsame : ∀ k,
                (incomingContext eventCreatedAt state e).1.read k = state.1.read k := by
              intro k
              refine Nat.le_antisymm (Nat.not_lt.1 fun hlt => ?_) (hfirst.le k)
              have heq := List.mem_singleton.1 (hfirst.mem_of_lt hlt)
              have hvalue := congrArg (fun e : (_ : ContextId) × Nat => e.2) heq
              obtain rfl : k = e.1 := congrArg Sigma.fst heq
              dsimp only at hvalue
              omega
            rcases hchange with hless | ⟨hnew, hadded⟩
            · rw [← hsame] at hless
              exact ⟨_, hrest.mem_of_lt hless, .inl hless⟩
            · have hstill :
                  e'.1 ∉ (incomingContext eventCreatedAt state e).1.publishableContextIds := by
                intro hin
                rcases hfirst.idsSub _ hin with hin | ⟨e₁, he₁, heq⟩
                · exact hnew hin
                · rw [List.mem_singleton.1 he₁] at heq
                  exact hnew (heq ▸ hnow.2)
              obtain ⟨e₂, he₂, heq⟩ := (hrest.idsSub _ hadded).resolve_left hstill
              exact ⟨e₂, he₂, heq ▸ .inr ⟨hstill, hadded⟩⟩

/-! ## Marks -/

/-- A manager after a mark: something is new and to be published, or all is as it was. -/
structure Marked (key : ContextId) (timestamp : Nat) (m m' : Manager) : Prop where
  absorbs : Absorbs [⟨key, timestamp⟩] m m'
  ids : key ∈ m'.publishableContextIds
  clientId : m'.clientId = m.clientId
  slotId : m'.slotId = m.slotId
  extraSlotIds : m'.extraSlotIds = m.extraSlotIds
  lastPublishedContexts : m'.lastPublishedContexts = m.lastPublishedContexts
  initialized : m'.initialized = m.initialized
  recentlyPublishedIds : m'.recentlyPublishedIds = m.recentlyPublishedIds
  maxFetchedCreatedAt : m'.maxFetchedCreatedAt = m.maxFetchedCreatedAt
  debounceTimer : m'.debounceTimer = true ∨ (m'.effectiveState = m.effectiveState ∧
    m'.publishableContextIds = m.publishableContextIds ∧ m'.debounceTimer = m.debounceTimer)

theorem advanceContext_spec (m : Manager) (key : ContextId) (timestamp : Nat) :
    Marked key timestamp m (m.advanceContext key timestamp) := by
  unfold advanceContext
  dsimp only
  split
  · next hle =>
      have hhears : ∀ e ∈ [(⟨key, timestamp⟩ : (_ : ContextId) × Nat)], e.2 ≤ m.read e.1 := by
        intro e he
        rw [List.mem_singleton.1 he]
        exact hle
      split
      · next hmem =>
          exact ⟨⟨fun _ => Nat.le_refl _, hhears, fun _ _ h => .inl h, List.Subset.refl _,
            fun _ h => .inl h, fun _ => rfl⟩, hmem, rfl, rfl, rfl, rfl, rfl, rfl, rfl,
            .inr ⟨rfl, rfl, rfl⟩⟩
      · refine ⟨⟨fun _ => Nat.le_refl _, hhears, fun _ _ h => .inl h,
          List.subset_append_left _ _, fun k hk => ?_, fun _ => rfl⟩,
          List.mem_append_right _ (List.mem_singleton_self _), rfl, rfl, rfl, rfl, rfl, rfl, rfl,
          .inl rfl⟩
        rcases List.mem_append.1 hk with hk | hk
        · exact .inl hk
        · exact .inr ⟨_, List.mem_singleton_self _, (List.mem_singleton.1 hk).symm⟩
  · next hlt =>
      have hread : ∀ k, ((m.effectiveState.put key timestamp).lookup k).getD 0 =
          if k = key then timestamp else m.read k := by
        intro k
        rw [HMap.lookup_put]
        split <;> rfl
      refine ⟨⟨fun k => ?_, fun e he => ?_, fun k v hv => ?_, fun k hk => mem_pushNew.2 (.inl hk),
        fun k hk => ?_, fun hold => ?_⟩, mem_pushNew.2 (.inr rfl), rfl, rfl, rfl, rfl, rfl, rfl,
        rfl, .inl rfl⟩
      · show m.read k ≤ ((m.effectiveState.put key timestamp).lookup k).getD 0
        rw [hread]
        split
        · next heq => exact heq ▸ Nat.le_of_not_le hlt
        · exact Nat.le_refl _
      · rw [List.mem_singleton.1 he]
        show timestamp ≤ ((m.effectiveState.put key timestamp).lookup key).getD 0
        rw [hread, if_pos rfl]
      · change (m.effectiveState.put key timestamp).lookup k = some v at hv
        rw [HMap.lookup_put] at hv
        split at hv
        · next heq =>
            rw [heq, ← Option.some.inj hv]
            exact .inr (List.mem_singleton_self _)
        · exact .inl hv
      · rcases mem_pushNew.1 hk with hk | rfl
        · exact .inl hk
        · exact .inr ⟨_, List.mem_singleton_self _, rfl⟩
      · exact absurd (hold _ (List.mem_singleton_self _)) hlt

theorem markContextRead_spec (m : Manager) (key : ContextId) (timestamp now : Nat) :
    Marked key timestamp m (m.markContextRead key timestamp now) := by
  have h := advanceContext_spec m key timestamp
  exact ⟨h.absorbs.congr rfl rfl rfl rfl, h.ids,
    h.clientId, h.slotId, h.extraSlotIds, h.lastPublishedContexts, h.initialized,
    h.recentlyPublishedIds, h.maxFetchedCreatedAt, h.debounceTimer⟩

/-! ## Events -/

theorem mergeEvent_spec (m : Manager) (parsed : ReadStateEvent) :
    Absorbs parsed.blob.contexts.entries m (m.mergeEvent parsed) ∧
      Keeps m (m.mergeEvent parsed) := by
  obtain ⟨h, hkeeps⟩ := foldl_mergeContext_spec parsed.createdAt
    parsed.blob.contexts.inOrder.entries
    { m with maxFetchedCreatedAt := max m.maxFetchedCreatedAt parsed.createdAt }
  have habsorbs : Absorbs parsed.blob.contexts.inOrder.entries m (m.mergeEvent parsed) :=
    h.congr rfl rfl rfl rfl
  refine ⟨habsorbs.mono (fun e he => mem_inOrder.1 he)
    (fun e he => h.hears e (mem_inOrder.2 he)), ?_⟩
  exact ⟨hkeeps.1, hkeeps.2, hkeeps.3, hkeeps.4, hkeeps.5, hkeeps.6, hkeeps.7,
    (Nat.le_max_left _ _).trans hkeeps.8⟩

/-- The entries of a list of events. -/
def entriesOf (events : List ReadStateEvent) : List ((_ : ContextId) × Nat) :=
  events.flatMap (·.blob.contexts.entries)

theorem mem_entriesOf {events : List ReadStateEvent} {e : (_ : ContextId) × Nat} :
    e ∈ entriesOf events ↔ ∃ event ∈ events, event.blob.contexts.lookup e.1 = some e.2 := by
  unfold entriesOf
  rw [List.mem_flatMap]
  refine exists_congr fun event => and_congr_right fun _ => ?_
  exact HMap.mem_entries_iff

theorem foldl_mergeEvent_spec (parsed : List ReadStateEvent) (m : Manager) :
    Absorbs (entriesOf parsed) m (parsed.foldl mergeEvent m) ∧
      Keeps m (parsed.foldl mergeEvent m) := by
  induction parsed generalizing m with
  | nil => exact ⟨.refl m, .refl m⟩
  | cons event parsed ih =>
      obtain ⟨hfirst, hkeeps⟩ := mergeEvent_spec m event
      obtain ⟨hrest, hkeeps'⟩ := ih (m.mergeEvent event)
      exact ⟨hfirst.trans hrest, hkeeps.trans hkeeps'⟩

theorem lookup_ownBlobsBySlot {clientId : List Char} {parsed : List ReadStateEvent}
    {slotId : SlotId} {event : ReadStateEvent}
    (h : (ownBlobsBySlot clientId parsed).lookup slotId = some event) :
    event ∈ parsed ∧ event.blob.clientId = clientId := by
  have hgen : ∀ (own : List ReadStateEvent) (blobs : HMap SlotId ReadStateEvent),
      (own.foldl (fun blobs event =>
        if (blobs.lookup event.slotId).any (event.createdAt ≤ ·.createdAt) then blobs
        else blobs.put event.slotId event) blobs).lookup slotId = some event →
      event ∈ own ∨ blobs.lookup slotId = some event := by
    intro own
    induction own with
    | nil => exact fun blobs h => .inr h
    | cons first own ih =>
        intro blobs h
        rcases ih _ h with hmem | hold
        · exact .inl (List.mem_cons_of_mem _ hmem)
        · dsimp only at hold
          split at hold
          · exact .inr hold
          · rw [HMap.lookup_put] at hold
            split at hold
            · exact .inl (List.mem_cons.2 (.inl (Option.some.inj hold).symm))
            · exact .inr hold
  rcases hgen _ _ h with hmem | hnone
  · rw [List.mem_filter, decide_eq_true_eq] at hmem
    exact hmem
  · cases hnone

/-- A manager after a fetch was merged. -/
structure Merged (parsed : List ReadStateEvent) (fresh : SlotId) (m m' : Manager) : Prop where
  absorbs : Absorbs (entriesOf parsed) m m'
  clientId : m'.clientId = m.clientId
  extraSlotIds : m'.extraSlotIds = m.extraSlotIds
  debounceTimer : m'.debounceTimer = m.debounceTimer
  initialized : m'.initialized = m.initialized
  recentlyPublishedIds : m'.recentlyPublishedIds = m.recentlyPublishedIds
  maxFetchedCreatedAt : m.maxFetchedCreatedAt ≤ m'.maxFetchedCreatedAt
  slotId : m'.slotId = m.slotId ∨
    (m'.slotId = fresh ∧ ∃ event ∈ parsed, event.slotId = m.slotId ∧
      event.blob.clientId ≠ m.clientId)
  last : ∀ key value, m'.lastPublishedContexts.lookup key = some value →
    m.lastPublishedContexts.lookup key = some value ∨
      (key ∈ m'.publishableContextIds ∧ ∃ event ∈ parsed, event.blob.clientId = m.clientId ∧
        event.blob.contexts.lookup key = some value)

theorem mergeEvents_spec (m : Manager) (events : List ReadStateEvent) (fresh : SlotId) :
    Merged (events.filterMap parseReadStateEvent) fresh m (m.mergeEvents events fresh) := by
  unfold mergeEvents
  dsimp only
  generalize events.filterMap parseReadStateEvent = parsed
  obtain ⟨habsorbs, hkeeps⟩ := foldl_mergeEvent_spec parsed m
  -- The slot may be given up.
  obtain ⟨m₁, hm₁, hslot⟩ : ∃ m₁ : Manager,
      (if (parsed.any fun event => event.slotId = m.slotId && event.blob.clientId ≠ m.clientId) =
          true then { parsed.foldl mergeEvent m with slotId := fresh }
        else parsed.foldl mergeEvent m) = m₁ ∧
      Merged parsed fresh m m₁ := by
    refine ⟨_, rfl, ?_⟩
    split
    · next hsquatted =>
        obtain ⟨event, hevent, hboth⟩ := List.any_eq_true.1 hsquatted
        rw [Bool.and_eq_true, decide_eq_true_eq, decide_eq_true_eq] at hboth
        exact ⟨habsorbs.congr rfl rfl rfl rfl,
          hkeeps.1, hkeeps.3, hkeeps.5, hkeeps.6, hkeeps.7, hkeeps.8,
          .inr ⟨rfl, event, hevent, hboth⟩, fun key value h => .inl (hkeeps.4 ▸ h)⟩
    · exact ⟨habsorbs, hkeeps.1, hkeeps.3, hkeeps.5, hkeeps.6, hkeeps.7, hkeeps.8,
        .inl hkeeps.2, fun key value h => .inl (hkeeps.4 ▸ h)⟩
  rw [hm₁]
  have hown : ∀ own ∈ (ownBlobsBySlot m.clientId parsed).entries.map
      (·.2.blob.contexts.inOrder), ∃ event ∈ parsed, event.blob.clientId = m.clientId ∧
        own = event.blob.contexts.inOrder := by
    intro own hmem
    obtain ⟨⟨slotId, event⟩, he, rfl⟩ := List.mem_map.1 hmem
    obtain ⟨hevent, hclient⟩ := lookup_ownBlobsBySlot (HMap.mem_entries_iff.1 he)
    exact ⟨event, hevent, hclient, rfl⟩
  generalize (ownBlobsBySlot m.clientId parsed).entries.map (·.2.blob.contexts.inOrder) = owns
    at hown
  split
  · exact hslot
  · refine ⟨⟨hslot.absorbs.le, hslot.absorbs.hears, hslot.absorbs.sub, ?_, ?_, hslot.absorbs.same⟩,
      hslot.clientId, hslot.extraSlotIds, hslot.debounceTimer, hslot.initialized,
      hslot.recentlyPublishedIds,
      hslot.maxFetchedCreatedAt, hslot.slotId, ?_⟩
    · exact fun k hk => mem_foldl_pushNew.2 (.inl (hslot.absorbs.ids hk))
    · intro k hk
      rcases mem_foldl_pushNew.1 hk with hk | hk
      · exact hslot.absorbs.idsSub k hk
      · obtain ⟨own, hmem, hkey⟩ := List.mem_flatMap.1 hk
        obtain ⟨event, hevent, -, rfl⟩ := hown own hmem
        rw [← AList.mem_keys, ← AList.lookup_isSome, lookup_inOrder, Option.isSome_iff_exists]
          at hkey
        obtain ⟨v, hv⟩ := hkey
        exact .inr ⟨⟨k, v⟩, mem_entriesOf.2 ⟨event, hevent, hv⟩, rfl⟩
    · intro k v hv
      obtain ⟨own, hmem, hv'⟩ := HMap.lookup_joinMax_mem hv
      obtain ⟨event, hevent, hclient, rfl⟩ := hown own hmem
      have hlookup := lookup_inOrder event.blob.contexts k
      refine .inr ⟨mem_foldl_pushNew.2 (.inr (List.mem_flatMap.2 ⟨_, hmem, ?_⟩)), event, hevent,
        hclient, hlookup ▸ hv'⟩
      rw [← AList.mem_keys, ← AList.lookup_isSome, hv']
      rfl

/-- A manager after an event of the subscription was merged. -/
structure Heard (parsed : ReadStateEvent) (m m' : Manager) : Prop where
  absorbs : Absorbs parsed.blob.contexts.entries m m'
  ids : ∀ key value, parsed.blob.contexts.lookup key = some value →
    key ∈ m'.publishableContextIds
  clientId : m'.clientId = m.clientId
  slotId : m'.slotId = m.slotId
  extraSlotIds : m'.extraSlotIds = m.extraSlotIds
  lastPublishedContexts : m'.lastPublishedContexts = m.lastPublishedContexts
  initialized : m'.initialized = m.initialized
  recentlyPublishedIds : m'.recentlyPublishedIds = m.recentlyPublishedIds
  maxFetchedCreatedAt : m.maxFetchedCreatedAt ≤ m'.maxFetchedCreatedAt
  debounceTimer : m'.debounceTimer = true ↔ m.debounceTimer = true ∨
    ((∃ key, Changes m m' key) ∧ parsed.blob.clientId ≠ m.clientId)

/-- An echo is dropped, a blob that cannot be read is ignored, others are merged. -/
theorem handleIncomingEvent_cases (m : Manager) (event : ReadStateEvent) :
    (event.id ∈ m.recentlyPublishedIds ∧ m.handleIncomingEvent event =
      { m with recentlyPublishedIds := m.recentlyPublishedIds.erase event.id }) ∨
    (parseReadStateEvent event = none ∧ m.handleIncomingEvent event = m) ∨
    (event.id ∉ m.recentlyPublishedIds ∧
      ∃ parsed, parseReadStateEvent event = some parsed ∧
        Heard parsed m (m.handleIncomingEvent event)) := by
  unfold handleIncomingEvent
  by_cases hecho : event.id ∈ m.recentlyPublishedIds
  · rw [if_pos hecho]
    exact .inl ⟨hecho, rfl⟩
  · rw [if_neg hecho]
    cases hparse : parseReadStateEvent event with
    | none => exact .inr (.inl ⟨rfl, rfl⟩)
    | some parsed =>
        refine .inr (.inr ⟨hecho, parsed, rfl, ?_⟩)
        dsimp only
        obtain ⟨habsorbs, hkeeps, hids, hflag⟩ := foldl_incomingContext_spec parsed.createdAt
          parsed.blob.contexts.inOrder.entries
          ({ m with maxFetchedCreatedAt := max m.maxFetchedCreatedAt parsed.createdAt }, false)
        generalize parsed.blob.contexts.inOrder.entries.foldl (incomingContext parsed.createdAt)
          ({ m with maxFetchedCreatedAt := max m.maxFetchedCreatedAt parsed.createdAt }, false) =
            state at habsorbs hkeeps hids hflag
        obtain ⟨m', anyAdvanced⟩ := state
        have hchanged : anyAdvanced = true ↔ ∃ key, Changes m m' key := by
          rw [hflag]
          constructor
          · rintro (hfalse | ⟨e, -, hchange⟩)
            · cases hfalse
            · exact ⟨e.1, hchange⟩
          · rintro ⟨key, hchange⟩
            right
            rcases hchange with hless | ⟨hnew, hadded⟩
            · exact ⟨_, habsorbs.mem_of_lt hless, .inl hless⟩
            · obtain ⟨e, he, rfl⟩ := (habsorbs.idsSub _ hadded).resolve_left hnew
              exact ⟨e, he, .inr ⟨hnew, hadded⟩⟩
        have hentries : Absorbs parsed.blob.contexts.entries m m' := by
          have hordered : Absorbs parsed.blob.contexts.inOrder.entries m m' :=
            habsorbs.congr rfl rfl rfl rfl
          exact hordered.mono (fun e he => mem_inOrder.1 he)
            fun e he => habsorbs.hears e (mem_inOrder.2 he)
        have hheard : ∀ key value, parsed.blob.contexts.lookup key = some value →
            key ∈ m'.publishableContextIds := fun key value hv =>
          hids ⟨key, value⟩ (mem_inOrder.2 (HMap.mem_entries_iff.2 hv))
        have hmax : m.maxFetchedCreatedAt ≤ m'.maxFetchedCreatedAt :=
          (Nat.le_max_left _ _).trans hkeeps.8
        split
        · next hboth =>
            rw [Bool.and_eq_true, hchanged, decide_eq_true_eq, hkeeps.1] at hboth
            exact ⟨hentries.congr rfl rfl rfl rfl,
              hheard, hkeeps.1, hkeeps.2, hkeeps.3, hkeeps.4, hkeeps.6, hkeeps.7, hmax,
              ⟨fun _ => .inr hboth, fun _ => rfl⟩⟩
        · next hnot =>
            rw [Bool.and_eq_true, hchanged, decide_eq_true_eq, hkeeps.1] at hnot
            refine ⟨hentries, hheard, hkeeps.1, hkeeps.2, hkeeps.3, hkeeps.4, hkeeps.6, hkeeps.7,
              hmax, ?_⟩
            rw [hkeeps.5]
            exact ⟨.inl, fun h => h.resolve_right hnot⟩

end Manager

end Buzz.Desktop
