import Buzz.Auth.DenyMap

/-!
# What the deny map's operations keep

Eviction is the one thing every write may do on the side, so it is told once:
`Trimmed` says that some expired state that no reservation names has gone and
the rest is as it was. The bounds are about sets of keys, not about the sums the
code compares: a `jti` or a target that is both stored and pending is one.
-/

namespace Buzz.Auth

open Buzz.Lib

namespace IssuerShard

variable {s s' s'' : IssuerShard} {now : Int} {jti : String} {key : PublicKey}

/-! ## Eviction -/

/-- What is left of a shard after the expired entries are taken out. -/
structure Trimmed (s s' : IssuerShard) (now : Int) : Prop where
  capacity : s'.capacity = s.capacity
  maxJtiCount : s'.maxJtiCount = s.maxJtiCount
  pendingJtis : s'.pendingJtis = s.pendingJtis
  pendingKeys : s'.pendingKeys = s.pendingKeys
  entries : ∀ k : PublicKey, s'.entries.lookup k = s.entries.lookup k ∨
    ∃ u, s.entries.lookup k = some u ∧ u ≤ now ∧ s.pendingKeys.lookup k = none ∧
      s'.entries.lookup k = none
  jtis : ∀ j : String, s'.jtis.lookup j = s.jtis.lookup j ∨
    ∃ u, s.jtis.lookup j = some u ∧ u ≤ now ∧ j ∉ s.pendingJtis ∧ s'.jtis.lookup j = none

theorem Trimmed.refl (s : IssuerShard) (now : Int) : Trimmed s s now :=
  ⟨rfl, rfl, rfl, rfl, fun _ => .inl rfl, fun _ => .inl rfl⟩

theorem Trimmed.trans (h : Trimmed s s' now) (h' : Trimmed s' s'' now) : Trimmed s s'' now where
  capacity := h'.capacity.trans h.capacity
  maxJtiCount := h'.maxJtiCount.trans h.maxJtiCount
  pendingJtis := h'.pendingJtis.trans h.pendingJtis
  pendingKeys := h'.pendingKeys.trans h.pendingKeys
  entries k := by
    rcases h'.entries k with heq | ⟨u, hu, hle, hfree, hgone⟩
    · rw [heq]
      exact h.entries k
    · rcases h.entries k with heq | ⟨_, _, _, _, hnone⟩
      · exact .inr ⟨u, heq ▸ hu, hle, h.pendingKeys ▸ hfree, hgone⟩
      · rw [hnone] at hu
        cases hu
  jtis j := by
    rcases h'.jtis j with heq | ⟨u, hu, hle, hfree, hgone⟩
    · rw [heq]
      exact h.jtis j
    · rcases h.jtis j with heq | ⟨_, _, _, _, hnone⟩
      · exact .inr ⟨u, heq ▸ hu, hle, h.pendingJtis ▸ hfree, hgone⟩
      · rw [hnone] at hu
        cases hu

theorem evictExpired_trimmed (s : IssuerShard) (now : Int) :
    Trimmed s (s.evictExpired now) now where
  capacity := rfl
  maxJtiCount := rfl
  pendingJtis := rfl
  pendingKeys := rfl
  entries k := by
    show (s.entries.retain _).lookup k = _ ∨ ∃ u, _ ∧ _ ∧ _ ∧ (s.entries.retain _).lookup k = _
    rw [HMap.lookup_retain]
    cases hk : s.entries.lookup k with
    | none => exact .inl rfl
    | some u =>
        by_cases hkeep : now < u ∨ (s.pendingKeys.lookup k).isSome
        · exact .inl (by simp [hkeep])
        · rw [not_or, not_lt, Option.not_isSome_iff_eq_none] at hkeep
          exact .inr ⟨u, rfl, hkeep.1, hkeep.2, by simp [hkeep]⟩
  jtis j := by
    show (s.jtis.retain _).lookup j = _ ∨ ∃ u, _ ∧ _ ∧ _ ∧ (s.jtis.retain _).lookup j = _
    rw [HMap.lookup_retain]
    cases hj : s.jtis.lookup j with
    | none => exact .inl rfl
    | some u =>
        by_cases hkeep : now < u ∨ j ∈ s.pendingJtis
        · exact .inl (by simp [hkeep])
        · rw [not_or, not_lt] at hkeep
          exact .inr ⟨u, rfl, hkeep.1, hkeep.2, by simp [hkeep]⟩

theorem fullAfterEviction_spec (s : IssuerShard) (now : Int) (full : IssuerShard → Bool) :
    Trimmed s (s.fullAfterEviction now full).1 now ∧
      (s.fullAfterEviction now full).2 = full (s.fullAfterEviction now full).1 := by
  unfold fullAfterEviction
  split
  · exact ⟨s.evictExpired_trimmed now, rfl⟩
  · next hfull => exact ⟨.refl s now, (Bool.not_eq_true _ ▸ hfull).symm⟩

/-- Trimming denies and admits as before, from its own time on. -/
theorem Trimmed.isDenied (h : Trimmed s s' now) {t : Int} (ht : now ≤ t)
    (key : PublicKey) : s'.isDenied key t = s.isDenied key t := by
  unfold IssuerShard.isDenied
  rcases h.entries key with heq | ⟨u, hu, hle, -, hgone⟩
  · rw [heq]
  · rw [hgone, hu]
    have hexpired : ¬ t < u := by omega
    simp [hexpired]

/-! ## Slots -/

/-- The targets that occupy a slot. -/
def entryKeys (s : IssuerShard) : Finset PublicKey := s.entries.keySet ∪ s.pendingKeys.keySet

/-- The `jti`s that occupy one. -/
def jtiKeys (s : IssuerShard) : Finset String := s.jtis.keySet ∪ s.pendingJtis

theorem entrySlots_eq (s : IssuerShard) : s.entrySlots = s.entryKeys.card := by
  have hnew : (s.pendingKeys.keySet \ s.entries.keySet).card =
      (s.pendingKeys.keys.filter fun k => !(s.entries.lookup k).isSome).length := by
    rw [← List.toFinset_card_of_nodup (s.pendingKeys.keys_nodup.filter _)]
    congr 1
    ext k
    rw [Finset.mem_sdiff, HMap.mem_keySet, HMap.mem_keySet, List.mem_toFinset,
      List.mem_filter, AList.lookup_isSome, AList.mem_keys]
    simp
  rw [entrySlots, entryKeys, ← hnew, ← HMap.card_keySet, ← Finset.union_sdiff_self_eq_union]
  exact (Finset.card_union_of_disjoint Finset.disjoint_sdiff).symm

theorem jtiKeys_card_le (s : IssuerShard) :
    s.jtiKeys.card ≤ s.jtis.keys.length + s.pendingJtis.card := by
  rw [← HMap.card_keySet]
  exact Finset.card_union_le _ _

theorem Trimmed.entryKeys_subset (h : Trimmed s s' now) : s'.entryKeys ⊆ s.entryKeys := by
  intro k hk
  rw [entryKeys, h.pendingKeys, Finset.mem_union] at hk
  rw [entryKeys, Finset.mem_union]
  refine hk.imp_left fun hstored => ?_
  rw [HMap.mem_keySet] at hstored ⊢
  rcases h.entries k with heq | ⟨u, hu, -⟩
  · rw [← heq]
    exact hstored
  · rw [hu]
    rfl

theorem Trimmed.jtiKeys_subset (h : Trimmed s s' now) : s'.jtiKeys ⊆ s.jtiKeys := by
  intro j hj
  rw [jtiKeys, h.pendingJtis, Finset.mem_union] at hj
  rw [jtiKeys, Finset.mem_union]
  refine hj.imp_left fun hstored => ?_
  rw [HMap.mem_keySet] at hstored ⊢
  rcases h.jtis j with heq | ⟨u, hu, -⟩
  · rw [← heq]
    exact hstored
  · rw [hu]
    rfl

/-- The budgets are kept. -/
structure Bounded (s : IssuerShard) : Prop where
  entries : s.entryKeys.card ≤ s.capacity
  jtis : s.jtiKeys.card ≤ s.maxJtiCount

theorem Trimmed.bounded (h : Trimmed s s' now) (hs : s.Bounded) : s'.Bounded where
  entries := by
    rw [h.capacity]
    exact (Finset.card_le_card h.entryKeys_subset).trans hs.entries
  jtis := by
    rw [h.maxJtiCount]
    exact (Finset.card_le_card h.jtiKeys_subset).trans hs.jtis

/-! ## Reserving -/

theorem reserveJti_spec (hs : s.Bounded) (jti : String) (now : Int) :
    Trimmed s (s.reserveJti jti now).1 now ∧
      ((s.reserveJti jti now).2 = none → jti ∉ s.pendingJtis ∧
        (insert jti (s.reserveJti jti now).1.jtiKeys).card ≤ s.maxJtiCount) := by
  unfold reserveJti
  split
  · exact ⟨.refl s now, fun h => by cases h⟩
  · next hfresh =>
      rw [not_or] at hfresh
      split
      · next hstored =>
          refine ⟨.refl s now, fun _ => ⟨hfresh.1, ?_⟩⟩
          rw [Finset.insert_eq_of_mem]
          · exact hs.jtis
          · rw [jtiKeys, Finset.mem_union, HMap.mem_keySet]
            exact .inl hstored
      · obtain ⟨htrim, hfull⟩ := s.fullAfterEviction_spec now jtisFull
        split
        · next s' heq =>
            rw [heq] at htrim
            exact ⟨htrim, fun h => by cases h⟩
        · next s' heq =>
            rw [heq] at htrim hfull
            refine ⟨htrim, fun _ => ⟨hfresh.1, ?_⟩⟩
            have hroom : s'.jtis.keys.length + s'.pendingJtis.card < s'.maxJtiCount := by
              simpa [jtisFull] using hfull.symm
            have hcard := s'.jtiKeys_card_le
            have hinsert := Finset.card_insert_le jti s'.jtiKeys
            have hmax := htrim.maxJtiCount
            dsimp only at hmax ⊢
            omega

theorem reserveEntry_spec (hs : s.Bounded) (key : PublicKey) (now : Int) :
    Trimmed s (s.reserveEntry key now).1 now ∧
      ((s.reserveEntry key now).2 = none →
        (insert key (s.reserveEntry key now).1.entryKeys).card ≤ s.capacity) := by
  unfold reserveEntry
  split
  · next hknown =>
      refine ⟨.refl s now, fun _ => ?_⟩
      rw [Finset.insert_eq_of_mem]
      · exact hs.entries
      · rw [entryKeys, Finset.mem_union, HMap.mem_keySet, HMap.mem_keySet]
        exact hknown
  · obtain ⟨htrim, hfull⟩ := s.fullAfterEviction_spec now entriesFull
    split
    · next s' heq =>
        rw [heq] at htrim
        exact ⟨htrim, fun h => by cases h⟩
    · next s' heq =>
        rw [heq] at htrim hfull
        refine ⟨htrim, fun _ => ?_⟩
        have hroom : s'.entrySlots < s'.capacity := by
          simpa [entriesFull] using hfull.symm
        rw [entrySlots_eq] at hroom
        have hinsert := Finset.card_insert_le key s'.entryKeys
        have hcap := htrim.capacity
        dsimp only at hcap ⊢
        omega

theorem hold_entryKeys (s : IssuerShard) (jti : String) (key : PublicKey) :
    (s.hold jti key).entryKeys = insert key s.entryKeys := by
  show s.entries.keySet ∪ HMap.keySet (s.pendingKeys.insert key _) = _
  rw [HMap.keySet_insert, Finset.union_insert]
  rfl

theorem hold_jtiKeys (s : IssuerShard) (jti : String) (key : PublicKey) :
    (s.hold jti key).jtiKeys = insert jti s.jtiKeys :=
  Finset.union_insert _ _ _

/-- What a reservation does: it trims, and if it is granted it holds a slot
that was free. -/
inductive Reserves (s : IssuerShard) (jti : String) (key : PublicKey) (now : Int) :
    IssuerShard × Option ReserveError → Prop where
  | refused {s' : IssuerShard} {e : ReserveError} (htrim : Trimmed s s' now) :
      Reserves s jti key now (s', some e)
  | granted {s' : IssuerShard} (htrim : Trimmed s s' now) (hfresh : jti ∉ s.pendingJtis)
      (hbounded : (s'.hold jti key).Bounded) :
      Reserves s jti key now (s'.hold jti key, none)

theorem reserve_spec (hs : s.Bounded) (jti : String) (key : PublicKey) (now : Int) :
    Reserves s jti key now (s.reserve jti key now) := by
  obtain ⟨htrim₁, hgranted₁⟩ := reserveJti_spec hs jti now
  unfold reserve
  split
  · next s₁ e heq =>
      rw [heq] at htrim₁
      exact .refused htrim₁
  · next s₁ heq =>
      rw [heq] at htrim₁ hgranted₁
      obtain ⟨hfresh, hjtis⟩ := hgranted₁ rfl
      obtain ⟨htrim₂, hgranted₂⟩ := reserveEntry_spec (htrim₁.bounded hs) key now
      split
      · next s₂ e heq₂ =>
          rw [heq₂] at htrim₂
          exact .refused (htrim₁.trans htrim₂)
      · next s₂ heq₂ =>
          rw [heq₂] at htrim₂ hgranted₂
          have htrim : Trimmed s s₂ now := htrim₁.trans htrim₂
          refine .granted htrim hfresh ⟨?_, ?_⟩
          · rw [hold_entryKeys]
            show _ ≤ s₂.capacity
            rw [htrim₂.capacity]
            exact hgranted₂ rfl
          · rw [hold_jtiKeys]
            show _ ≤ s₂.maxJtiCount
            rw [htrim.maxJtiCount]
            have hsubset : insert jti s₂.jtiKeys ⊆ insert jti s₁.jtiKeys :=
              Finset.insert_subset_insert jti htrim₂.jtiKeys_subset
            exact (Finset.card_le_card hsubset).trans hjtis

/-! ## Slots in hand -/

/-- How many reservations hold the key. -/
def held (s : IssuerShard) (key : PublicKey) : Nat := (s.pendingKeys.lookup key).getD 0

/-- A key nobody holds is not listed. -/
def HeldListed (s : IssuerShard) : Prop := ∀ k : PublicKey, s.pendingKeys.lookup k ≠ some 0

theorem HeldListed.isSome (h : s.HeldListed) (key : PublicKey) :
    (s.pendingKeys.lookup key).isSome ↔ 0 < s.held key := by
  unfold held
  cases hk : s.pendingKeys.lookup key with
  | none => simp
  | some n =>
      have hne : n ≠ 0 := fun hn => h key (hn ▸ hk)
      simp only [Option.isSome_some, Option.getD_some, true_iff]
      omega

theorem hold_held (s : IssuerShard) (jti : String) (key k : PublicKey) :
    (s.hold jti key).held k = s.held k + if k = key then 1 else 0 := by
  show ((s.pendingKeys.insert key _).lookup k).getD 0 = _
  rw [HMap.lookup_insert_ite]
  split
  · next heq =>
      rw [heq]
      rfl
  · rfl

theorem hold_heldListed (h : s.HeldListed) (jti : String) (key : PublicKey) :
    (s.hold jti key).HeldListed := by
  intro k
  show (s.pendingKeys.insert key _).lookup k ≠ some 0
  rw [HMap.lookup_insert_ite]
  split
  · simp
  · exact h k

theorem release_lookup (s : IssuerShard) (jti : String) (key k : PublicKey) :
    (s.release jti key).pendingKeys.lookup k =
      if k = key then (s.pendingKeys.lookup key).bind fun n =>
        if n - 1 = 0 then none else some (n - 1)
      else s.pendingKeys.lookup k := by
  unfold release
  dsimp only
  split
  · next hnone =>
      split
      · next heq => rw [heq, hnone]; rfl
      · rfl
  · next n hsome =>
      split
      · next hlast =>
          rw [HMap.lookup_erase_ite]
          split
          · rw [hsome]
            exact (if_pos hlast).symm
          · rfl
      · next hmore =>
          rw [HMap.lookup_insert_ite]
          split
          · rw [hsome]
            exact (if_neg hmore).symm
          · rfl

theorem release_held (s : IssuerShard) (jti : String) (key k : PublicKey) :
    (s.release jti key).held k = s.held k - if k = key then 1 else 0 := by
  unfold held
  rw [release_lookup]
  by_cases hk : k = key
  · rw [if_pos hk, if_pos hk, hk]
    cases s.pendingKeys.lookup key with
    | none => rfl
    | some n =>
        show (if n - 1 = 0 then none else some (n - 1)).getD 0 = n - 1
        split
        · next hlast => exact hlast.symm
        · rfl
  · rw [if_neg hk, if_neg hk]
    rfl

theorem release_heldListed (h : s.HeldListed) (jti : String) (key : PublicKey) :
    (s.release jti key).HeldListed := by
  intro k
  rw [release_lookup]
  split
  · intro hzero
    obtain ⟨n, -, hn⟩ := Option.bind_eq_some_iff.1 hzero
    split at hn
    · cases hn
    · next hne => exact hne (Option.some.inj hn)
  · exact h k

theorem release_pendingKeys_subset (s : IssuerShard) (jti : String) (key : PublicKey) :
    (s.release jti key).pendingKeys.keySet ⊆ s.pendingKeys.keySet := by
  intro k hk
  rw [HMap.mem_keySet, release_lookup] at hk
  rw [HMap.mem_keySet]
  split at hk
  · next heq =>
      subst heq
      cases hkey : s.pendingKeys.lookup k with
      | none => rw [hkey] at hk; cases hk
      | some n => rfl
  · exact hk

theorem release_bounded (hs : s.Bounded) (jti : String) (key : PublicKey) :
    (s.release jti key).Bounded where
  entries := by
    refine (Finset.card_le_card ?_).trans hs.entries
    exact Finset.union_subset_union_right (s.release_pendingKeys_subset jti key)
  jtis := by
    refine (Finset.card_le_card ?_).trans hs.jtis
    exact Finset.union_subset_union_right (Finset.erase_subset jti s.pendingJtis)

/-! ## Entries -/

theorem release_isDenied (s : IssuerShard) (jti : String) (key k : PublicKey) (t : Int) :
    (s.release jti key).isDenied k t = s.isDenied k t := rfl

theorem mergeUntil_isDenied (s : IssuerShard) (key k : PublicKey) (deniedUntil t : Int) :
    (s.mergeUntil key deniedUntil).isDenied k t =
      (s.isDenied k t || (k = key && t < deniedUntil)) := by
  show ((s.entries.insert key _).lookup k).any (t < ·) = _
  rw [HMap.lookup_insert_ite]
  by_cases hk : k = key
  · rw [if_pos hk, hk]
    unfold isDenied
    cases s.entries.lookup key with
    | none => simp
    | some u => simp
  · rw [if_neg hk]
    simp [isDenied, hk]

theorem mergeUntil_entryKeys (s : IssuerShard) (key : PublicKey) (deniedUntil : Int) :
    (s.mergeUntil key deniedUntil).entryKeys = insert key s.entryKeys := by
  show HMap.keySet (s.entries.insert key _) ∪ s.pendingKeys.keySet = _
  rw [HMap.keySet_insert, Finset.insert_union]
  rfl

/-- A commit fills the slots its reservation holds. -/
theorem commit_bounded (hs : s.Bounded) (hjti : jti ∈ s.pendingJtis)
    (hkey : (s.pendingKeys.lookup key).isSome)
    (effectiveExpiry deniedUntil : Int) :
    (s.commit jti effectiveExpiry key deniedUntil).Bounded where
  entries := by
    refine (Finset.card_le_card ?_).trans hs.entries
    show ((s.release jti key).mergeUntil key deniedUntil).entryKeys ⊆ _
    rw [mergeUntil_entryKeys]
    refine Finset.insert_subset ?_ ?_
    · rw [entryKeys, Finset.mem_union, HMap.mem_keySet, HMap.mem_keySet]
      exact .inr hkey
    · exact Finset.union_subset_union_right (s.release_pendingKeys_subset jti key)
  jtis := by
    refine (Finset.card_le_card ?_).trans hs.jtis
    show HMap.keySet (s.jtis.insert jti effectiveExpiry) ∪ s.pendingJtis.erase jti ⊆ _
    rw [HMap.keySet_insert, Finset.insert_union]
    refine Finset.insert_subset ?_ ?_
    · rw [jtiKeys, Finset.mem_union]
      exact .inr hjti
    · exact Finset.union_subset_union_right (Finset.erase_subset jti s.pendingJtis)

/-- What a merge does: it trims, and if there is room it enters the denial. -/
inductive Merges (s : IssuerShard) (key : PublicKey) (deniedUntil now : Int) :
    IssuerShard × Bool → Prop where
  | refused {s' : IssuerShard} (htrim : Trimmed s s' now) :
      Merges s key deniedUntil now (s', false)
  | entered {s' : IssuerShard} (htrim : Trimmed s s' now)
      (hbounded : (s'.mergeUntil key deniedUntil).Bounded) :
      Merges s key deniedUntil now (s'.mergeUntil key deniedUntil, true)

theorem mergeEntry_spec (hs : s.Bounded) (key : PublicKey) (deniedUntil now : Int) :
    Merges s key deniedUntil now (s.mergeEntry key deniedUntil now) := by
  obtain ⟨htrim, hroom⟩ := reserveEntry_spec hs key now
  unfold mergeEntry
  split
  · next s' e heq =>
      rw [heq] at htrim
      exact .refused htrim
  · next s' heq =>
      rw [heq] at htrim hroom
      refine .entered htrim ⟨?_, ?_⟩
      · rw [mergeUntil_entryKeys]
        show _ ≤ s'.capacity
        rw [htrim.capacity]
        exact hroom rfl
      · exact (htrim.bounded hs).jtis

/-! ## A new shard -/

theorem new_bounded (capacity : Nat) : (new capacity).Bounded :=
  ⟨Nat.zero_le _, Nat.zero_le _⟩

theorem new_maxJtiCount {capacity : Nat} (h : 0 < capacity) :
    (new capacity).maxJtiCount ≤ 2 * capacity := by
  show max (min (capacity * 2) usizeMax) 1 ≤ 2 * capacity
  omega

end IssuerShard

end Buzz.Auth
