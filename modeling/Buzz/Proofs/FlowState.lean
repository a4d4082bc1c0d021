import Buzz.Ifc.Flow
import Mathlib.Order.Bounds.Basic

/-!
# The flow state is the conjunction of its observations

Labels are ordered by where they can flow. In that order a join is a least upper bound,
and so is the one label a state keeps: of everything that was observed. It can flow to a
destination exactly if all of that can, and no order of the observations matters to it.
-/

namespace Buzz.Ifc

open Buzz.Lib

variable {Universe Principal : Type} [DecidableEq Universe] [DecidableEq Principal]

namespace ReaderSet

variable {a b c : ReaderSet Principal}

theorem canFlowTo_refl (a : ReaderSet Principal) : a.canFlowTo a = true := by
  cases a with
  | everyone => rfl
  | only readers => exact decide_eq_true (Finset.Subset.refl readers)

theorem canFlowTo_trans (hab : a.canFlowTo b = true) (hbc : b.canFlowTo c = true) :
    a.canFlowTo c = true := by
  cases a with
  | everyone => rfl
  | only source =>
      cases b with
      | everyone => cases hab
      | only middle =>
          cases c with
          | everyone => cases hbc
          | only destination =>
              have hab := of_decide_eq_true hab
              have hbc := of_decide_eq_true hbc
              exact decide_eq_true (hbc.trans hab)

theorem canFlowTo_antisymm (hab : a.canFlowTo b = true) (hba : b.canFlowTo a = true) : a = b := by
  cases a with
  | everyone =>
      cases b with
      | everyone => rfl
      | only readers => cases hba
  | only left =>
      cases b with
      | everyone => cases hab
      | only right =>
          have hab := of_decide_eq_true hab
          have hba := of_decide_eq_true hba
          rw [Finset.Subset.antisymm hba hab]

/-- A reader set is below those it can flow to. -/
instance : PartialOrder (ReaderSet Principal) where
  le a b := a.canFlowTo b = true
  le_refl := canFlowTo_refl
  le_trans _ _ _ := canFlowTo_trans
  le_antisymm _ _ := canFlowTo_antisymm

theorem join_le_iff : a.join b ≤ c ↔ a ≤ c ∧ b ≤ c := by
  show (a.join b).canFlowTo c = true ↔ a.canFlowTo c = true ∧ b.canFlowTo c = true
  cases a with
  | everyone => exact ⟨fun h => ⟨rfl, h⟩, fun h => h.2⟩
  | only left =>
      cases b with
      | everyone => exact ⟨fun h => ⟨h, rfl⟩, fun h => h.1⟩
      | only right =>
          cases c with
          | everyone => exact ⟨fun h => ⟨h, h⟩, fun h => h.1⟩
          | only destination =>
              simp only [join, canFlowTo, decide_eq_true_eq, Finset.subset_inter_iff]

theorem le_meet_iff : c ≤ a.meet b ↔ c ≤ a ∧ c ≤ b := by
  show c.canFlowTo (a.meet b) = true ↔ c.canFlowTo a = true ∧ c.canFlowTo b = true
  cases c with
  | everyone => exact ⟨fun _ => ⟨rfl, rfl⟩, fun _ => rfl⟩
  | only source =>
      cases a with
      | everyone => exact ⟨fun h => (nomatch h), fun h => (nomatch h.1)⟩
      | only left =>
          cases b with
          | everyone => exact ⟨fun h => (nomatch h), fun h => (nomatch h.2)⟩
          | only right =>
              simp only [meet, canFlowTo, decide_eq_true_eq, Finset.union_subset_iff]

theorem isLUB_join (a b : ReaderSet Principal) : IsLUB {a, b} (a.join b) := by
  rw [isLUB_iff_le_iff]
  intro c
  rw [join_le_iff, mem_upperBounds]
  simp only [Set.mem_insert_iff, Set.mem_singleton_iff, forall_eq_or_imp, forall_eq]

theorem isGLB_meet (a b : ReaderSet Principal) : IsGLB {a, b} (a.meet b) := by
  rw [isGLB_iff_le_iff]
  intro c
  rw [le_meet_iff, mem_lowerBounds]
  simp only [Set.mem_insert_iff, Set.mem_singleton_iff, forall_eq_or_imp, forall_eq]

end ReaderSet

namespace ConfidentialityLabel

variable {a b c d : ConfidentialityLabel Universe Principal}

theorem canFlowTo_iff : a.canFlowTo b = true ↔
    a.universeId = b.universeId ∧ a.readers ≤ b.readers := by
  unfold canFlowTo
  rw [Bool.and_eq_true, decide_eq_true_eq]
  exact Iff.rfl

/-- A label is below those it can flow to. -/
instance : PartialOrder (ConfidentialityLabel Universe Principal) where
  le a b := a.canFlowTo b = true
  le_refl _ := canFlowTo_iff.2 ⟨rfl, le_refl _⟩
  le_trans _ _ _ hab hbc := canFlowTo_iff.2
    ⟨(canFlowTo_iff.1 hab).1.trans (canFlowTo_iff.1 hbc).1,
      (canFlowTo_iff.1 hab).2.trans (canFlowTo_iff.1 hbc).2⟩
  le_antisymm a b hab hba := by
    obtain ⟨universeId, readers⟩ := a
    obtain ⟨universeId', readers'⟩ := b
    obtain ⟨rfl, hle⟩ := canFlowTo_iff.1 hab
    obtain rfl := le_antisymm hle (canFlowTo_iff.1 hba).2
    rfl

theorem le_iff : a ≤ b ↔ a.universeId = b.universeId ∧ a.readers ≤ b.readers := canFlowTo_iff

theorem join_eq_ok : a.join b = .ok c ↔
    a.universeId = b.universeId ∧ c = ⟨a.universeId, a.readers.join b.readers⟩ := by
  unfold join
  split
  · next hne => exact ⟨nofun, fun h => absurd h.1 hne⟩
  · next heq =>
      rw [not_ne_iff] at heq
      exact ⟨fun h => ⟨heq, (Except.ok.inj h).symm⟩, fun h => congrArg Except.ok h.2.symm⟩

theorem join_le_iff (h : a.join b = .ok c) : c ≤ d ↔ a ≤ d ∧ b ≤ d := by
  obtain ⟨hsame, rfl⟩ := join_eq_ok.1 h
  rw [le_iff, le_iff, le_iff, ← hsame, ReaderSet.join_le_iff]
  exact and_and_left

theorem isLUB_join (h : a.join b = .ok c) : IsLUB {a, b} c := by
  rw [isLUB_iff_le_iff]
  intro d
  rw [join_le_iff h, mem_upperBounds]
  simp only [Set.mem_insert_iff, Set.mem_singleton_iff, forall_eq_or_imp, forall_eq]

end ConfidentialityLabel

open ConfidentialityLabel

/-! ## The state -/

section State

variable {calls calls' : List (FlowCall Universe Principal)}
  {s : FlowState Universe Principal} {d : ConfidentialityLabel Universe Principal}

/-- What was observed. -/
def observed (calls : List (FlowCall Universe Principal)) :
    Set (ConfidentialityLabel Universe Principal) :=
  { label | .observe label ∈ calls }

/-- Every input has a label, and all are of one universe. -/
def Resolved (calls : List (FlowCall Universe Principal)) : Prop :=
  .markUnknown ∉ calls ∧
    ∀ a ∈ observed calls, ∀ b ∈ observed calls, a.universeId = b.universeId

/-- What the state says of the calls so far. -/
structure Accumulates (calls : List (FlowCall Universe Principal))
    (s : FlowState Universe Principal) : Prop where
  unresolved : s.unresolvedInput = false ↔ Resolved calls
  empty : s.accumulated = none ↔ observed calls = ∅
  within : ∀ label, s.accumulated = some label →
    ∃ a ∈ observed calls, a.universeId = label.universeId
  isLUB : ∀ label, s.accumulated = some label → Resolved calls → IsLUB (observed calls) label

omit [DecidableEq Universe] [DecidableEq Principal] in
theorem observed_snoc (calls : List (FlowCall Universe Principal))
    (label : ConfidentialityLabel Universe Principal) :
    observed (calls ++ [.observe label]) = insert label (observed calls) := by
  ext a
  show .observe a ∈ calls ++ [.observe label] ↔ a = label ∨ .observe a ∈ calls
  rw [List.mem_append, List.mem_singleton, FlowCall.observe.injEq]
  exact or_comm

omit [DecidableEq Universe] [DecidableEq Principal] in
theorem observed_markUnknown (calls : List (FlowCall Universe Principal)) :
    observed (calls ++ [.markUnknown]) = observed calls := by
  ext a
  simp [observed]

omit [DecidableEq Universe] [DecidableEq Principal] in
theorem resolved_snoc {label : ConfidentialityLabel Universe Principal} :
    Resolved (calls ++ [.observe label]) ↔
      Resolved calls ∧ ∀ a ∈ observed calls, a.universeId = label.universeId := by
  unfold Resolved
  rw [observed_snoc]
  simp only [List.mem_append, List.mem_singleton, reduceCtorEq, or_false, Set.mem_insert_iff,
    forall_eq_or_imp, true_and]
  constructor
  · rintro ⟨hknown, hlabel, hall⟩
    exact ⟨⟨hknown, fun a ha => (hall a ha).2⟩, fun a ha => (hall a ha).1⟩
  · rintro ⟨⟨hknown, hall⟩, hlabel⟩
    exact ⟨hknown, fun a ha => (hlabel a ha).symm, fun a ha => ⟨hlabel a ha, hall a ha⟩⟩

theorem Accumulates.observe (h : Accumulates calls s)
    (label : ConfidentialityLabel Universe Principal) :
    Accumulates (calls ++ [.observe label]) (s.observe label) := by
  have hnonempty : observed (calls ++ [.observe label]) ≠ ∅ := by
    rw [observed_snoc]
    exact (Set.insert_nonempty _ _).ne_empty
  unfold FlowState.observe
  cases hacc : s.accumulated with
  | none =>
      have hempty := h.empty.1 hacc
      refine ⟨?_, ⟨nofun, fun he => absurd he hnonempty⟩, ?_, ?_⟩
      · show s.unresolvedInput = false ↔ _
        rw [h.unresolved, resolved_snoc, hempty]
        exact ⟨fun hr => ⟨hr, fun a ha => absurd ha (Set.notMem_empty a)⟩, fun hr => hr.1⟩
      · intro l hl
        rw [observed_snoc]
        exact ⟨label, Set.mem_insert _ _, congrArg _ (Option.some.inj hl)⟩
      · intro l hl _
        rw [observed_snoc, hempty, ← Option.some.inj hl, insert_empty_eq]
        exact isLUB_singleton
  | some existing =>
      obtain ⟨first, hfirst, hwithin⟩ := h.within existing hacc
      dsimp only
      cases hjoin : existing.join label with
      | ok combined =>
          obtain ⟨hsame, hcombined⟩ := join_eq_ok.1 hjoin
          have hresolved : Resolved (calls ++ [.observe label]) ↔ Resolved calls := by
            rw [resolved_snoc]
            refine ⟨fun hr => hr.1, fun hr => ⟨hr, fun a ha => ?_⟩⟩
            exact ((hr.2 a ha first hfirst).trans hwithin).trans hsame
          refine ⟨?_, ⟨nofun, fun he => absurd he hnonempty⟩, ?_, ?_⟩
          · show s.unresolvedInput = false ↔ _
            rw [h.unresolved, hresolved]
          · intro l hl
            rw [observed_snoc, ← Option.some.inj hl, hcombined]
            exact ⟨first, Set.mem_insert_of_mem _ hfirst, hwithin⟩
          · intro l hl hr
            have hlub := h.isLUB existing hacc (hresolved.1 hr)
            rw [observed_snoc, ← Option.some.inj hl, isLUB_iff_le_iff]
            intro d
            rw [join_le_iff hjoin, isLUB_le_iff hlub, mem_upperBounds, mem_upperBounds,
              Set.forall_mem_insert, and_comm]
      | error e =>
          have hcross : existing.universeId ≠ label.universeId := by
            intro hsame
            rw [join_eq_ok.2 ⟨hsame, rfl⟩] at hjoin
            cases hjoin
          have hnot : ¬ Resolved (calls ++ [.observe label]) := by
            rw [resolved_snoc]
            intro hr
            exact hcross (hwithin.symm.trans (hr.2 first hfirst))
          refine ⟨⟨nofun, fun hr => absurd hr hnot⟩, ?_, ?_, fun _ _ hr => absurd hr hnot⟩
          · exact ⟨nofun, fun he => absurd he hnonempty⟩
          · intro l hl
            rw [observed_snoc, ← Option.some.inj hl]
            exact ⟨first, Set.mem_insert_of_mem _ hfirst, hwithin⟩

theorem Accumulates.markUnknown (h : Accumulates calls s) :
    Accumulates (calls ++ [.markUnknown]) s.markUnknown := by
  have hnot : ¬ Resolved (calls ++ [.markUnknown]) := fun hr =>
    hr.1 (List.mem_append_right _ (List.mem_singleton_self _))
  refine ⟨⟨nofun, fun hr => absurd hr hnot⟩, ?_, ?_, fun _ _ hr => absurd hr hnot⟩
  · rw [observed_markUnknown]
    exact h.empty
  · rw [observed_markUnknown]
    exact h.within

theorem accumulates_run (calls : List (FlowCall Universe Principal)) :
    Accumulates calls ((flowMachine Universe Principal).run calls) := by
  induction calls using List.reverseRecOn with
  | nil =>
      refine ⟨⟨fun _ => ⟨List.not_mem_nil, nofun⟩, fun _ => rfl⟩, ⟨fun _ => ?_, fun _ => rfl⟩,
        nofun, nofun⟩
      exact Set.eq_empty_of_forall_notMem fun _ => List.not_mem_nil
  | append_singleton calls call ih =>
      rw [Machine.run_snoc]
      cases call with
      | observe label => exact ih.observe label
      | markUnknown => exact ih.markUnknown

/-- The answer, from what was observed alone. -/
theorem checkEgress_eq_ok : ((flowMachine Universe Principal).run calls).checkEgress d = .ok () ↔
    .markUnknown ∉ calls ∧ ∀ label, .observe label ∈ calls → label.canFlowTo d = true := by
  have h := accumulates_run calls
  unfold FlowState.checkEgress
  by_cases hresolved : Resolved calls
  · rw [if_neg (Bool.eq_false_iff.1 (h.unresolved.2 hresolved))]
    cases hacc : ((flowMachine Universe Principal).run calls).accumulated with
    | none =>
        refine ⟨fun _ => ⟨hresolved.1, fun label hlabel => ?_⟩, fun _ => rfl⟩
        have hmem : label ∈ observed calls := hlabel
        rw [h.empty.1 hacc] at hmem
        cases hmem
    | some accumulated =>
        have hlub := h.isLUB accumulated hacc hresolved
        have hle : accumulated ≤ d ↔ ∀ label, .observe label ∈ calls → label.canFlowTo d = true :=
          isLUB_le_iff hlub
        rw [← hle, le_iff]
        dsimp only
        split
        · next hne => exact ⟨nofun, fun hall => absurd hall.2.1 hne⟩
        · next heq =>
            rw [not_ne_iff] at heq
            split
            · next hwidens =>
                rw [Bool.not_eq_true'] at hwidens
                refine ⟨nofun, fun hall => ?_⟩
                rw [show accumulated.readers.canFlowTo d.readers = true from hall.2.2] at hwidens
                cases hwidens
            · next hnarrow =>
                rw [Bool.not_eq_true', Bool.not_eq_false] at hnarrow
                exact ⟨fun _ => ⟨hresolved.1, heq, hnarrow⟩, fun _ => rfl⟩
  · rw [if_pos (eq_true_of_ne_false (mt h.unresolved.1 hresolved))]
    refine ⟨nofun, fun hall => absurd ⟨hall.1, fun a ha b hb => ?_⟩ hresolved⟩
    exact (canFlowTo_iff.1 (hall.2 a ha)).1.trans (canFlowTo_iff.1 (hall.2 b hb)).1.symm

/-- The same observations, in whatever order and number, give the same answer. -/
theorem checkEgress_congr (hsame : ∀ call, call ∈ calls' ↔ call ∈ calls) :
    ((flowMachine Universe Principal).run calls').checkEgress d =
      ((flowMachine Universe Principal).run calls).checkEgress d := by
  have h := accumulates_run calls
  have h' := accumulates_run calls'
  have hobserved : observed calls' = observed calls := Set.ext fun label => hsame (.observe label)
  have hresolved : Resolved calls' ↔ Resolved calls := by
    unfold Resolved
    rw [hobserved, hsame .markUnknown]
  unfold FlowState.checkEgress
  by_cases hr : Resolved calls
  · rw [if_neg (Bool.eq_false_iff.1 (h.unresolved.2 hr)),
      if_neg (Bool.eq_false_iff.1 (h'.unresolved.2 (hresolved.2 hr)))]
    suffices heq : ((flowMachine Universe Principal).run calls').accumulated =
        ((flowMachine Universe Principal).run calls).accumulated by rw [heq]
    cases hacc : ((flowMachine Universe Principal).run calls).accumulated with
    | none => exact h'.empty.2 (hobserved.trans (h.empty.1 hacc))
    | some label =>
        cases hacc' : ((flowMachine Universe Principal).run calls').accumulated with
        | none =>
            rw [h.empty.2 (hobserved.symm.trans (h'.empty.1 hacc'))] at hacc
            cases hacc
        | some label' =>
            have hlub' := h'.isLUB label' hacc' (hresolved.2 hr)
            rw [hobserved] at hlub'
            rw [hlub'.unique (h.isLUB label hacc hr)]
  · rw [if_pos (eq_true_of_ne_false (mt h.unresolved.1 hr)),
      if_pos (eq_true_of_ne_false (mt h'.unresolved.1 (mt hresolved.1 hr)))]

/-- A state answers for the conjunction of its observations: it lets pass what all of
them let pass, whatever their order and number, and never more for one more of them.
Joins and meets are the bounds of the order that flows define. -/
theorem flow_state_exact (calls : List (FlowCall Universe Principal))
    (d : ConfidentialityLabel Universe Principal) :
    (((flowMachine Universe Principal).run calls).checkEgress d = .ok () ↔
      .markUnknown ∉ calls ∧ ∀ label, .observe label ∈ calls → label.canFlowTo d = true) ∧
    (∀ calls', (∀ call, call ∈ calls' ↔ call ∈ calls) →
      ((flowMachine Universe Principal).run calls').checkEgress d =
        ((flowMachine Universe Principal).run calls).checkEgress d) ∧
    (∀ call, ((flowMachine Universe Principal).run (calls ++ [call])).checkEgress d = .ok () →
      ((flowMachine Universe Principal).run calls).checkEgress d = .ok ()) ∧
    (∀ a b c : ConfidentialityLabel Universe Principal, a.join b = .ok c → IsLUB {a, b} c) ∧
    (∀ a b : ConfidentialityLabel Universe Principal,
      (∃ c, a.join b = .ok c) ↔ a.universeId = b.universeId) ∧
    ∀ a b : ReaderSet Principal, IsLUB {a, b} (a.join b) ∧ IsGLB {a, b} (a.meet b) := by
  refine ⟨checkEgress_eq_ok, fun calls' hsame => checkEgress_congr hsame, fun call hok => ?_,
    fun a b c h => isLUB_join h, fun a b => ?_,
    fun a b => ⟨ReaderSet.isLUB_join a b, ReaderSet.isGLB_meet a b⟩⟩
  · obtain ⟨hknown, hall⟩ := checkEgress_eq_ok.1 hok
    refine checkEgress_eq_ok.2 ⟨fun h => hknown (List.mem_append_left _ h), fun label hlabel => ?_⟩
    exact hall label (List.mem_append_left _ hlabel)
  · exact ⟨fun ⟨c, hc⟩ => (join_eq_ok.1 hc).1, fun hsame => ⟨_, join_eq_ok.2 ⟨hsame, rfl⟩⟩⟩

end State

end Buzz.Ifc
