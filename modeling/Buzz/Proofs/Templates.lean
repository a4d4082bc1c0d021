import Buzz.Workflow.Template

/-!
# What becomes of a template

A template is cut at each first `opening` and the next `closing`, from the left;
`Segmented` says so without the loop. The loop then pushes one text for each
segment, in order, and never looks at what it pushed.

The pushed text is the one a segment stands for, except that a placeholder
without a value loses the blanks at the ends of its text. What is pushed is
always a sublist of what should be, so one lost blank cannot be made up for by
another segment: the lengths tell.
-/

namespace Buzz.Workflow

open Buzz.Lib

/-! ## Segments -/

/-- A piece of a template. -/
inductive Segment where
  | text (s : List Char)
  | placeholder (inner : List Char)
  | unclosed (rest : List Char)
deriving DecidableEq

/-- The part of the template a segment is. -/
def Segment.source : Segment → List Char
  | .text s => s
  | .placeholder inner => opening ++ inner ++ closing
  | .unclosed rest => opening ++ rest

inductive Segmented : List Char → List Segment → Prop
  | text {s : List Char} (hopen : ¬opening <:+: s) : Segmented s [.text s]
  | unclosed {s before rest : List Char} (hopen : Cut opening s before rest)
      (hclose : ¬closing <:+: rest) : Segmented s [.text before, .unclosed rest]
  | placeholder {s before rest inner after : List Char} {segments : List Segment}
      (hopen : Cut opening s before rest) (hclose : Cut closing rest inner after)
      (hafter : Segmented after segments) :
      Segmented s (.text before :: .placeholder inner :: segments)

namespace Segmented

variable {s : List Char} {segments segments' : List Segment}

theorem source_eq (h : Segmented s segments) : segments.flatMap Segment.source = s := by
  induction h with
  | text hopen => simp [Segment.source]
  | unclosed hopen hclose => simp [Segment.source, hopen.eq]
  | placeholder hopen hclose hafter ih =>
      simp [Segment.source, ih, hopen.eq, hclose.eq]

theorem unique (h : Segmented s segments) (h' : Segmented s segments') :
    segments' = segments := by
  induction h generalizing segments' with
  | text hopen =>
      cases h' with
      | text _ => rfl
      | unclosed hopen' _ => exact absurd hopen'.isInfix hopen
      | placeholder hopen' _ _ => exact absurd hopen'.isInfix hopen
  | unclosed hopen hclose =>
      cases h' with
      | text hopen' => exact absurd hopen.isInfix hopen'
      | unclosed hopen' _ =>
          obtain ⟨rfl, rfl⟩ := hopen.unique hopen'
          rfl
      | placeholder hopen' hclose' _ =>
          obtain ⟨rfl, rfl⟩ := hopen.unique hopen'
          exact absurd hclose'.isInfix hclose
  | placeholder hopen hclose hafter ih =>
      cases h' with
      | text hopen' => exact absurd hopen.isInfix hopen'
      | unclosed hopen' hclose' =>
          obtain ⟨rfl, rfl⟩ := hopen.unique hopen'
          exact absurd hclose.isInfix hclose'
      | placeholder hopen' hclose' hafter' =>
          obtain ⟨rfl, rfl⟩ := hopen.unique hopen'
          obtain ⟨rfl, rfl⟩ := hclose.unique hclose'
          rw [ih hafter']

end Segmented

theorem exists_segmented (s : List Char) : ∃ segments, Segmented s segments := by
  -- on the length: what is behind a placeholder is shorter
  induction hn : s.length using Nat.strong_induction_on generalizing s with
  | _ n ih =>
      subst hn
      cases hopen : find opening s with
      | none => exact ⟨_, .text (find_eq_none_iff.1 hopen)⟩
      | some start =>
          cases hclose : find closing (s.drop (start + 2)) with
          | none => exact ⟨_, .unclosed (cut_of_find hopen) (find_eq_none_iff.1 hclose)⟩
          | some stop =>
              obtain ⟨segments, hafter⟩ := ih _ (length_drop_find hopen stop) _ rfl
              exact ⟨_, .placeholder (cut_of_find hopen) (cut_of_find hclose) hafter⟩

/-! ## The loop over the segments -/

section

variable {κ : Type} (keys : PublicKeys κ) (trigger : TriggerContext)
    (stepOutputs : HMap String Json)

/-- What the loop pushes for a segment. -/
def emitted : Segment → Except WorkflowError (List Char)
  | .text s => .ok s
  | .placeholder inner => placeholderText keys trigger stepOutputs inner
  | .unclosed rest => .ok (opening ++ rest)

/-- The loop has pushed these texts, one for each segment. -/
def Emits (segments : List Segment) (texts : List (List Char)) : Prop :=
  List.Forall₂ (fun segment text => emitted keys trigger stepOutputs segment = .ok text)
    segments texts

variable {keys trigger stepOutputs} {s result r : List Char} {segments : List Segment}
  {texts : List (List Char)}

theorem resolveLoop_text (h : ¬opening <:+: s) :
    resolveLoop keys trigger stepOutputs s result = .ok (result ++ s) := by
  rw [resolveLoop.eq_def]
  split
  · rfl
  · next start hstart =>
      rw [find_eq_none_iff.2 h] at hstart
      cases hstart

theorem resolveLoop_unclosed {before rest : List Char} (hopen : Cut opening s before rest)
    (hclose : ¬closing <:+: rest) :
    resolveLoop keys trigger stepOutputs s result =
      .ok (result ++ before ++ opening ++ rest) := by
  have hfound : find opening s = some before.length := find_eq_some_iff.2 ⟨_, _, hopen, rfl⟩
  have hrest : s.drop (before.length + 2) = rest := hopen.drop_eq
  rw [resolveLoop.eq_def]
  split
  · next hnone =>
      rw [hfound] at hnone
      cases hnone
  · next start hstart =>
      obtain rfl : before.length = start := Option.some.inj (hfound.symm.trans hstart)
      simp only [hrest, hopen.take_eq, find_eq_none_iff.2 hclose]

theorem resolveLoop_placeholder {before rest inner after : List Char}
    (hopen : Cut opening s before rest) (hclose : Cut closing rest inner after) :
    resolveLoop keys trigger stepOutputs s result =
      placeholderText keys trigger stepOutputs inner >>= fun text =>
        resolveLoop keys trigger stepOutputs after (result ++ before ++ text) := by
  have hfound : find opening s = some before.length := find_eq_some_iff.2 ⟨_, _, hopen, rfl⟩
  have hrest : s.drop (before.length + 2) = rest := hopen.drop_eq
  have hfound' : find closing rest = some inner.length := find_eq_some_iff.2 ⟨_, _, hclose, rfl⟩
  have hafter : rest.drop (inner.length + 2) = after := hclose.drop_eq
  rw [resolveLoop.eq_def]
  split
  · next hnone =>
      rw [hfound] at hnone
      cases hnone
  · next start hstart =>
      obtain rfl : before.length = start := Option.some.inj (hfound.symm.trans hstart)
      simp only [hrest, hopen.take_eq, hfound', hclose.take_eq, hafter]

theorem resolveLoop_eq_ok_iff (h : Segmented s segments) :
    resolveLoop keys trigger stepOutputs s result = .ok r ↔
      ∃ texts, Emits keys trigger stepOutputs segments texts ∧ r = result ++ texts.flatten := by
  unfold Emits
  induction h generalizing result with
  | text hopen =>
      rw [resolveLoop_text hopen]
      constructor
      · rintro ⟨⟩
        exact ⟨[_], .cons rfl .nil, by simp⟩
      · rintro ⟨texts, hemits, rfl⟩
        cases hemits with
        | cons htext hnil =>
            cases hnil
            cases htext
            simp
  | unclosed hopen hclose =>
      rw [resolveLoop_unclosed hopen hclose]
      constructor
      · rintro ⟨⟩
        exact ⟨[_, _], .cons rfl (.cons rfl .nil), by simp⟩
      · rintro ⟨texts, hemits, rfl⟩
        cases hemits with
        | cons hbefore hemits =>
            cases hemits with
            | cons hrest hnil =>
                cases hnil
                cases hbefore
                cases hrest
                simp
  | @placeholder s before rest inner after segments hopen hclose hafter ih =>
      rw [resolveLoop_placeholder hopen hclose]
      cases htext : placeholderText keys trigger stepOutputs inner with
      | error e =>
          constructor
          · rintro ⟨⟩
          · rintro ⟨texts, hemits, -⟩
            cases hemits with
            | cons _ hemits =>
                cases hemits with
                | cons hinner _ =>
                    rw [emitted, htext] at hinner
                    cases hinner
      | ok text =>
          change resolveLoop keys trigger stepOutputs after (result ++ before ++ text) = .ok r ↔ _
          rw [ih]
          constructor
          · rintro ⟨texts, hemits, rfl⟩
            exact ⟨before :: text :: texts, .cons rfl (.cons htext hemits), by simp⟩
          · rintro ⟨texts, hemits, rfl⟩
            cases hemits with
            | cons hbefore hemits =>
                cases hemits with
                | cons hinner hemits =>
                    rw [emitted, htext] at hinner
                    cases hbefore
                    cases hinner
                    exact ⟨_, hemits, by simp⟩

theorem resolveTemplate_eq_ok_iff (h : Segmented s segments) :
    resolveTemplate keys s trigger stepOutputs = .ok r ↔
      ∃ texts, Emits keys trigger stepOutputs segments texts ∧ r = texts.flatten := by
  have hloop : resolveLoop keys trigger stepOutputs s [] = .ok r ↔ _ := resolveLoop_eq_ok_iff h
  unfold resolveTemplate
  split
  · next hnone =>
      -- the early return is what the loop does with such a template
      have hopen : ¬opening <:+: s := find_eq_none_iff.1 (Option.isNone_iff_eq_none.1 hnone)
      rw [resolveLoop_text hopen] at hloop
      exact hloop
  · exact hloop

end

/-! ## What a segment stands for -/

section

variable {κ : Type} (keys : PublicKeys κ) (trigger : TriggerContext)
    (stepOutputs : HMap String Json)

/-- The value of a placeholder's variable, before its filter. -/
def placeholderValue (inner : List Char) : Option (List Char) :=
  resolveVariable (readExpr (trimText inner)).1 trigger stepOutputs

/-- What a segment stands for: a placeholder for its value, with the filter
applied when there is one, and anything else for itself. -/
inductive StandsFor : Segment → List Char → Prop
  | text (s : List Char) : StandsFor (.text s) s
  | unclosed (rest : List Char) : StandsFor (.unclosed rest) (Segment.unclosed rest).source
  | unresolved {inner : List Char} (h : placeholderValue trigger stepOutputs inner = none) :
      StandsFor (.placeholder inner) (Segment.placeholder inner).source
  | value {inner value : List Char} (h : placeholderValue trigger stepOutputs inner = some value)
      (hfilter : (readExpr (trimText inner)).2 = none) : StandsFor (.placeholder inner) value
  | filtered {inner value filter text : List Char}
      (h : placeholderValue trigger stepOutputs inner = some value)
      (hfilter : (readExpr (trimText inner)).2 = some filter)
      (htext : applyFilter keys value filter = .ok text) : StandsFor (.placeholder inner) text

/-- `r` is made of what the segments stand for, in their order. -/
def Faithful (segments : List Segment) (r : List Char) : Prop :=
  ∃ texts, List.Forall₂ (StandsFor keys trigger stepOutputs) segments texts ∧ r = texts.flatten

/-- No placeholder without a value has blanks at the ends of its text. -/
def Unpadded (segments : List Segment) : Prop :=
  ∀ inner, Segment.placeholder inner ∈ segments →
    placeholderValue trigger stepOutputs inner = none → trimText inner = inner

variable {keys trigger stepOutputs} {segment : Segment} {segments : List Segment}
  {text text' inner : List Char} {texts texts' : List (List Char)}

theorem trimText_sublist (s : List Char) : (trimText s).Sublist s := by
  have hleft : (s.dropWhile Core.isWhitespace).Sublist s := List.dropWhile_sublist _
  have hright := List.dropWhile_sublist Core.isWhitespace
    (l := (s.dropWhile Core.isWhitespace).reverse)
  exact (List.reverse_sublist.2 hright).trans (by rwa [List.reverse_reverse])

/-- The cases of the `match` on a variable's value and the filter. -/
theorem placeholderText_cases (h : placeholderText keys trigger stepOutputs inner = .ok text) :
    (placeholderValue trigger stepOutputs inner = none ∧
      text = opening ++ trimText inner ++ closing) ∨
    (placeholderValue trigger stepOutputs inner ≠ none ∧
      StandsFor keys trigger stepOutputs (.placeholder inner) text) := by
  unfold placeholderText at h
  simp only [] at h
  split at h
  · next value filter hvalue hfilter =>
      refine .inr ⟨?_, .filtered hvalue hfilter h⟩
      rw [placeholderValue, hvalue]
      exact Option.some_ne_none value
  · next value hvalue hfilter =>
      cases h
      refine .inr ⟨?_, .value hvalue hfilter⟩
      rw [placeholderValue, hvalue]
      exact Option.some_ne_none _
  · next hnone =>
      cases h
      exact .inl ⟨hnone, rfl⟩

theorem StandsFor.unique (h : StandsFor keys trigger stepOutputs segment text)
    (h' : StandsFor keys trigger stepOutputs segment text') : text' = text := by
  cases h with
  | text _ => cases h' with | text _ => rfl
  | unclosed _ => cases h' with | unclosed _ => rfl
  | unresolved hnone =>
      cases h' with
      | unresolved _ => rfl
      | value hvalue _ => rw [hnone] at hvalue; cases hvalue
      | filtered hvalue _ _ => rw [hnone] at hvalue; cases hvalue
  | value hvalue hfilter =>
      cases h' with
      | unresolved hnone => rw [hnone] at hvalue; cases hvalue
      | value hvalue' _ => exact Option.some.inj (hvalue'.symm.trans hvalue)
      | filtered _ hfilter' _ => rw [hfilter] at hfilter'; cases hfilter'
  | filtered hvalue hfilter htext =>
      cases h' with
      | unresolved hnone => rw [hnone] at hvalue; cases hvalue
      | value _ hfilter' => rw [hfilter] at hfilter'; cases hfilter'
      | filtered hvalue' hfilter' htext' =>
          obtain rfl := Option.some.inj (hvalue'.symm.trans hvalue)
          obtain rfl := Option.some.inj (hfilter'.symm.trans hfilter)
          exact Except.ok.inj (htext'.symm.trans htext)

theorem StandsFor.unresolved_eq (h : placeholderValue trigger stepOutputs inner = none)
    (h' : StandsFor keys trigger stepOutputs (.placeholder inner) text) :
    text = opening ++ inner ++ closing :=
  (StandsFor.unresolved h).unique h'

theorem emitted_sublist (h : emitted keys trigger stepOutputs segment = .ok text)
    (h' : StandsFor keys trigger stepOutputs segment text') : text.Sublist text' := by
  cases segment with
  | text s =>
      cases h
      cases h' with | text _ => exact .refl _
  | unclosed rest =>
      cases h
      cases h' with | unclosed _ => exact .refl _
  | placeholder inner =>
      obtain ⟨hnone, rfl⟩ | ⟨-, hstands⟩ := placeholderText_cases h
      · rw [h'.unresolved_eq hnone]
        exact ((List.Sublist.refl _).append (trimText_sublist inner)).append (.refl _)
      · rw [hstands.unique h']

theorem trimText_eq_of_emitted (hvalue : placeholderValue trigger stepOutputs inner = none)
    (h : emitted keys trigger stepOutputs (.placeholder inner) = .ok text)
    (h' : StandsFor keys trigger stepOutputs (.placeholder inner) text) :
    trimText inner = inner := by
  obtain ⟨-, rfl⟩ | ⟨hsome, -⟩ := placeholderText_cases h
  · have heq := h'.unresolved_eq hvalue
    exact List.append_cancel_left (List.append_cancel_right heq)
  · exact absurd hvalue hsome

theorem standsFor_of_emitted (h : emitted keys trigger stepOutputs segment = .ok text)
    (hunpadded : Unpadded trigger stepOutputs [segment]) :
    StandsFor keys trigger stepOutputs segment text := by
  cases segment with
  | text s =>
      cases h
      exact .text _
  | unclosed rest =>
      cases h
      exact .unclosed rest
  | placeholder inner =>
      obtain ⟨hnone, rfl⟩ | ⟨-, hstands⟩ := placeholderText_cases h
      · rw [hunpadded inner List.mem_cons_self hnone]
        exact .unresolved hnone
      · exact hstands

/-! ## The whole template -/

theorem emits_sublist (h : Emits keys trigger stepOutputs segments texts)
    (h' : List.Forall₂ (StandsFor keys trigger stepOutputs) segments texts') :
    texts.flatten.Sublist texts'.flatten := by
  unfold Emits at h
  induction h generalizing texts' with
  | nil => cases h' with | nil => exact .refl _
  | cons htext _ ih =>
      cases h' with
      | cons hstands h' =>
          rw [List.flatten_cons, List.flatten_cons]
          exact (emitted_sublist htext hstands).append (ih h')

theorem unpadded_of_flatten_eq (h : Emits keys trigger stepOutputs segments texts)
    (h' : List.Forall₂ (StandsFor keys trigger stepOutputs) segments texts')
    (heq : texts.flatten = texts'.flatten) : Unpadded trigger stepOutputs segments := by
  unfold Emits at h
  induction h generalizing texts' with
  | nil =>
      intro inner hmem
      cases hmem
  | @cons segment text segments texts htext htexts ih =>
      cases h' with
      | @cons _ text' _ texts' hstands h' =>
          rw [List.flatten_cons, List.flatten_cons] at heq
          -- both parts are sublists, so neither can be shorter
          have hhead := emitted_sublist htext hstands
          have htail := (emits_sublist htexts h').length_le
          have hlength := congrArg List.length heq
          simp only [List.length_append] at hlength
          have hhead' := hhead.length_le
          obtain rfl : text = text' := hhead.eq_of_length (by omega)
          have hrest := ih h' (List.append_cancel_left heq)
          intro inner hmem hvalue
          rcases List.mem_cons.1 hmem with rfl | hmem
          · exact trimText_eq_of_emitted hvalue htext hstands
          · exact hrest inner hmem hvalue

theorem standsFor_of_unpadded (h : Emits keys trigger stepOutputs segments texts)
    (hunpadded : Unpadded trigger stepOutputs segments) :
    List.Forall₂ (StandsFor keys trigger stepOutputs) segments texts := by
  unfold Emits at h
  induction h with
  | nil => exact .nil
  | cons htext _ ih =>
      refine .cons (standsFor_of_emitted htext ?_) (ih ?_)
      · intro inner hmem
        exact hunpadded inner (List.mem_cons.2 (.inl (List.mem_singleton.1 hmem)))
      · intro inner hmem
        exact hunpadded inner (List.mem_cons_of_mem _ hmem)

theorem resolveTemplate_faithful_iff {template r : List Char}
    (h : resolveTemplate keys template trigger stepOutputs = .ok r) :
    ∃ segments, (∀ segments', Segmented template segments' ↔ segments' = segments) ∧
      segments.flatMap Segment.source = template ∧
      (Faithful keys trigger stepOutputs segments r ↔
        Unpadded trigger stepOutputs segments) := by
  obtain ⟨segments, hsegmented⟩ := exists_segmented template
  obtain ⟨texts, hemits, rfl⟩ := (resolveTemplate_eq_ok_iff hsegmented).1 h
  refine ⟨segments, fun segments' => ⟨hsegmented.unique, ?_⟩, hsegmented.source_eq, ?_, ?_⟩
  · rintro rfl
    exact hsegmented
  · rintro ⟨texts', hstands, heq⟩
    exact unpadded_of_flatten_eq hemits hstands heq
  · intro hunpadded
    exact ⟨texts, standsFor_of_unpadded hemits hunpadded, rfl⟩

end

/-- Keys for texts that are none: `from_hex` fails on each. -/
def noKeys : PublicKeys Unit := ⟨fun _ => none, fun _ => none⟩

/-- A value that looks like a placeholder, an unknown variable, and an opening
without its end. -/
def nestedTemplate : List Char :=
  "a \x7b\x7b trigger.text | truncate(7) \x7d\x7d\x7b\x7by\x7d\x7d\x7b\x7bz".toList

def nestedTrigger : TriggerContext := { text := "\x7b\x7by\x7d\x7d and more" }

def nestedResult : List Char := "a \x7b\x7by\x7d\x7d a\x7b\x7by\x7d\x7d\x7b\x7bz".toList

theorem resolveTemplate_faithful_iff_nested :
    resolveTemplate noKeys nestedTemplate nestedTrigger ∅ = .ok nestedResult ∧
    ∃ segments, (∀ segments', Segmented nestedTemplate segments' ↔ segments' = segments) ∧
      segments.flatMap Segment.source = nestedTemplate ∧
      (Faithful noKeys nestedTrigger ∅ segments nestedResult ↔
        Unpadded nestedTrigger ∅ segments) :=
  ⟨by decide +kernel, resolveTemplate_faithful_iff (by decide +kernel)⟩

/-- The blanks of an unknown variable are lost. -/
theorem padded_placeholder_unfaithful :
    resolveTemplate noKeys "\x7b\x7b x \x7d\x7d".toList {} ∅ =
      .ok "\x7b\x7bx\x7d\x7d".toList ∧
    ∃ segments, Segmented "\x7b\x7b x \x7d\x7d".toList segments ∧
      ¬Faithful noKeys {} ∅ segments "\x7b\x7bx\x7d\x7d".toList := by
  have hopen : find opening "\x7b\x7b x \x7d\x7d".toList = some 0 := by decide
  have hclose : find closing " x \x7d\x7d".toList = some 3 := by decide
  have hafter : Segmented [] [.text []] := .text (by decide)
  have hsegmented := Segmented.placeholder (cut_of_find hopen) (cut_of_find hclose) hafter
  have hresult : resolveTemplate noKeys "\x7b\x7b x \x7d\x7d".toList {} ∅ =
      .ok "\x7b\x7bx\x7d\x7d".toList := by decide +kernel
  refine ⟨hresult, _, hsegmented, ?_⟩
  rintro ⟨texts', hstands, heq⟩
  obtain ⟨texts, hemits, heq'⟩ := (resolveTemplate_eq_ok_iff hsegmented).1 hresult
  have hunpadded := unpadded_of_flatten_eq hemits hstands (heq'.symm.trans heq)
  exact absurd (hunpadded " x ".toList (by decide) (by decide +kernel)) (by decide)

end Buzz.Workflow
