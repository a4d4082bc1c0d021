import Buzz.Core.GitPerms

/-!
# Ref patterns mean what the grammar says

A pattern is its segments with slashes between them, and parsing is the way back: it
gives exactly the segments that spell the text. Matching then comes down to one
relation between the segments of the pattern and those of the ref. The parser admits
`**` at the end only, and so the arms that would panic are never reached.
-/

namespace Buzz.Core

variable {segments : List PatternSegment} {parts : List (List Char)} {pattern refName : String}

namespace PatternSegment

/-- A segment as it is written. -/
def text : PatternSegment → List Char
  | literal text => text
  | wildcard => ['*']
  | recursiveWildcard => ['*', '*']

/-- A literal has characters, and none but letters, digits, `.`, `_` and `-`. -/
def Valid : PatternSegment → Prop
  | literal text => text ≠ [] ∧ ∀ c ∈ text, isLiteralChar c = true
  | wildcard => True
  | recursiveWildcard => True

def isWildcard : PatternSegment → Bool
  | literal _ => false
  | wildcard => true
  | recursiveWildcard => true

theorem Valid.ne_glob {text : List Char} (h : (literal text).Valid) :
    text ≠ ['*', '*'] ∧ text ≠ ['*'] := by
  constructor
  · rintro rfl
    exact absurd (h.2 '*' List.mem_cons_self) (by decide)
  · rintro rfl
    exact absurd (h.2 '*' List.mem_cons_self) (by decide)

theorem slash_not_mem_text {segment : PatternSegment} (h : segment.Valid) :
    '/' ∉ segment.text := by
  cases segment with
  | literal text => exact fun hmem => absurd (h.2 '/' hmem) (by decide)
  | wildcard => decide
  | recursiveWildcard => decide

end PatternSegment

/-- The text of a pattern and its segments, by the grammar. -/
structure InGrammar (pattern : String) (segments : List PatternSegment) : Prop where
  text : pattern.toList = ['/'].intercalate (segments.map PatternSegment.text)
  ne_nil : segments ≠ []
  valid : ∀ segment ∈ segments, segment.Valid
  recursive_last : .recursiveWildcard ∉ segments.dropLast
  wildcards : segments.countP PatternSegment.isWildcard ≤ maxWildcardsPerPattern
  start : "refs/".toList <+: pattern.toList
  size : pattern.utf8ByteSize ≤ maxPatternLength

/-! ## Parsing -/

theorem parseSegments_text {n : Nat} (hvalid : ∀ segment ∈ segments, segment.Valid)
    (hlast : .recursiveWildcard ∉ segments.dropLast)
    (hwild : n + segments.countP PatternSegment.isWildcard ≤ maxWildcardsPerPattern) :
    parseSegments n (segments.map PatternSegment.text) = .ok segments := by
  induction segments generalizing n with
  | nil => rfl
  | cons segment segments ih =>
      have hrest : .recursiveWildcard ∉ segments.dropLast := by
        cases segments with
        | nil => exact List.not_mem_nil
        | cons next rest =>
            rw [List.dropLast_cons_of_ne_nil (List.cons_ne_nil next rest)] at hlast
            exact fun h => hlast (List.mem_cons_of_mem _ h)
      have hvalid' := fun s hs => hvalid s (List.mem_cons_of_mem _ hs)
      cases segment with
      | literal text =>
          have htext := hvalid _ List.mem_cons_self
          have hall : text.all isLiteralChar = true := List.all_eq_true.2 htext.2
          rw [List.countP_cons_of_neg Bool.false_ne_true] at hwild
          show parseSegments n (text :: segments.map PatternSegment.text) = _
          rw [parseSegments, if_neg htext.ne_glob.1, if_neg htext.ne_glob.2, hall,
            decide_eq_false htext.1, ih hvalid' hrest hwild]
          rfl
      | wildcard =>
          rw [List.countP_cons_of_pos rfl] at hwild
          show parseSegments n (['*'] :: segments.map PatternSegment.text) = _
          rw [parseSegments, if_neg (by decide), if_pos rfl, if_neg (by omega),
            ih hvalid' hrest (by omega)]
          rfl
      | recursiveWildcard =>
          rw [List.countP_cons_of_pos rfl] at hwild
          -- It is the last one.
          cases segments with
          | nil =>
              show parseSegments n [['*', '*']] = _
              rw [parseSegments, if_pos rfl, if_neg (not_not_intro rfl), if_neg (by omega)]
          | cons next rest =>
              rw [List.dropLast_cons_of_ne_nil (List.cons_ne_nil next rest)] at hlast
              exact absurd List.mem_cons_self hlast

theorem map_eq_ok {ε α β : Type} {x : Except ε α} {f : α → β} {b : β} (h : x.map f = .ok b) :
    ∃ a, x = .ok a ∧ f a = b := by
  cases x with
  | error e => cases h
  | ok a => exact ⟨a, rfl, Except.ok.inj h⟩

theorem of_parseSegments {n : Nat} (hn : n ≤ maxWildcardsPerPattern)
    (h : parseSegments n parts = .ok segments) :
    parts = segments.map PatternSegment.text ∧ (∀ segment ∈ segments, segment.Valid) ∧
      n + segments.countP PatternSegment.isWildcard ≤ maxWildcardsPerPattern := by
  induction parts generalizing n segments with
  | nil =>
      cases h
      exact ⟨rfl, nofun, hn⟩
  | cons part parts ih =>
      rw [parseSegments] at h
      split at h
      · next hpart =>
          split at h
          · cases h
          · next hlast =>
              rw [not_ne_iff] at hlast
              split at h
              · cases h
              · next hroom =>
                  cases h
                  refine ⟨by rw [hpart, hlast]; rfl, ?_, ?_⟩
                  · intro segment hsegment
                    rw [List.mem_singleton.1 hsegment]
                    trivial
                  · show n + 1 ≤ _
                    omega
      · split at h
        · next hpart =>
            split at h
            · cases h
            · next hroom =>
                obtain ⟨rest, hrest, rfl⟩ := map_eq_ok h
                obtain ⟨htext, hvalid, hcount⟩ := ih (by omega) hrest
                refine ⟨by rw [hpart, htext]; rfl, ?_, ?_⟩
                · intro segment hsegment
                  rcases List.mem_cons.1 hsegment with rfl | hsegment
                  · trivial
                  · exact hvalid segment hsegment
                · rw [List.countP_cons_of_pos rfl]
                  omega
        · split at h
          · cases h
          · next hliteral =>
              rw [Bool.or_eq_true, not_or, decide_eq_true_eq, Bool.not_eq_true', Bool.not_eq_false]
                at hliteral
              obtain ⟨rest, hrest, rfl⟩ := map_eq_ok h
              obtain ⟨htext, hvalid, hcount⟩ := ih hn hrest
              refine ⟨by rw [htext]; rfl, ?_, ?_⟩
              · intro segment hsegment
                rcases List.mem_cons.1 hsegment with rfl | hsegment
                · exact ⟨hliteral.1, List.all_eq_true.1 hliteral.2⟩
                · exact hvalid segment hsegment
              · rw [List.countP_cons_of_neg Bool.false_ne_true]
                exact hcount

theorem splitOn_of_inGrammar (h : InGrammar pattern segments) :
    pattern.toList.splitOn '/' = segments.map PatternSegment.text := by
  rw [h.text]
  refine List.splitOn_intercalate '/' (fun part hpart => ?_) ?_
  · obtain ⟨segment, hsegment, rfl⟩ := List.mem_map.1 hpart
    exact PatternSegment.slash_not_mem_text (h.valid segment hsegment)
  · exact fun hnil => h.ne_nil (List.map_eq_nil_iff.1 hnil)

namespace RefPattern

/-- What the parser accepts is the grammar, and what it makes of it are the segments. -/
theorem parse_eq_ok_iff : (∃ p, parse pattern = .ok p ∧ p.segments = segments) ↔
    InGrammar pattern segments := by
  unfold parse
  constructor
  · rintro ⟨p, hp, rfl⟩
    split at hp
    · cases hp
    · split at hp
      · cases hp
      · next hsize =>
          split at hp
          · cases hp
          · next hstart =>
              rw [Bool.not_eq_true', Bool.not_eq_false, decide_eq_true_eq] at hstart
              split at hp
              · next parsed hparsed =>
                  cases hp
                  obtain ⟨htext, hvalid, hcount⟩ := of_parseSegments (Nat.zero_le _) hparsed
                  rw [Nat.zero_add] at hcount
                  refine ⟨?_, ?_, hvalid, Core.recursive_last hparsed, hcount, hstart,
                    Nat.not_lt.1 hsize⟩
                  · show pattern.toList = ['/'].intercalate (parsed.map PatternSegment.text)
                    rw [← htext, List.intercalate_splitOn]
                  · rintro rfl
                    exact absurd htext (List.splitOn_ne_nil _ _)
              · cases hp
  · intro h
    have hne : ¬ pattern.isEmpty = true := by
      rw [String.isEmpty_iff]
      rintro rfl
      exact absurd h.start (by decide)
    have hparse : parseSegments 0 (pattern.toList.splitOn '/') = .ok segments := by
      rw [splitOn_of_inGrammar h]
      exact parseSegments_text h.valid h.recursive_last (by rw [Nat.zero_add]; exact h.wildcards)
    rw [if_neg hne, if_neg (Nat.not_lt.2 h.size), decide_eq_true h.start]
    refine ⟨⟨pattern, segments, h.recursive_last⟩, ?_, rfl⟩
    rw [if_neg (by decide)]
    split
    · next parsed hparsed =>
        rw [hparse] at hparsed
        cases hparsed
        rfl
    · next e herror =>
        rw [hparse] at herror
        cases herror

end RefPattern

/-! ## Matching -/

/-- The segments of a pattern against those of a ref: a literal is itself, `*` is one
segment, and `**` is all that is left, at least one. -/
inductive SegmentsMatch : List PatternSegment → List (List Char) → Prop
  | done : SegmentsMatch [] []
  | literal {segments : List PatternSegment} {ref : List (List Char)} (text : List Char)
      (rest : SegmentsMatch segments ref) : SegmentsMatch (.literal text :: segments) (text :: ref)
  | wildcard {segments : List PatternSegment} {ref : List (List Char)} (segment : List Char)
      (rest : SegmentsMatch segments ref) : SegmentsMatch (.wildcard :: segments) (segment :: ref)
  | recursiveWildcard (segment : List Char) (ref : List (List Char)) :
      SegmentsMatch [.recursiveWildcard] (segment :: ref)

/-- A ref is cut into segments at its slashes. -/
structure CutInto (refName : String) (ref : List (List Char)) : Prop where
  text : refName.toList = ['/'].intercalate ref
  ne_nil : ref ≠ []
  slash_free : ∀ segment ∈ ref, '/' ∉ segment

theorem slash_not_mem_of_mem_splitOn {text segment : List Char}
    (h : segment ∈ text.splitOn '/') : '/' ∉ segment := by
  induction text generalizing segment with
  | nil =>
      rw [List.mem_singleton.1 h]
      exact List.not_mem_nil
  | cons c text ih =>
      rw [List.splitOn_cons_eq_if_modifyHead] at h
      split at h
      · rcases List.mem_cons.1 h with rfl | h
        · exact List.not_mem_nil
        · exact ih h
      · next hc =>
          rw [beq_iff_eq] at hc
          -- The character joins the first segment of what follows.
          obtain ⟨first, rest, hsplit⟩ := List.exists_cons_of_ne_nil (List.splitOn_ne_nil '/' text)
          rw [hsplit, List.modifyHead_cons, List.mem_cons] at h
          rw [hsplit] at ih
          rcases h with rfl | h
          · rw [List.mem_cons, not_or]
            exact ⟨fun heq => hc heq.symm, ih List.mem_cons_self⟩
          · exact ih (List.mem_cons_of_mem _ h)

theorem cutInto_iff {ref : List (List Char)} :
    CutInto refName ref ↔ ref = refName.toList.splitOn '/' := by
  constructor
  · intro h
    rw [h.text, List.splitOn_intercalate '/' h.slash_free h.ne_nil]
  · rintro rfl
    exact ⟨(List.intercalate_splitOn '/').symm, List.splitOn_ne_nil _ _,
      fun _ => slash_not_mem_of_mem_splitOn⟩

namespace RefPattern

/-- One segment of a pattern that is not `**`, and the rest. -/
theorem segmentsMatch_cons {segment : PatternSegment} (hsegment : segment ≠ .recursiveWildcard)
    {first : List Char} {ref : List (List Char)} :
    SegmentsMatch (segment :: segments) (first :: ref) ↔
      segmentMatches (segment, first) = true ∧ SegmentsMatch segments ref := by
  cases segment with
  | literal text =>
      show _ ↔ (text == first) = true ∧ _
      rw [beq_iff_eq]
      constructor
      · intro h
        cases h with
        | literal _ rest => exact ⟨rfl, rest⟩
      · rintro ⟨rfl, rest⟩
        exact .literal text rest
  | wildcard =>
      constructor
      · intro h
        cases h with
        | wildcard _ rest => exact ⟨rfl, rest⟩
      · exact fun h => .wildcard first h.2
  | recursiveWildcard => exact absurd rfl hsegment

theorem not_segmentsMatch_nil {segment : PatternSegment} :
    ¬ SegmentsMatch (segment :: segments) [] := nofun

/-- Without `**` the ref has as many segments, and each of them matches. -/
theorem segmentsMatch_plain (hplain : .recursiveWildcard ∉ segments) (ref : List (List Char)) :
    SegmentsMatch segments ref ↔
      ref.length = segments.length ∧ (segments.zip ref).all segmentMatches = true := by
  induction segments generalizing ref with
  | nil =>
      cases ref with
      | nil => exact ⟨fun _ => ⟨rfl, rfl⟩, fun _ => .done⟩
      | cons first ref => exact ⟨nofun, nofun⟩
  | cons segment segments ih =>
      rw [List.mem_cons, not_or] at hplain
      cases ref with
      | nil => exact ⟨nofun, nofun⟩
      | cons first ref =>
          rw [segmentsMatch_cons fun h => hplain.1 h.symm, ih hplain.2, List.length_cons,
            List.length_cons, List.zip_cons_cons, List.all_cons, Bool.and_eq_true,
            Nat.add_right_cancel_iff]
          exact and_left_comm

/-- With `**` at the end there is at least one segment more. -/
theorem segmentsMatch_recursive (hplain : .recursiveWildcard ∉ segments)
    (ref : List (List Char)) :
    SegmentsMatch (segments ++ [.recursiveWildcard]) ref ↔
      segments.length < ref.length ∧
        (segments.zip (ref.take segments.length)).all segmentMatches = true := by
  induction segments generalizing ref with
  | nil =>
      cases ref with
      | nil => exact ⟨nofun, nofun⟩
      | cons first ref =>
          exact ⟨fun _ => ⟨Nat.succ_pos _, rfl⟩, fun _ => .recursiveWildcard first ref⟩
  | cons segment segments ih =>
      rw [List.mem_cons, not_or] at hplain
      cases ref with
      | nil => exact ⟨fun h => absurd h not_segmentsMatch_nil, fun h => absurd h.1 nofun⟩
      | cons first ref =>
          rw [List.cons_append, segmentsMatch_cons fun h => hplain.1 h.symm, ih hplain.2,
            List.length_cons, List.length_cons, List.take_succ_cons, List.zip_cons_cons,
            List.all_cons, Bool.and_eq_true, Nat.add_lt_add_iff_right]
          exact and_left_comm

theorem allMatchOrPanic_eq {pairs : List (PatternSegment × List Char)}
    (hplain : ∀ pair ∈ pairs, pair.1 ≠ .recursiveWildcard) :
    allMatchOrPanic pairs = some (pairs.all segmentMatches) := by
  induction pairs with
  | nil => rfl
  | cons pair pairs ih =>
      obtain ⟨segment, first⟩ := pair
      have hrest := ih fun pair hpair => hplain pair (List.mem_cons_of_mem _ hpair)
      have hfirst := hplain _ List.mem_cons_self
      rw [List.all_cons]
      cases segment with
      | recursiveWildcard => exact absurd rfl hfirst
      | literal text =>
          show (if segmentMatches (.literal text, first) then allMatchOrPanic pairs
            else some false) = _
          rw [hrest]
          cases segmentMatches (.literal text, first) <;> rfl
      | wildcard =>
          show (if segmentMatches (.wildcard, first) then allMatchOrPanic pairs
            else some false) = _
          rw [hrest]
          cases segmentMatches (.wildcard, first) <;> rfl

/-- `**` is the last segment, or there is none. -/
theorem segments_cases (p : RefPattern) :
    (∃ init, p.segments = init ++ [.recursiveWildcard] ∧ .recursiveWildcard ∉ init) ∨
      (p.segments.getLast? ≠ some .recursiveWildcard ∧ .recursiveWildcard ∉ p.segments) := by
  have hlast := p.recursive_last
  by_cases h : p.segments.getLast? = some .recursiveWildcard
  · obtain ⟨init, hinit⟩ := List.getLast?_eq_some_iff.1 h
    rw [hinit, List.dropLast_concat] at hlast
    exact .inl ⟨init, hinit, hlast⟩
  · refine .inr ⟨h, fun hmem => ?_⟩
    have hne : p.segments ≠ [] := List.ne_nil_of_mem hmem
    rw [← List.dropLast_append_getLast hne] at hmem
    rcases List.mem_append.1 hmem with hmem | hmem
    · exact hlast hmem
    · rw [List.getLast?_eq_getLast_of_ne_nil hne, ← List.mem_singleton.1 hmem] at h
      exact h rfl

theorem matches_spec (p : RefPattern) (refName : String) :
    (p.matchesRef refName = true ↔ SegmentsMatch p.segments (refName.toList.splitOn '/')) ∧
      p.matchesOrPanic refName = some (p.matchesRef refName) := by
  unfold matchesRef matchesOrPanic
  dsimp only
  generalize refName.toList.splitOn '/' = ref
  rcases p.segments_cases with ⟨init, hsegments, hplain⟩ | ⟨hlast, hplain⟩
  · have hlength : p.segments.length - 1 = init.length := by
      rw [hsegments, List.length_append]
      rfl
    have htake : p.segments.take init.length = init := by
      rw [hsegments, List.take_left]
    have hzip : ∀ pair ∈ init.zip (ref.take init.length), pair.1 ≠ .recursiveWildcard :=
      fun pair hpair heq => hplain (heq ▸ (List.of_mem_zip hpair).1)
    have hgetLast : p.segments.getLast? = some .recursiveWildcard := by
      rw [hsegments, List.getLast?_append, List.getLast?_singleton]
      rfl
    rw [if_pos hgetLast, if_pos hgetLast, hlength, htake, allMatchOrPanic_eq hzip, hsegments,
      segmentsMatch_recursive hplain]
    split
    · next hshort => exact ⟨⟨nofun, fun h => absurd h.1 (Nat.not_lt.2 hshort)⟩, rfl⟩
    · next hlong => exact ⟨⟨fun h => ⟨Nat.not_le.1 hlong, h⟩, fun h => h.2⟩, rfl⟩
  · have hzip : ∀ pair ∈ p.segments.zip ref, pair.1 ≠ .recursiveWildcard :=
      fun pair hpair heq => hplain (heq ▸ (List.of_mem_zip hpair).1)
    rw [if_neg hlast, if_neg hlast, allMatchOrPanic_eq hzip, segmentsMatch_plain hplain]
    split
    · next hne => exact ⟨⟨nofun, fun h => absurd h.1 hne⟩, rfl⟩
    · next heq =>
        rw [not_ne_iff] at heq
        exact ⟨⟨fun h => ⟨heq, h⟩, fun h => h.2⟩, rfl⟩

end RefPattern

/-- The parser accepts the grammar and gives the segments; and a parsed pattern matches
the refs that can be cut to fit them, without a panic. -/
theorem ref_patterns_mean_grammar (pattern : String) :
    (∀ segments, (∃ p, RefPattern.parse pattern = .ok p ∧ p.segments = segments) ↔
      InGrammar pattern segments) ∧
    ∀ p, RefPattern.parse pattern = .ok p → ∀ refName,
      (p.matchesRef refName = true ↔
        ∃ ref, CutInto refName ref ∧ SegmentsMatch p.segments ref) ∧
      p.matchesOrPanic refName = some (p.matchesRef refName) := by
  refine ⟨fun segments => RefPattern.parse_eq_ok_iff, fun p _ refName => ?_⟩
  obtain ⟨hmatches, hpanic⟩ := p.matches_spec refName
  refine ⟨?_, hpanic⟩
  rw [hmatches]
  constructor
  · exact fun h => ⟨_, cutInto_iff.2 rfl, h⟩
  · rintro ⟨ref, hcut, h⟩
    rw [← cutInto_iff.1 hcut]
    exact h

example : ((RefPattern.parse "refs/heads/*").toOption.map
    (·.matchesRef "refs/heads/main")) = some true := by decide +kernel

end Buzz.Core
