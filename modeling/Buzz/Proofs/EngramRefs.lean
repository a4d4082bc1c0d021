import Buzz.Core.Engram
import Buzz.Proofs.AuditEncoding
import Mathlib.Algebra.Group.Nat.Even

/-!
# The references of a body

The scanner takes brackets in pairs, from the left. At an opening bracket it is
always an even number of brackets into a run of them (`InPhase`): so it opens at
every second bracket of a run only, and a reference is found exactly when an
even number of opening brackets stands directly before it. The text of a valid
slug has no bracket, so the pair behind it is the one the scanner closes at.

A bracket is a byte below 128, and such a byte is a character of its own: the
cuts never go through a character.
-/

namespace Buzz.Core.Engram

open Buzz.Audit (utf8 utf8_append utf8_injective)
open Buzz.Lib

/-! ## Bytes and characters -/

theorem utf8_cons (c : Char) (s : List Char) : utf8 (c :: s) = String.utf8EncodeChar c ++ utf8 s :=
  List.flatMap_cons

theorem utf8EncodeChar_of_mem {c : Char} {b : UInt8} (h : b ∈ String.utf8EncodeChar c)
    (hb : b.toNat < 128) : String.utf8EncodeChar c = [b] := by
  -- every byte of a longer code has its highest bit set
  have hhigh : ∀ n m : Nat, n < 128 → 128 ≤ m → n + m < 256 → b ≠ UInt8.ofNat (n + m) := by
    intro n m hn hm hlt heq
    rw [heq, UInt8.toNat_ofNat_of_lt' hlt] at hb
    omega
  unfold String.utf8EncodeChar at h ⊢
  simp only [] at h ⊢
  split at h
  · next hascii => rw [if_pos hascii, List.mem_singleton.1 h]
  · exfalso
    split at h
    · simp only [List.mem_cons, List.not_mem_nil, or_false] at h
      rcases h with h | h <;> exact hhigh _ _ (by omega) (by omega) (by omega) h
    · split at h
      · simp only [List.mem_cons, List.not_mem_nil, or_false] at h
        rcases h with h | h | h <;> exact hhigh _ _ (by omega) (by omega) (by omega) h
      · simp only [List.mem_cons, List.not_mem_nil, or_false] at h
        rcases h with h | h | h | h <;> exact hhigh _ _ (by omega) (by omega) (by omega) h

theorem exists_char_of_utf8 {body : List Char} {before after : List UInt8} {b : UInt8}
    (h : utf8 body = before ++ b :: after) (hb : b.toNat < 128) :
    ∃ front c rest, body = front ++ c :: rest ∧ utf8 front = before ∧
      String.utf8EncodeChar c = [b] ∧ utf8 rest = after := by
  induction body generalizing before with
  | nil => cases before <;> cases h
  | cons d body ih =>
      rw [utf8_cons] at h
      -- the byte belongs to the first character, or to one of the others
      obtain ⟨middle, rfl, hrest⟩ | ⟨middle, hchar, hrest⟩ := List.append_eq_append_iff.1 h
      · obtain ⟨front, c, rest, rfl, rfl, hc, hafter⟩ := ih hrest
        exact ⟨d :: front, c, rest, rfl, utf8_cons d front, hc, hafter⟩
      · cases middle with
        | nil =>
            obtain ⟨front, c, rest, rfl, hfront, hc, hafter⟩ := @ih [] hrest.symm
            refine ⟨d :: front, c, rest, rfl, ?_, hc, hafter⟩
            rw [utf8_cons, hfront, hchar, List.append_nil, List.append_nil]
        | cons b' middle =>
            obtain ⟨rfl, rfl⟩ := List.cons.inj hrest
            have hone := utf8EncodeChar_of_mem
              (hchar ▸ List.mem_append_right before List.mem_cons_self) hb
            rw [hone] at hchar
            obtain ⟨rfl, hmiddle⟩ | ⟨-, hnil⟩ := List.append_eq_singleton_iff.1 hchar.symm
            · obtain rfl : middle = [] := (List.cons.inj hmiddle).2
              exact ⟨[], d, body, rfl, rfl, hone, rfl⟩
            · cases hnil

/-- A text is cut at the byte of an ASCII character. -/
theorem exists_cut_at {body : List Char} {before after : List UInt8} (d : Char) {b : UInt8}
    (hd : String.utf8EncodeChar d = [b]) (hb : b.toNat < 128)
    (h : utf8 body = before ++ b :: after) :
    ∃ front rest, body = front ++ d :: rest ∧ utf8 front = before ∧ utf8 rest = after := by
  obtain ⟨front, c, rest, hbody, hfront, hc, hafter⟩ := exists_char_of_utf8 h hb
  have hchar : utf8 [c] = utf8 [d] := by
    rw [utf8_cons, utf8_cons, hc, hd]
  obtain rfl := (List.cons.inj (utf8_injective hchar)).1
  exact ⟨front, rest, hbody, hfront, hafter⟩

theorem exists_cut_of_getElem? {body : List Char} {n : Nat} (d : Char) {b : UInt8}
    (hd : String.utf8EncodeChar d = [b]) (hb : b.toNat < 128) (h : (utf8 body)[n]? = some b) :
    ∃ front rest, body = front ++ d :: rest ∧ (utf8 front).length = n ∧
      utf8 rest = (utf8 body).drop (n + 1) := by
  obtain ⟨hlt, hbyte⟩ := List.getElem?_eq_some_iff.1 h
  have hbytes : utf8 body = (utf8 body).take n ++ b :: (utf8 body).drop (n + 1) := by
    rw [← hbyte, ← List.drop_eq_getElem_cons hlt, List.take_append_drop]
  obtain ⟨front, rest, hbody, hfront, hrest⟩ := exists_cut_at d hd hb hbytes
  refine ⟨front, rest, hbody, ?_, hrest⟩
  rw [hfront, List.length_take, Nat.min_eq_left (Nat.le_of_lt hlt)]

theorem exists_cons_of_head {body : List Char} (d : Char) {b : UInt8}
    (hd : String.utf8EncodeChar d = [b]) (hb : b.toNat < 128) (h : (utf8 body)[0]? = some b) :
    ∃ rest, body = d :: rest ∧ utf8 rest = (utf8 body).drop 1 := by
  obtain ⟨front, rest, hbody, hfront, hrest⟩ := exists_cut_of_getElem? d hd hb h
  cases front with
  | nil => exact ⟨rest, hbody, hrest⟩
  | cons c front =>
      have hpos := c.utf8Size_pos
      have hlength := String.length_utf8EncodeChar c
      rw [utf8_cons, List.length_append] at hfront
      omega

/-- As many opening brackets end the text as end its bytes. -/
theorem trailing_utf8 (s : List Char) : trailing openBracket (utf8 s) = trailing '[' s := by
  induction s using List.reverseRecOn with
  | nil => rfl
  | append_singleton s c ih =>
      rw [utf8_append]
      by_cases hc : c = '['
      · subst hc
        show trailing openBracket (utf8 s ++ [openBracket]) = _
        rw [trailing_append_self, trailing_append_self, ih]
      · rw [trailing_append_of_ne s hc]
        -- the last byte of another character is not a bracket
        obtain ⟨bytes, b, hbytes⟩ : ∃ bytes b, utf8 [c] = bytes ++ [b] :=
          ⟨_, _, (List.dropLast_concat_getLast (by
            rw [utf8_cons]
            exact List.append_ne_nil_of_left_ne_nil String.utf8EncodeChar_ne_nil _)).symm⟩
        have hb : b ≠ openBracket := by
          rintro rfl
          obtain ⟨front, rest, hbody, -, -⟩ := exists_cut_at '[' (by decide) (by decide) hbytes
          obtain ⟨-, heq⟩ | ⟨-, heq⟩ := List.append_eq_singleton_iff.1 hbody.symm
          · exact hc (List.cons.inj heq).1.symm
          · cases heq
        rw [hbytes, ← List.append_assoc, trailing_append_of_ne _ hb]

theorem length_utf8_cons (c : Char) (s : List Char) :
    (utf8 (c :: s)).length = c.utf8Size + (utf8 s).length := by
  rw [utf8_cons, List.length_append, String.length_utf8EncodeChar]

theorem dropBytes_append (front rest : List Char) :
    dropBytes (front ++ rest) (utf8 front).length = some rest := by
  induction front with
  | nil => cases rest <;> rfl
  | cons c front ih =>
      have hpos := c.utf8Size_pos
      rw [length_utf8_cons]
      obtain ⟨n, hn⟩ : ∃ n, c.utf8Size + (utf8 front).length = n + 1 :=
        Nat.exists_eq_add_one.2 (by omega)
      rw [hn, List.cons_append, dropBytes, if_pos (by omega), ← hn, Nat.add_sub_cancel_left, ih]

theorem takeBytes_append (s rest : List Char) :
    takeBytes (s ++ rest) (utf8 s).length = some s := by
  induction s with
  | nil => cases rest <;> rfl
  | cons c s ih =>
      have hpos := c.utf8Size_pos
      rw [length_utf8_cons]
      obtain ⟨n, hn⟩ : ∃ n, c.utf8Size + (utf8 s).length = n + 1 :=
        Nat.exists_eq_add_one.2 (by omega)
      rw [hn, List.cons_append, takeBytes, if_pos (by omega), ← hn, Nat.add_sub_cancel_left, ih]
      rfl

theorem slice_append (front s rest : List Char) {start stop : Nat}
    (hstart : start = (utf8 front).length) (hstop : stop = start + (utf8 s).length) :
    slice (front ++ s ++ rest) start stop = some s := by
  rw [slice, hstop, Nat.add_sub_cancel_left, hstart, List.append_assoc, dropBytes_append]
  exact takeBytes_append s rest

/-! ## Slugs -/

theorem forall_noBracket {bytes : List UInt8}
    (h : bytes.all (fun b => b != openBracket && b != closeBracket) = true) :
    ∀ b ∈ bytes, b ≠ openBracket ∧ b ≠ closeBracket := by
  intro b hb
  have hbyte := List.all_eq_true.1 h b hb
  rwa [Bool.and_eq_true, bne_iff_ne, bne_iff_ne] at hbyte

theorem isLowerAlnum_ne {b : UInt8} (h : isLowerAlnum b = true) :
    b ≠ openBracket ∧ b ≠ closeBracket := by
  constructor
  · rintro rfl
    revert h
    decide
  · rintro rfl
    revert h
    decide

theorem validateSegment_bytes {s : List Char} (h : validateSegment s = .ok ()) :
    ∀ b ∈ utf8 s, b ≠ openBracket ∧ b ≠ closeBracket := by
  unfold validateSegment at h
  intro b hb
  split at h
  · cases h
  · next first rest hbytes =>
      rw [hbytes] at hb
      split_ifs at h with hlength hfirst hrest
      rcases List.mem_cons.1 hb with rfl | hb
      · exact isLowerAlnum_ne (by simpa using hfirst)
      · simp only [List.any_eq_true, not_exists, not_and, Bool.not_eq_true,
          Bool.not_eq_false'] at hrest
        have hallowed := hrest b hb
        simp only [Bool.or_eq_true, beq_iff_eq] at hallowed
        rcases hallowed with (hallowed | rfl) | rfl
        · exact isLowerAlnum_ne hallowed
        · decide
        · decide

theorem validateSegments_bytes {index : Nat} {segments : List (List Char)}
    (h : validateSegments index segments = .ok ()) {segment : List Char}
    (hmem : segment ∈ segments) : ∀ b ∈ utf8 segment, b ≠ openBracket ∧ b ≠ closeBracket := by
  induction segments generalizing index with
  | nil => cases hmem
  | cons first rest ih =>
      rw [validateSegments] at h
      split at h
      · cases h
      · next hfirst =>
          rcases List.mem_cons.1 hmem with rfl | hmem
          · exact validateSegment_bytes hfirst
          · exact ih h hmem

/-- What joins the segments, and what is in them. -/
theorem mem_splitOn {c : Char} {text : List Char} (h : c ∈ text) :
    c = '/' ∨ ∃ segment ∈ text.splitOn '/', c ∈ segment := by
  rw [← @List.intercalate_splitOn _ text _ _ '/'] at h
  generalize text.splitOn '/' = segments at h
  induction segments with
  | nil => cases h
  | cons first rest ih =>
      cases rest with
      | nil =>
          rw [List.intercalate_singleton] at h
          exact .inr ⟨first, List.mem_cons_self, h⟩
      | cons second rest =>
          rw [List.intercalate_cons_cons, List.mem_append, List.mem_append] at h
          rcases h with (h | h) | h
          · exact .inr ⟨first, List.mem_cons_self, h⟩
          · exact .inl (List.mem_singleton.1 h)
          · obtain heq | ⟨segment, hsegment, hc⟩ := ih h
            · exact .inl heq
            · exact .inr ⟨segment, List.mem_cons_of_mem _ hsegment, hc⟩

theorem validateSlug_bytes {s : List Char} (h : validateSlug s = .ok ()) :
    ∀ b ∈ utf8 s, b ≠ openBracket ∧ b ≠ closeBracket := by
  unfold validateSlug at h
  split at h
  · next hcore =>
      rw [hcore]
      exact forall_noBracket (by decide)
  · split at h
    · cases h
    · split at h
      · cases h
      · next rest hrest =>
          split at h
          · cases h
          · obtain ⟨start, hslug, hstart⟩ := List.dropPrefix?_eq_some_iff.1 hrest
            rw [beq_iff_eq] at hstart
            rw [hslug, hstart, utf8_append]
            intro b hb
            rcases List.mem_append.1 hb with hb | hb
            · exact forall_noBracket (by decide) b hb
            · obtain ⟨c, hc, hb⟩ := List.mem_flatMap.1 hb
              obtain rfl | ⟨segment, hsegment, hc⟩ := mem_splitOn hc
              · exact forall_noBracket (by decide) b hb
              · exact validateSegments_bytes h hsegment b (List.mem_flatMap.2 ⟨c, hc, hb⟩)

theorem validateSlug_ne_nil {s : List Char} (h : validateSlug s = .ok ()) : s ≠ [] := by
  rintro rfl
  revert h
  decide

/-! ## The inner loop -/

section

variable {bytes : List UInt8} {b : UInt8} {i j k : Nat}

theorem twiceAt_iff : twiceAt b bytes i = true ↔ bytes[i]? = some b ∧ bytes[i + 1]? = some b := by
  unfold twiceAt
  rw [Bool.and_eq_true, decide_eq_true_iff, decide_eq_true_iff]

theorem twiceAt_lt (h : twiceAt b bytes i = true) : i + 1 < bytes.length :=
  (List.getElem?_eq_some_iff.1 (twiceAt_iff.1 h).2).1

theorem closesAt_spec (h : closesAt bytes j = some k) :
    twiceAt closeBracket bytes k = true ∧
      ∀ m, j ≤ m → m < k → twiceAt openBracket bytes m = false := by
  fun_induction closesAt bytes j with
  | case1 => cases h
  | case2 j hlt hopen hclose =>
      cases h
      exact ⟨hclose, fun m hjm hmj => absurd hmj (Nat.not_lt_of_le hjm)⟩
  | case3 j hlt hopen hclose ih =>
      obtain ⟨hk, hbefore⟩ := ih h
      refine ⟨hk, fun m hjm hmk => ?_⟩
      rcases Nat.eq_or_lt_of_le hjm with rfl | hjm
      · exact Bool.eq_false_of_not_eq_true hopen
      · exact hbefore m hjm hmk
  | case4 => cases h

theorem closesAt_eq_some (hjk : j ≤ k) (hclose : twiceAt closeBracket bytes k = true)
    (hbefore : ∀ m, j ≤ m → m < k → bytes[m]? ≠ some openBracket ∧ bytes[m]? ≠ some closeBracket) :
    closesAt bytes j = some k := by
  have hlt := twiceAt_lt hclose
  induction hjk using Nat.decreasingInduction with
  | self =>
      have hopen : ¬twiceAt openBracket bytes k = true := by
        rw [twiceAt_iff, (twiceAt_iff.1 hclose).1]
        rintro ⟨heq, -⟩
        cases heq
      rw [closesAt, if_pos hlt, if_neg hopen, if_pos hclose]
  | of_succ j hjk ih =>
      obtain ⟨hopen, hclose'⟩ := hbefore j (Nat.le_refl j) hjk
      rw [closesAt, if_pos (by omega), if_neg fun h => hopen (twiceAt_iff.1 h).1,
        if_neg fun h => hclose' (twiceAt_iff.1 h).1]
      exact ih fun m hjm => hbefore m (Nat.le_of_succ_le hjm)

end

/-! ## References -/

/-- The slug `s` stands in double brackets between `before` and `after`, and an
even number of opening brackets stands directly before them. -/
structure RefBetween (body before s after : List Char) : Prop where
  eq : body = before ++ "[[".toList ++ s ++ "]]".toList ++ after
  even : Even (trailing '[' before)
  valid : validateSlug s = .ok ()

/-- A reference that starts at a byte. -/
def RefAt (body : List Char) (p : Nat) (s : List Char) : Prop :=
  ∃ before after, RefBetween body before s after ∧ (utf8 before).length = p

namespace RefAt

variable {body s : List Char} {p : Nat}

section

variable (h : RefAt body p s)
include h

theorem bytes : ∃ before after,
    utf8 body = before ++ ([openBracket, openBracket] ++
      (utf8 s ++ ([closeBracket, closeBracket] ++ after))) ∧
    before.length = p ∧ Even (trailing openBracket before) := by
  obtain ⟨before, after, href, hp⟩ := h
  refine ⟨utf8 before, utf8 after, ?_, hp, by rw [trailing_utf8]; exact href.even⟩
  rw [href.eq]
  simp only [utf8_append, List.append_assoc]
  rfl

theorem twiceAt_open : twiceAt openBracket (utf8 body) p = true := by
  obtain ⟨before, after, hbytes, rfl, -⟩ := h.bytes
  rw [twiceAt_iff, hbytes]
  simp

theorem even : Even (trailing openBracket ((utf8 body).take p)) := by
  obtain ⟨before, after, hbytes, rfl, heven⟩ := h.bytes
  rwa [hbytes, List.take_left]

theorem valid : validateSlug s = .ok () := by
  obtain ⟨_, _, href, -⟩ := h
  exact href.valid

theorem lt_length : p + 4 < (utf8 body).length := by
  have hs : 0 < (utf8 s).length := by
    cases s with
    | nil => exact absurd rfl (validateSlug_ne_nil h.valid)
    | cons c s =>
        rw [length_utf8_cons]
        exact Nat.add_pos_left c.utf8Size_pos _
  obtain ⟨before, after, hbytes, rfl, -⟩ := h.bytes
  rw [hbytes]
  simp only [List.length_append, List.length_cons, List.length_nil]
  omega

/-- The scanner closes at the pair behind the slug. -/
theorem closes :
    closesAt (utf8 body) (p + 2) = some (p + 2 + (utf8 s).length) := by
  obtain ⟨before, after, hbytes, rfl, -⟩ := h.bytes
  have hskip : ∀ m, (utf8 body)[before.length + 2 + m]? =
      (utf8 s ++ ([closeBracket, closeBracket] ++ after))[m]? := by
    intro m
    rw [hbytes, ← List.append_assoc, List.getElem?_append_right (by simp)]
    congr 1
    simp only [List.length_append, List.length_cons, List.length_nil]
    omega
  refine closesAt_eq_some (Nat.le_add_right _ _) ?_ ?_
  · rw [twiceAt_iff, hskip, Nat.add_assoc (before.length + 2), hskip]
    simp
  · intro m hm hlt
    obtain ⟨n, rfl⟩ := Nat.exists_eq_add_of_le hm
    have hn : n < (utf8 s).length := by omega
    rw [hskip, List.getElem?_append_left hn, List.getElem?_eq_getElem hn]
    have hbyte := validateSlug_bytes h.valid _ (List.getElem_mem hn)
    exact ⟨fun heq => hbyte.1 (Option.some.inj heq), fun heq => hbyte.2 (Option.some.inj heq)⟩

theorem slice_eq :
    slice body (p + 2) (p + 2 + (utf8 s).length) = some s := by
  obtain ⟨before, after, href, rfl⟩ := h
  rw [href.eq, List.append_assoc _ "]]".toList]
  refine slice_append _ s _ ?_ rfl
  rw [utf8_append, List.length_append]
  rfl

end

end RefAt

/-- What the scanner cuts out stands in double brackets. -/
theorem exists_candidate {body : List Char} {i j : Nat}
    (hopen : twiceAt openBracket (utf8 body) i = true)
    (hclose : twiceAt closeBracket (utf8 body) j = true) (hij : i + 2 ≤ j) :
    ∃ before s after, body = before ++ "[[".toList ++ s ++ "]]".toList ++ after ∧
      (utf8 before).length = i ∧ i + 2 + (utf8 s).length = j := by
  rw [twiceAt_iff] at hopen hclose
  obtain ⟨before, rest, rfl, hi, hrest⟩ :=
    exists_cut_of_getElem? '[' (by decide) (by decide) hopen.1
  have hsecond : (utf8 rest)[0]? = some openBracket := by
    rw [hrest, List.getElem?_drop]
    exact hopen.2
  obtain ⟨rest, rfl, hrest'⟩ := exists_cons_of_head '[' (by decide) (by decide) hsecond
  rw [hrest, List.drop_drop] at hrest'
  have hfirst : (utf8 rest)[j - (i + 2)]? = some closeBracket := by
    rw [hrest', List.getElem?_drop, Nat.add_sub_cancel' hij]
    exact hclose.1
  obtain ⟨s, rest, rfl, hs, hrest''⟩ :=
    exists_cut_of_getElem? ']' (by decide) (by decide) hfirst
  have hlast : (utf8 rest)[0]? = some closeBracket := by
    rw [hrest'', hrest', List.drop_drop, List.getElem?_drop]
    rw [show i + 1 + 1 + (j - (i + 2) + 1) + 0 = j + 1 by omega]
    exact hclose.2
  obtain ⟨after, rfl, -⟩ := exists_cons_of_head ']' (by decide) (by decide) hlast
  refine ⟨before, s, after, ?_, hi, by omega⟩
  simp

/-! ## Runs of brackets -/

section

variable {bytes : List UInt8} {x y : UInt8} {i j : Nat}

theorem trailing_take_of_eq (h : bytes[i]? = some x) :
    trailing x (bytes.take (i + 1)) = trailing x (bytes.take i) + 1 := by
  rw [List.take_add_one, h]
  exact trailing_append_self _

theorem trailing_take_of_ne (h : bytes[i]? = some y) (hne : y ≠ x) :
    trailing x (bytes.take (i + 1)) = 0 := by
  rw [List.take_add_one, h]
  exact trailing_append_of_ne _ hne

/-- At an opening bracket, the scanner is an even number of them into a run. -/
def InPhase (bytes : List UInt8) (i : Nat) : Prop :=
  bytes[i]? = some openBracket → Even (trailing openBracket (bytes.take i))

theorem InPhase.zero : InPhase bytes 0 := fun _ => ⟨0, rfl⟩

theorem InPhase.succ (hopen : ¬twiceAt openBracket bytes i = true) : InPhase bytes (i + 1) := by
  intro hnext
  rw [twiceAt_iff, not_and] at hopen
  have hlt : i < bytes.length := Nat.lt_of_succ_lt (List.getElem?_eq_some_iff.1 hnext).1
  have hbyte := List.getElem?_eq_getElem hlt
  rw [trailing_take_of_ne hbyte]
  · exact ⟨0, rfl⟩
  · intro heq
    rw [heq] at hbyte
    exact hopen hbyte hnext

theorem InPhase.opened (h : InPhase bytes i) (hopen : twiceAt openBracket bytes i = true) :
    InPhase bytes (i + 2) := by
  intro _
  rw [twiceAt_iff] at hopen
  rw [trailing_take_of_eq hopen.2, trailing_take_of_eq hopen.1]
  exact (h hopen.1).add ⟨1, rfl⟩

theorem InPhase.closed (hclose : twiceAt closeBracket bytes j = true) : InPhase bytes (j + 2) := by
  intro _
  rw [trailing_take_of_ne (twiceAt_iff.1 hclose).2 (by decide)]
  exact ⟨0, rfl⟩

end

/-! ## The outer loop -/

section

variable {body s t : List Char} {i j p : Nat} {out : List (List Char)}

/-- No reference starts at the second bracket of an opening pair. -/
theorem not_refAt_second (hphase : InPhase (utf8 body) i)
    (hopen : twiceAt openBracket (utf8 body) i = true) : ¬RefAt body (i + 1) s := by
  intro href
  rw [twiceAt_iff] at hopen
  have heven := href.even
  rw [trailing_take_of_eq hopen.1] at heven
  exact (Nat.even_add_one.1 heven) (hphase hopen.1)

/-- A reference at an opening pair that closes at `j` is what stands between. -/
theorem refAt_closed (hclose : closesAt (utf8 body) (i + 2) = some j)
    (hslice : slice body (i + 2) j = some s) (href : RefAt body i t) : t = s := by
  have hj : i + 2 + (utf8 t).length = j := Option.some.inj (href.closes.symm.trans hclose)
  have hslice' := href.slice_eq
  rw [hj, hslice] at hslice'
  exact (Option.some.inj hslice').symm

/-- Only one reference starts between an opening pair and the end of the pair it
closes at, and it starts at the opening pair. -/
theorem eq_of_refAt (hphase : InPhase (utf8 body) i)
    (hopen : twiceAt openBracket (utf8 body) i = true)
    (hclose : closesAt (utf8 body) (i + 2) = some j) (hp : i ≤ p) (hlt : p < j + 2)
    (href : RefAt body p t) : p = i := by
  obtain ⟨hclosed, hbetween⟩ := closesAt_spec hclose
  rw [twiceAt_iff] at hclosed
  have htwice := href.twiceAt_open
  have hbyte := (twiceAt_iff.1 htwice).1
  by_contra hne
  rcases Nat.lt_or_ge p (i + 2) with hsecond | hge
  · obtain rfl : p = i + 1 := by omega
    exact not_refAt_second hphase hopen href
  · rcases Nat.lt_or_ge p j with hpj | hpj
    · rw [hbetween p hge hpj] at htwice
      cases htwice
    · -- both bytes of the closing pair are no opening brackets
      obtain rfl | rfl : p = j ∨ p = j + 1 := by omega
      · rw [hclosed.1] at hbyte
        cases hbyte
      · rw [hclosed.2] at hbyte
        cases hbyte

section

variable (hseen : FirstSeen (RefAt body) i out)
include hseen

/-- What one round over a closed pair lists. -/
theorem firstSeen_closed (hphase : InPhase (utf8 body) i)
    (hopen : twiceAt openBracket (utf8 body) i = true)
    (hclose : closesAt (utf8 body) (i + 2) = some j) :
    ∃ s, slice body (i + 2) j = some s ∧ FirstSeen (RefAt body) (j + 2)
      (if validateSlug s = .ok () then pushNew out s else out) := by
  have hij := le_closesAt hclose
  have hlt : i < j + 2 := by omega
  obtain ⟨before, s, after, hbody, hi, hj⟩ := exists_candidate hopen (closesAt_spec hclose).1 hij
  have hslice : slice body (i + 2) j = some s := by
    rw [hbody, List.append_assoc _ "]]".toList]
    refine slice_append _ s _ ?_ hj.symm
    rw [utf8_append, List.length_append, hi]
    rfl
  refine ⟨s, hslice, ?_⟩
  split
  · next hvalid =>
      have heven : Even (trailing '[' before) := by
        have heven := hphase (twiceAt_iff.1 hopen).1
        rwa [hbody, List.append_assoc, List.append_assoc, List.append_assoc, utf8_append, ← hi,
          List.take_left, trailing_utf8] at heven
      refine hseen.push hlt ⟨before, after, ⟨hbody, heven, hvalid⟩, hi⟩ fun p t hp hpj href => ?_
      obtain rfl := eq_of_refAt hphase hopen hclose hp hpj href
      exact refAt_closed hclose hslice href
  · next hinvalid =>
      refine hseen.skip (Nat.le_of_lt hlt) fun p t hp hpj href => hinvalid ?_
      obtain rfl := eq_of_refAt hphase hopen hclose hp hpj href
      rw [← refAt_closed hclose hslice href]
      exact href.valid

theorem firstSeen_open (hphase : InPhase (utf8 body) i)
    (hopen : twiceAt openBracket (utf8 body) i = true)
    (hclose : closesAt (utf8 body) (i + 2) = none) :
    FirstSeen (RefAt body) (i + 2) out := by
  refine hseen.skip (Nat.le_add_right _ _) fun p t hp hlt href => ?_
  obtain rfl | rfl : p = i ∨ p = i + 1 := by omega
  · rw [href.closes] at hclose
    cases hclose
  · exact not_refAt_second hphase hopen href

theorem firstSeen_text (hopen : ¬twiceAt openBracket (utf8 body) i = true) :
    FirstSeen (RefAt body) (i + 1) out := by
  refine hseen.skip (Nat.le_succ i) fun p t hp hlt href => ?_
  obtain rfl : p = i := by omega
  exact hopen href.twiceAt_open

/-- From any position in phase, the scan ends, and it has seen every reference. -/
theorem scanRefs_spec (hphase : InPhase (utf8 body) i) :
    ∃ out' n, scanRefs body (utf8 body) i out = some out' ∧ FirstSeen (RefAt body) n out' ∧
      ∀ p t, RefAt body p t → p < n := by
  fun_induction scanRefs body (utf8 body) i out with
  | case1 i out hlt hopen j hclose ih =>
      obtain ⟨s, hslice, hseen'⟩ := firstSeen_closed hseen hphase hopen hclose
      rw [hslice]
      exact ih s hseen' (InPhase.closed (closesAt_spec hclose).1)
  | case2 i out hlt hopen hclose ih =>
      exact ih (firstSeen_open hseen hphase hopen hclose) (hphase.opened hopen)
  | case3 i out hlt hopen ih =>
      exact ih (firstSeen_text hseen hopen) (InPhase.succ hopen)
  | case4 i out hge =>
      refine ⟨out, i, rfl, hseen, fun p t href => ?_⟩
      have hlength := href.lt_length
      omega

end

/-- Of two references, the one at the smaller byte has less text before it. -/
theorem length_lt_of_utf8_lt {before before' s' after after' : List Char}
    (h : RefBetween body before s after) (h' : RefBetween body before' s' after')
    (hlt : (utf8 before).length < (utf8 before').length) : before.length < before'.length := by
  by_contra hle
  have hstart : before <+: body := by
    rw [h.eq, List.append_assoc, List.append_assoc, List.append_assoc]
    exact List.prefix_append _ _
  have hstart' : before' <+: body := by
    rw [h'.eq, List.append_assoc, List.append_assoc, List.append_assoc]
    exact List.prefix_append _ _
  obtain ⟨rest, rfl⟩ := List.prefix_of_prefix_length_le hstart' hstart (Nat.le_of_not_lt hle)
  rw [utf8_append, List.length_append] at hlt
  omega

theorem extractRefs_spec (body : List Char) :
    ∃ out, extractRefs body = some out ∧ out.Nodup ∧
      (∀ s, s ∈ out ↔ ∃ before after, RefBetween body before s after) ∧
      out.Pairwise fun s t => ∃ before after, RefBetween body before s after ∧
        ∀ before' after', RefBetween body before' t after' → before.length < before'.length := by
  have hnil : FirstSeen (RefAt body) 0 [] := .nil
  obtain ⟨out, n, hout, hseen, hbound⟩ := scanRefs_spec hnil InPhase.zero
  refine ⟨out, hout, hseen.nodup, fun s => ?_, hseen.order.imp ?_⟩
  · rw [hseen.mem_iff]
    constructor
    · rintro ⟨p, -, before, after, href, -⟩
      exact ⟨before, after, href⟩
    · rintro ⟨before, after, href⟩
      have hat : RefAt body (utf8 before).length s := ⟨before, after, href, rfl⟩
      exact ⟨_, hbound _ s hat, hat⟩
  · rintro s t ⟨p, ⟨before, after, href, rfl⟩, hfirst⟩
    refine ⟨before, after, href, fun before' after' href' => ?_⟩
    exact length_lt_of_utf8_lt href href' (hfirst _ ⟨before', after', href', rfl⟩)

end

/-- With one bracket too many in front, the candidate starts with a bracket. -/
theorem surplus_bracket_hides_ref :
    extractRefs "[[[mem/x]]]".toList = some [] ∧ validateSlug "mem/x".toList = .ok () ∧
      "[[mem/x]]".toList <:+: "[[[mem/x]]]".toList :=
  ⟨by decide +kernel, by decide +kernel, by decide +kernel⟩

end Buzz.Core.Engram
