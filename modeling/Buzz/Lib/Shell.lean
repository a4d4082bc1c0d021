import Mathlib.Data.List.Basic
import Mathlib.Data.List.DropRight
import Mathlib.Data.List.Lex
import Mathlib.Data.List.Sort
import Mathlib.Order.Fin.Basic

/-!
# Lines in a shell script

What a POSIX shell does with lines of bytes: `read` takes one apart into
variables, `sort` orders them, and `$(...)` drops the newlines at the end of an
output. The separators of `read` are blanks here, as they are unless `IFS` has
something else in it.

A line of words with one blank between each two of them is read back word by
word, and sorting such lines is sorting by the first word, as long as no word
has a byte below the blank in it.
-/

namespace Buzz.Lib.Shell

def newline : UInt8 := 10
def blank : UInt8 := 32
def backslash : UInt8 := 92

/-- Blank, tab and newline. -/
def defaultIfs : List UInt8 := [32, 9, 10]

/-! ## `read` -/

/-- The bytes of a line, each with whether a backslash stood before it. With `-r`
a backslash is a byte as any other. One at the end of a line would join the next
line to it. -/
def unescape (raw : Bool) : List UInt8 → List (UInt8 × Bool)
  | [] => []
  | [b] => if !raw && b = backslash then [] else [(b, false)]
  | b :: c :: rest =>
      if !raw && b = backslash then (c, true) :: unescape raw rest
      else (b, false) :: unescape raw (c :: rest)

def separates (ifs : List UInt8) (c : UInt8 × Bool) : Bool := !c.2 && decide (c.1 ∈ ifs)

def inField (ifs : List UInt8) (c : UInt8 × Bool) : Bool := !separates ifs c

/-- Blanks around a field are dropped, and the last variable takes what is left. -/
def splitFields (ifs : List UInt8) : Nat → List (UInt8 × Bool) → List (List UInt8)
  | 0, _ => []
  | 1, line => [((line.dropWhile (separates ifs)).rdropWhile (separates ifs)).map Prod.fst]
  | vars + 2, line =>
      let line := line.dropWhile (separates ifs)
      (line.takeWhile (inField ifs)).map Prod.fst ::
        splitFields ifs (vars + 1) (line.dropWhile (inField ifs))

/-- `read` into so many variables, with `-r` or without. -/
def read (raw : Bool) (ifs : List UInt8) (vars : Nat) (line : List UInt8) : List (List UInt8) :=
  splitFields ifs vars (unescape raw line)

/-- `"$a $b $c"`. -/
def joinWords : List (List UInt8) → List UInt8
  | [] => []
  | [w] => w
  | w :: v :: rest => w ++ blank :: joinWords (v :: rest)

/-- Without blanks and backslashes. -/
def IsWord (ifs : List UInt8) (w : List UInt8) : Prop :=
  w ≠ [] ∧ ∀ b ∈ w, b ∉ ifs ∧ b ≠ backslash

/-- Bytes that no backslash stands before. -/
def plain (line : List UInt8) : List (UInt8 × Bool) := line.map fun b => (b, false)

theorem unescape_of_plain {raw : Bool} {line : List UInt8} (h : backslash ∉ line) :
    unescape raw line = plain line := by
  fun_induction unescape raw line with
  | case1 => rfl
  | case2 b hb =>
      rw [Bool.and_eq_true, decide_eq_true_iff] at hb
      exact (h (hb.2 ▸ List.mem_cons_self)).elim
  | case3 b hb => rfl
  | case4 b c rest hb ih =>
      rw [Bool.and_eq_true, decide_eq_true_iff] at hb
      exact (h (hb.2 ▸ List.mem_cons_self)).elim
  | case5 b c rest hb ih =>
      rw [ih fun hmem => h (List.mem_cons_of_mem b hmem)]
      rfl

theorem backslash_notMem_joinWords {ifs : List UInt8} {words : List (List UInt8)}
    (h : ∀ w ∈ words, IsWord ifs w) : backslash ∉ joinWords words := by
  fun_induction joinWords words with
  | case1 => exact List.not_mem_nil
  | case2 w => exact fun hmem => ((h w List.mem_cons_self).2 _ hmem).2 rfl
  | case3 w v rest ih =>
      intro hmem
      rcases List.mem_append.1 hmem with hw | hrest
      · exact ((h w List.mem_cons_self).2 _ hw).2 rfl
      · rcases List.mem_cons.1 hrest with heq | hrest
        · cases heq
        · exact ih (fun u hu => h u (List.mem_cons_of_mem w hu)) hrest

section Fields

variable {ifs : List UInt8} {w : List UInt8}

theorem separates_plain (b : UInt8) : separates ifs (b, false) = decide (b ∈ ifs) := rfl

theorem dropWhile_word (hw : IsWord ifs w) (rest : List (UInt8 × Bool)) :
    (plain w ++ rest).dropWhile (separates ifs) = plain w ++ rest := by
  cases w with
  | nil => exact (hw.1 rfl).elim
  | cons b w =>
      have hb := (hw.2 b List.mem_cons_self).1
      rw [plain, List.map_cons, List.cons_append, List.dropWhile_cons_of_neg]
      rw [separates_plain, decide_eq_true_iff]
      exact hb

theorem rdropWhile_word (hw : IsWord ifs w) :
    (plain w).rdropWhile (separates ifs) = plain w := by
  rw [List.rdropWhile_eq_self_iff]
  intro hne
  obtain ⟨b, hb, heq⟩ := List.mem_map.1 (List.getLast_mem hne)
  rw [← heq, separates_plain, decide_eq_true_iff]
  exact (hw.2 b hb).1

/-- Up to the blank after a word. -/
theorem span_word (hw : IsWord ifs w) (hblank : blank ∈ ifs)
    (rest : List (UInt8 × Bool)) :
    (plain w ++ (blank, false) :: rest).takeWhile (inField ifs) = plain w ∧
      (plain w ++ (blank, false) :: rest).dropWhile (inField ifs) = (blank, false) :: rest := by
  have hall : ∀ c ∈ plain w, inField ifs c = true := by
    intro c hc
    obtain ⟨b, hb, rfl⟩ := List.mem_map.1 hc
    rw [inField, separates_plain, decide_eq_false (hw.2 b hb).1]
    rfl
  have hstop : ¬ inField ifs (blank, false) = true := by
    rw [inField, separates_plain, decide_eq_true hblank]
    decide
  rw [List.takeWhile_append_of_pos hall, List.dropWhile_append_of_pos hall,
    List.takeWhile_cons_of_neg hstop, List.dropWhile_cons_of_neg hstop, List.append_nil]
  exact ⟨rfl, rfl⟩

theorem splitFields_joinWords {words : List (List UInt8)} (h : ∀ w ∈ words, IsWord ifs w)
    (hblank : blank ∈ ifs) :
    splitFields ifs words.length (plain (joinWords words)) = words ∧
      splitFields ifs words.length
        ((blank, false) :: plain (joinWords words)) = words := by
  -- a blank in front is what the word before it leaves
  have hskip : ∀ line, ((blank, false) :: line).dropWhile (separates ifs)
      = line.dropWhile (separates ifs) := by
    intro line
    rw [List.dropWhile_cons_of_pos]
    rw [separates_plain, decide_eq_true hblank]
  induction words with
  | nil => exact ⟨rfl, rfl⟩
  | cons w words ih =>
      have hw := h w List.mem_cons_self
      have hid : (plain w).map Prod.fst = w := by
        rw [plain, List.map_map]
        exact List.map_id w
      cases words with
      | nil =>
          have hlast := dropWhile_word hw []
          rw [List.append_nil] at hlast
          simp only [joinWords, List.length_singleton, splitFields, hskip, hlast,
            rdropWhile_word hw, hid, and_self]
      | cons v rest =>
          have hrest := ih fun u hu => h u (List.mem_cons_of_mem w hu)
          have hspan := span_word hw hblank (plain (joinWords (v :: rest)))
          have hsplit : ∀ line : List (UInt8 × Bool), line.dropWhile (separates ifs)
                = plain w ++
                    (blank, false) :: plain (joinWords (v :: rest)) →
              splitFields ifs (w :: v :: rest).length line = w :: v :: rest := by
            intro line hline
            show splitFields ifs (rest.length + 2) line = w :: v :: rest
            rw [splitFields, hline, hspan.1, hspan.2, hid]
            exact congrArg (w :: ·) hrest.2
          have hline : plain (joinWords (w :: v :: rest))
              = plain w ++
                  (blank, false) :: plain (joinWords (v :: rest)) := by
            rw [joinWords, plain, List.map_append, List.map_cons]
            rfl
          rw [hline]
          refine ⟨hsplit _ (dropWhile_word hw _), hsplit _ ?_⟩
          rw [hskip, dropWhile_word hw]

end Fields

/-- A line of words is read back, word by word. -/
theorem read_joinWords {raw : Bool} {ifs : List UInt8} {words : List (List UInt8)}
    (h : ∀ w ∈ words, IsWord ifs w) (hblank : blank ∈ ifs) :
    read raw ifs words.length (joinWords words) = words := by
  rw [read, unescape_of_plain (backslash_notMem_joinWords h)]
  exact (splitFields_joinWords h hblank).1

/-! ## `sort` -/

/-- Bytes by their value, to compare lines by. -/
def byteValues (line : List UInt8) : List Nat := line.map UInt8.toNat

theorem byteValues_injective : Function.Injective byteValues :=
  List.map_injective_iff.2 fun _ _ h => UInt8.toNat_inj.1 h

/-- `LC_ALL=C sort`: whole lines, by their bytes. -/
def sort (lines : List (List UInt8)) : List (List UInt8) :=
  lines.insertionSort fun x y => byteValues x ≤ byteValues y

/-- Lists with one separator compare as what stands before it, if that differs
and is above the separator. -/
theorem append_cons_le_iff {α : Type} [LinearOrder α] {sep : α} {x y r s : List α}
    (hx : ∀ b ∈ x, sep < b) (hy : ∀ b ∈ y, sep < b) (hne : x ≠ y) :
    x ++ sep :: r ≤ y ++ sep :: s ↔ x ≤ y := by
  induction x generalizing y with
  | nil =>
      cases y with
      | nil => exact (hne rfl).elim
      | cons b y =>
          have hlong : sep :: r < b :: (y ++ sep :: s) := List.Lex.rel (hy b List.mem_cons_self)
          have hshort : [] < b :: y := List.Lex.nil
          exact ⟨fun _ => hshort.le, fun _ => hlong.le⟩
  | cons a x ih =>
      cases y with
      | nil =>
          have hlong : sep :: s < a :: (x ++ sep :: r) := List.Lex.rel (hx a List.mem_cons_self)
          have hshort : [] < a :: x := List.Lex.nil
          exact ⟨fun h => absurd h hlong.not_ge, fun h => absurd h hshort.not_ge⟩
      | cons b y =>
          rcases lt_trichotomy a b with hab | rfl | hab
          · have hlong : a :: (x ++ sep :: r) < b :: (y ++ sep :: s) := List.Lex.rel hab
            have hshort : a :: x < b :: y := List.Lex.rel hab
            exact ⟨fun _ => hshort.le, fun _ => hlong.le⟩
          · have htail := ih (fun b hb => hx b (List.mem_cons_of_mem a hb))
              (fun b hb => hy b (List.mem_cons_of_mem a hb)) fun heq => hne (heq ▸ rfl)
            rw [List.cons_append, List.cons_append, ← not_lt, ← not_lt, List.cons_lt_cons_self,
              List.cons_lt_cons_self, not_lt, not_lt]
            exact htail
          · have hlong : b :: (y ++ sep :: s) < a :: (x ++ sep :: r) := List.Lex.rel hab
            have hshort : b :: y < a :: x := List.Lex.rel hab
            exact ⟨fun h => absurd h hlong.not_ge, fun h => absurd h hshort.not_ge⟩

/-- Lines compare as the words they begin with, if these differ. -/
theorem line_le_iff {x y r s : List UInt8} (hx : ∀ b ∈ x, blank < b) (hy : ∀ b ∈ y, blank < b)
    (hne : x ≠ y) :
    byteValues (x ++ blank :: r) ≤ byteValues (y ++ blank :: s) ↔
      byteValues x ≤ byteValues y := by
  have habove : ∀ w : List UInt8, (∀ b ∈ w, blank < b) → ∀ n ∈ byteValues w, blank.toNat < n := by
    intro w hw n hn
    obtain ⟨b, hb, rfl⟩ := List.mem_map.1 hn
    exact UInt8.lt_iff_toNat_lt.1 (hw b hb)
  rw [byteValues, byteValues, List.map_append, List.map_append, List.map_cons, List.map_cons]
  exact append_cons_le_iff (habove x hx) (habove y hy) fun h => hne (byteValues_injective h)

/-! ## `$(...)` -/

/-- The output without the newlines it ends in. -/
def substitute (output : List UInt8) : List UInt8 := output.rdropWhile fun b => b = newline

end Buzz.Lib.Shell
