import Buzz.Core.Json
import Buzz.Core.Text

/-!
# Reading JSON

`serde_json::from_slice`, for a text that is UTF-8. Blanks may stand around
every token, a number is one of the grammar and keeps its text, and values nest
at most 127 deep. What `render` writes is read back as it was.
-/

namespace Buzz.Json

def isSpace (c : Char) : Bool := c == ' ' || c == '\n' || c == '\t' || c == '\r'

variable (text : List Char)

def skipSpace : List Char := text.dropWhile isSpace

/-! ## Strings -/

def readHex : List Char → Option (Nat × List Char)
  | a :: b :: c :: d :: rest => do
      let a ← hexValue a
      let b ← hexValue b
      let c ← hexValue c
      let d ← hexValue d
      return (((a * 16 + b) * 16 + c) * 16 + d, rest)
  | _ => none

/-- What comes after `\u`. A surrogate needs the other one of its pair. -/
def readUnicode : Option (Char × List Char) := do
  let (n, rest) ← readHex text
  if 0xD800 ≤ n ∧ n < 0xDC00 then
    let rest ← ['\\', 'u'].isPrefixOf? rest
    let (m, rest) ← readHex rest
    if 0xDC00 ≤ m ∧ m < 0xE000 then
      return (Char.ofNat (0x10000 + (n - 0xD800) * 0x400 + (m - 0xDC00)), rest)
    else none
  else if 0xDC00 ≤ n ∧ n < 0xE000 then none
  else return (Char.ofNat n, rest)

/-- What comes after a backslash. -/
def readEscape : List Char → Option (Char × List Char)
  | [] => none
  | c :: rest =>
      if c = '"' ∨ c = '\\' ∨ c = '/' then some (c, rest)
      else if c = 'b' then some (Char.ofNat 8, rest)
      else if c = 'f' then some (Char.ofNat 12, rest)
      else if c = 'n' then some (Char.ofNat 10, rest)
      else if c = 'r' then some (Char.ofNat 13, rest)
      else if c = 't' then some (Char.ofNat 9, rest)
      else if c = 'u' then readUnicode rest
      else none

/-- What comes after the quote that opens a string. -/
def readString : Nat → List Char → Option (List Char × List Char)
  | 0, _ => none
  | _ + 1, [] => none
  | fuel + 1, c :: rest =>
      if c = '"' then some ([], rest)
      else if c = '\\' then do
        let (d, rest) ← readEscape rest
        let (s, rest) ← readString fuel rest
        return (d :: s, rest)
      else if c.toNat < 32 then none
      else do
        let (s, rest) ← readString fuel rest
        return (c :: s, rest)

/-! ## Numbers -/

def isWhole (digits : List Char) : Bool :=
  digits == ['0'] || (digits != [] && digits.head? != some '0')

def dropDigits : Option (List Char) :=
  if (text.takeWhile Char.isDigit).isEmpty then none else some (text.dropWhile Char.isDigit)

def dropFraction : List Char → Option (List Char)
  | '.' :: rest => dropDigits rest
  | text => some text

def dropExponent : List Char → Option (List Char)
  | [] => some []
  | c :: rest =>
      if c = 'e' ∨ c = 'E' then
        dropDigits (if rest.head? = some '+' ∨ rest.head? = some '-' then rest.tail else rest)
      else some (c :: rest)

/-- A number of the grammar, from its first character to its last. -/
def isNumber : Bool :=
  let text := if text.head? = some '-' then text.tail else text
  isWhole (text.takeWhile Char.isDigit) &&
    (dropFraction (text.dropWhile Char.isDigit)).bind dropExponent == some []

def readNumber : Option (Json × List Char) :=
  if h : text.takeWhile isNumberChar ≠ [] then
    if isNumber (text.takeWhile isNumberChar) then
      some (.number ⟨text.takeWhile isNumberChar, h, List.all_takeWhile⟩,
        text.dropWhile isNumberChar)
    else none
  else none

/-! ## Values -/

def readWord (word : String) (v : Json) (text : List Char) : Option (Json × List Char) :=
  (word.toList.isPrefixOf? text).map fun rest => (v, rest)

mutual

def readValue : Nat → Nat → List Char → Option (Json × List Char)
  | 0, _, _ => none
  | fuel + 1, depth, text =>
      match skipSpace text with
      | [] => none
      | c :: rest =>
          if c = 'n' then readWord "null" .null (c :: rest)
          else if c = 't' then readWord "true" (.bool true) (c :: rest)
          else if c = 'f' then readWord "false" (.bool false) (c :: rest)
          else if c = '"' then do
            let (s, rest) ← readString (rest.length + 1) rest
            return (.string s, rest)
          else if c = '[' then
            if depth ≤ 1 then none
            else if (skipSpace rest).head? = some ']' then
              some (.array [], (skipSpace rest).tail)
            else do
              let (items, rest) ← readItems fuel (depth - 1) rest
              return (.array items, rest)
          else if c = '{' then
            if depth ≤ 1 then none
            else if (skipSpace rest).head? = some '}' then
              some (.object [], (skipSpace rest).tail)
            else do
              let (fields, rest) ← readFields fuel (depth - 1) rest
              return (.object fields, rest)
          else readNumber (c :: rest)

def readItems : Nat → Nat → List Char → Option (List Json × List Char)
  | 0, _, _ => none
  | fuel + 1, depth, text => do
      let (v, rest) ← readValue fuel depth text
      match skipSpace rest with
      | [] => none
      | c :: rest =>
          if c = ',' then do
            let (items, rest) ← readItems fuel depth rest
            return (v :: items, rest)
          else if c = ']' then return ([v], rest)
          else none

def readFields : Nat → Nat → List Char → Option (List (List Char × Json) × List Char)
  | 0, _, _ => none
  | fuel + 1, depth, text => do
      let rest ← ['"'].isPrefixOf? (skipSpace text)
      let (k, rest) ← readString (rest.length + 1) rest
      let rest ← [':'].isPrefixOf? (skipSpace rest)
      let (v, rest) ← readValue fuel depth rest
      match skipSpace rest with
      | [] => none
      | c :: rest =>
          if c = ',' then do
            let (fields, rest) ← readFields fuel depth rest
            return ((k, v) :: fields, rest)
          else if c = '}' then return ([(k, v)], rest)
          else none

end

/-- One value, and nothing but blanks after it. -/
def parse : Option Json := do
  let (v, rest) ← readValue (2 * text.length) 128 text
  if skipSpace rest = [] then return v else none

/-! ## Reading back what was written -/

mutual

/-- Not too deep, and with numbers that are numbers. -/
def Readable : Nat → Json → Prop
  | _, number n => isNumber n.text = true
  | depth, array items => 1 < depth ∧ ReadableItems (depth - 1) items
  | depth, object fields => 1 < depth ∧ ReadableFields (depth - 1) fields
  | _, _ => True

def ReadableItems : Nat → List Json → Prop
  | _, [] => True
  | depth, v :: rest => Readable depth v ∧ ReadableItems depth rest

def ReadableFields : Nat → List (List Char × Json) → Prop
  | _, [] => True
  | depth, (_, v) :: rest => Readable depth v ∧ ReadableFields depth rest

end

theorem skipSpace_cons {c : Char} (h : isSpace c = false) (rest : List Char) :
    skipSpace (c :: rest) = c :: rest :=
  List.dropWhile_cons_of_neg (by rw [h]; decide)

theorem readEscape_control {n : Nat} (h : n < 32) :
    ∃ e, escapeChar (Char.ofNat n) = '\\' :: e ∧
      ∀ rest, readEscape (e ++ rest) = some (Char.ofNat n, rest) := by
  interval_cases n <;> exact ⟨_, rfl, fun _ => rfl⟩

/-- A character is written as it is or after a backslash. -/
theorem escapeChar_cases (c : Char) :
    (escapeChar c = [c] ∧ c ≠ '"' ∧ c ≠ '\\' ∧ ¬ c.toNat < 32) ∨
      ∃ e, escapeChar c = '\\' :: e ∧ ∀ rest, readEscape (e ++ rest) = some (c, rest) := by
  by_cases hquote : c = '"'
  · subst hquote
    exact .inr ⟨_, rfl, fun _ => rfl⟩
  · by_cases hslash : c = '\\'
    · subst hslash
      exact .inr ⟨_, rfl, fun _ => rfl⟩
    · by_cases hcontrol : c.toNat < 32
      · have h := readEscape_control hcontrol
        rw [Char.ofNat_toNat] at h
        exact .inr h
      · refine .inl ⟨?_, hquote, hslash, hcontrol⟩
        rw [escapeChar, if_neg hquote, if_neg hslash, if_neg hcontrol]

theorem readString_escaped (s r : List Char) {fuel : Nat} (h : s.length < fuel) :
    readString fuel (s.flatMap escapeChar ++ '"' :: r) = some (s, r) := by
  induction s generalizing fuel with
  | nil =>
      cases fuel with
      | zero => cases h
      | succ fuel => rfl
  | cons c s ih =>
      cases fuel with
      | zero => cases h
      | succ fuel =>
          have hrest := ih (Nat.lt_of_succ_lt_succ h)
          rw [List.flatMap_cons, List.append_assoc]
          rcases escapeChar_cases c with ⟨hplain, hquote, hslash, hcontrol⟩ | ⟨e, hescape, hread⟩
          · rw [hplain, List.singleton_append, readString, if_neg hquote, if_neg hslash,
              if_neg hcontrol, hrest]
            rfl
          · rw [hescape, List.cons_append, readString, if_neg (by decide), if_pos rfl, hread]
            show ((readString fuel _).bind fun p => some (c :: p.1, p.2)) = _
            rw [hrest]
            rfl

theorem length_flatMap_escapeChar (s : List Char) : s.length ≤ (s.flatMap escapeChar).length := by
  induction s with
  | nil => exact Nat.le_refl 0
  | cons c s ih =>
      have hpos : 0 < (escapeChar c).length := by
        rcases escapeChar_cases c with ⟨hplain, -⟩ | ⟨e, hescape, -⟩
        · rw [hplain]
          exact Nat.zero_lt_one
        · rw [hescape]
          exact Nat.succ_pos _
      rw [List.flatMap_cons, List.length_append, List.length_cons]
      omega

/-- A string, from after its first quote. -/
theorem readString_tail (s r : List Char) :
    readString ((s.flatMap escapeChar ++ '"' :: r).length + 1)
      (s.flatMap escapeChar ++ '"' :: r) = some (s, r) := by
  refine readString_escaped s r ?_
  have hlength := length_flatMap_escapeChar s
  rw [List.length_append]
  omega

theorem isSpace_of_number {c : Char} (h : isNumberChar c = true) : isSpace c = false := by
  by_contra hspace
  rw [Bool.not_eq_false] at hspace
  simp only [isSpace, Bool.or_eq_true, beq_iff_eq] at hspace
  rcases hspace with ((rfl | rfl) | rfl) | rfl <;> revert h <;> decide

theorem readNumber_render {n : JsonNumber} (hn : isNumber n.text = true) {r : List Char}
    (hr : Ends r) : readNumber (n.text ++ r) = some (.number n, r) := by
  have htake := takeWhile_append_of_ends n.chars hr
  have hdrop : (n.text ++ r).dropWhile isNumberChar = r := by
    have hsplit := List.takeWhile_append_dropWhile (p := isNumberChar) (l := n.text ++ r)
    rw [htake] at hsplit
    exact List.append_cancel_left hsplit
  unfold readNumber
  simp only [htake, hdrop]
  rw [dif_pos n.ne_nil, if_pos hn]

/-- What stands at the beginning of a number stands at the beginning of nothing else. -/
theorem readValue_number {c : Char} (h : isNumberChar c = true) (fuel depth : Nat)
    (rest : List Char) : readValue (fuel + 1) depth (c :: rest) = readNumber (c :: rest) := by
  have hne : ∀ d, isNumberChar d = false → c ≠ d := by
    rintro d hd rfl
    rw [h] at hd
    cases hd
  rw [readValue, skipSpace_cons (isSpace_of_number h)]
  dsimp only
  rw [if_neg (hne _ (by decide)), if_neg (hne _ (by decide)), if_neg (hne _ (by decide)),
    if_neg (hne _ (by decide)), if_neg (hne _ (by decide)), if_neg (hne _ (by decide))]

theorem readValue_string (s r : List Char) (fuel depth : Nat) :
    readValue (fuel + 1) depth (renderString s ++ r) = some (.string s, r) := by
  rw [renderString, List.cons_append, List.append_assoc, readValue, skipSpace_cons (by decide)]
  dsimp only
  rw [if_neg (by decide), if_neg (by decide), if_neg (by decide), if_pos rfl,
    List.singleton_append, readString_tail]
  rfl

/-- An entry, and then a comma and more or what closes the list. -/
theorem skipSpace_rest {p : Prop} [Decidable p] {close : Char} (hclose : isSpace close = false)
    (more r : List Char) :
    skipSpace ((if p then [] else ',' :: more) ++ close :: r) =
      (if p then [] else ',' :: more) ++ close :: r := by
  split
  · exact skipSpace_cons hclose r
  · exact skipSpace_cons (by decide) _

/-- No value begins with a blank, a bracket or a brace that closes something. -/
theorem render_start (v : Json) :
    ∃ c t, render v = c :: t ∧ isSpace c = false ∧ c ≠ ']' := by
  cases v with
  | number n =>
      obtain ⟨text, hne, hchars⟩ := n
      cases text with
      | nil => exact (hne rfl).elim
      | cons c t =>
          rw [List.all_cons, Bool.and_eq_true] at hchars
          exact ⟨c, t, by rw [render], isSpace_of_number hchars.1,
            (kindOfChar_of_number hchars.1).2⟩
  | null => exact ⟨_, _, rfl, by decide, by decide⟩
  | bool b => cases b <;> exact ⟨_, _, rfl, by decide, by decide⟩
  | string s => exact ⟨_, _, by rw [render]; rfl, by decide, by decide⟩
  | array items => exact ⟨_, _, by rw [render], by decide, by decide⟩
  | object fields => exact ⟨_, _, by rw [render], by decide, by decide⟩

theorem skipSpace_render (v : Json) (r : List Char) :
    skipSpace (render v ++ r) = render v ++ r := by
  obtain ⟨c, t, hv, hspace, -⟩ := render_start v
  rw [hv, List.cons_append]
  exact skipSpace_cons hspace _

mutual

theorem readValue_render (v : Json) {depth fuel : Nat} (hv : Readable depth v)
    (hfuel : 2 * (render v).length ≤ fuel) {r : List Char} (hr : Ends r) :
    readValue fuel depth (render v ++ r) = some (v, r) := by
  obtain ⟨c, t, hstart, -, -⟩ := render_start v
  obtain ⟨fuel, rfl⟩ : ∃ n, fuel = n + 1 := by
    rw [hstart, List.length_cons] at hfuel
    exact ⟨fuel - 1, by omega⟩
  cases v with
  | null =>
      rw [readValue, skipSpace_render]
      rfl
  | bool b =>
      rw [readValue, skipSpace_render]
      cases b <;> rfl
  | number n =>
      rw [Readable] at hv
      obtain ⟨c, t, htext⟩ := List.exists_cons_of_ne_nil n.ne_nil
      have hchars := n.chars
      rw [htext, List.all_cons, Bool.and_eq_true] at hchars
      rw [render, ← readNumber_render hv hr, htext, List.cons_append]
      exact readValue_number hchars.1 fuel depth _
  | string s =>
      rw [render]
      exact readValue_string s r fuel depth
  | array items =>
      rw [Readable] at hv
      rw [render, List.cons_append, List.append_assoc, List.singleton_append, readValue,
        skipSpace_cons (by decide)]
      dsimp only
      rw [if_neg (by decide), if_neg (by decide), if_neg (by decide), if_neg (by decide),
        if_pos rfl, if_neg (Nat.not_le_of_lt hv.1)]
      cases items with
      | nil =>
          rw [renderItems, List.nil_append, skipSpace_cons (by decide)]
          rfl
      | cons v rest =>
          have hhead : (skipSpace (renderItems (v :: rest) ++ ']' :: r)).head? ≠ some ']' := by
            obtain ⟨c, t, hv, hspace, hclose⟩ := render_start v
            rw [renderItems_cons, hv, List.append_assoc, List.cons_append, skipSpace_cons hspace]
            exact fun h => hclose (Option.some.inj h)
          have hlength : 2 * (renderItems (v :: rest)).length + 1 ≤ fuel := by
            rw [render, List.length_cons, List.length_append, List.length_singleton] at hfuel
            omega
          rw [if_neg hhead, readItems_render (v :: rest) nofun hv.2 hlength r]
          rfl
  | object fields =>
      rw [Readable] at hv
      rw [render, List.cons_append, List.append_assoc, List.singleton_append, readValue,
        skipSpace_cons (by decide)]
      dsimp only
      rw [if_neg (by decide), if_neg (by decide), if_neg (by decide), if_neg (by decide),
        if_neg (by decide), if_pos rfl, if_neg (Nat.not_le_of_lt hv.1)]
      cases fields with
      | nil =>
          rw [renderFields, List.nil_append, skipSpace_cons (by decide)]
          rfl
      | cons f rest =>
          obtain ⟨k, v⟩ := f
          have hhead : (skipSpace (renderFields ((k, v) :: rest) ++ '}' :: r)).head? ≠
              some '}' := by
            rw [renderFields_cons, renderString, List.append_assoc, List.cons_append,
              skipSpace_cons (by decide)]
            exact fun h => absurd (Option.some.inj h) (by decide)
          have hlength : 2 * (renderFields ((k, v) :: rest)).length + 1 ≤ fuel := by
            rw [render, List.length_cons, List.length_append, List.length_singleton] at hfuel
            omega
          rw [if_neg hhead, readFields_render ((k, v) :: rest) nofun hv.2 hlength r]
          rfl

theorem readItems_render (items : List Json) (hne : items ≠ []) {depth fuel : Nat}
    (hv : ReadableItems depth items) (hfuel : 2 * (renderItems items).length + 1 ≤ fuel)
    (r : List Char) :
    readItems fuel depth (renderItems items ++ ']' :: r) = some (items, r) := by
  obtain ⟨fuel, rfl⟩ : ∃ n, fuel = n + 1 := ⟨fuel - 1, by omega⟩
  cases items with
  | nil => exact absurd rfl hne
  | cons v rest =>
      rw [ReadableItems] at hv
      rw [renderItems_cons, List.length_append] at hfuel
      rw [renderItems_cons, List.append_assoc, readItems,
        readValue_render v hv.1 (by omega) (ends_rest (by decide) _ _)]
      dsimp only [Option.bind_eq_bind, Option.bind_some]
      rw [skipSpace_rest (by decide)]
      cases hrest : rest with
      | nil => rfl
      | cons w more =>
          rw [hrest, if_neg (List.cons_ne_nil w more)] at hfuel
          rw [if_neg (List.cons_ne_nil w more)]
          rw [List.length_cons] at hfuel
          dsimp only [List.cons_append]
          rw [if_pos rfl, ← hrest,
            readItems_render rest (by rw [hrest]; nofun) hv.2 (by rw [hrest]; omega) r]
          rfl

theorem readFields_render (fields : List (List Char × Json)) (hne : fields ≠ [])
    {depth fuel : Nat} (hv : ReadableFields depth fields)
    (hfuel : 2 * (renderFields fields).length + 1 ≤ fuel) (r : List Char) :
    readFields fuel depth (renderFields fields ++ '}' :: r) = some (fields, r) := by
  obtain ⟨fuel, rfl⟩ : ∃ n, fuel = n + 1 := ⟨fuel - 1, by omega⟩
  cases fields with
  | nil => exact absurd rfl hne
  | cons f rest =>
      obtain ⟨k, v⟩ := f
      rw [ReadableFields] at hv
      rw [renderFields_cons, List.length_append, List.length_cons, List.length_append] at hfuel
      have htext : renderFields ((k, v) :: rest) ++ '}' :: r =
          '"' :: (k.flatMap escapeChar ++ '"' :: ':' :: (render v ++
            ((if rest = [] then [] else ',' :: renderFields rest) ++ '}' :: r))) := by
        rw [renderFields_cons, renderString]
        simp only [List.cons_append, List.append_assoc, List.nil_append]
      have hquote : ∀ t : List Char, ['"'].isPrefixOf? ('"' :: t) = some t := fun t => rfl
      have hcolon : ∀ t : List Char, [':'].isPrefixOf? (':' :: t) = some t := fun t => rfl
      rw [htext, readFields, skipSpace_cons (by decide), hquote, Option.bind_eq_bind,
        Option.bind_some, readString_tail]
      dsimp only [Option.bind_eq_bind, Option.bind_some]
      rw [skipSpace_cons (by decide), hcolon, Option.bind_some,
        readValue_render v hv.1 (by omega) (ends_rest (by decide) _ _)]
      dsimp only [Option.bind_some]
      rw [skipSpace_rest (by decide)]
      cases hrest : rest with
      | nil => rfl
      | cons f more =>
          rw [hrest, if_neg (List.cons_ne_nil f more)] at hfuel
          rw [if_neg (List.cons_ne_nil f more)]
          rw [List.length_cons] at hfuel
          dsimp only [List.cons_append]
          rw [if_pos rfl, ← hrest,
            readFields_render rest (by rw [hrest]; nofun) hv.2 (by rw [hrest]; omega) r]
          rfl

end

/-- What is written can be read. -/
theorem parse_render {v : Json} (hv : Readable 128 v) : parse (render v) = some v := by
  have hread := readValue_render v hv (Nat.le_refl _) ends_nil
  rw [List.append_nil] at hread
  unfold parse
  rw [hread]
  rfl

end Buzz.Json
