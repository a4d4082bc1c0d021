import Mathlib.Data.Char
import Mathlib.Data.List.Lex
import Mathlib.Data.List.Sort
import Mathlib.Tactic.IntervalCases

/-!
# JSON values and their text

`serde_json::Value`, with an object as the list of its entries; without the
`preserve_order` feature the map is a `BTreeMap`, so they come in the order of
their keys, each key once, which is what `Wf` says. A number is the text
`serde_json` prints for it: two numbers are equal when these are.

`render` writes a value without blanks, in the order its entries have. It is
one-to-one, also in the middle of a longer text: no value is the beginning of
another one unless something follows that can only follow a value.
-/

namespace Buzz

def isNumberChar (c : Char) : Bool :=
  c.isDigit || c == '-' || c == '+' || c == '.' || c == 'e' || c == 'E'

structure JsonNumber where
  text : List Char
  ne_nil : text ≠ []
  chars : text.all isNumberChar = true
deriving DecidableEq

inductive Json where
  | null
  | bool (b : Bool)
  | number (n : JsonNumber)
  | string (s : List Char)
  | array (items : List Json)
  | object (fields : List (List Char × Json))

namespace Json

/-- `char::to_digit`'s inverse, lower case. -/
def hexLower (n : Nat) : Char := if n < 10 then Char.ofNat (48 + n) else Char.ofNat (87 + n)

/-- A character inside a string, as `serde_json` writes it. -/
def escapeChar (c : Char) : List Char :=
  if c = '"' then ['\\', '"']
  else if c = '\\' then ['\\', '\\']
  else if c.toNat < 32 then
    if c.toNat = 8 then ['\\', 'b']
    else if c.toNat = 9 then ['\\', 't']
    else if c.toNat = 10 then ['\\', 'n']
    else if c.toNat = 12 then ['\\', 'f']
    else if c.toNat = 13 then ['\\', 'r']
    else ['\\', 'u', '0', '0', hexLower (c.toNat / 16), hexLower (c.toNat % 16)]
  else [c]

def renderString (s : List Char) : List Char := '"' :: (s.flatMap escapeChar ++ ['"'])

mutual

def render : Json → List Char
  | null => "null".toList
  | bool true => "true".toList
  | bool false => "false".toList
  | number n => n.text
  | string s => renderString s
  | array items => '[' :: (renderItems items ++ [']'])
  | object fields => '{' :: (renderFields fields ++ ['}'])

def renderItems : List Json → List Char
  | [] => []
  | [v] => render v
  | v :: w :: rest => render v ++ ',' :: renderItems (w :: rest)

def renderFields : List (List Char × Json) → List Char
  | [] => []
  | [(k, v)] => renderString k ++ ':' :: render v
  | (k, v) :: f :: rest => renderString k ++ ':' :: (render v ++ ',' :: renderFields (f :: rest))

end

mutual

/-- Every object has each key once, in the order of the keys. -/
def Wf : Json → Prop
  | array items => WfItems items
  | object fields => (fields.map Prod.fst).Pairwise (· < ·) ∧ WfFields fields
  | _ => True

def WfItems : List Json → Prop
  | [] => True
  | v :: rest => Wf v ∧ WfItems rest

def WfFields : List (List Char × Json) → Prop
  | [] => True
  | (_, v) :: rest => Wf v ∧ WfFields rest

end

/-! ## Reading back -/

/-- The value of a lower-case hex digit. -/
def hexLowerValue (c : Char) : Nat := if c.toNat < 58 then c.toNat - 48 else c.toNat - 87

/-- The first character of the rest of a string, and what follows it. -/
def readChar : List Char → Option (Char × List Char)
  | '\\' :: 'u' :: '0' :: '0' :: high :: low :: rest =>
      some (Char.ofNat (16 * hexLowerValue high + hexLowerValue low), rest)
  | '\\' :: 'b' :: rest => some (Char.ofNat 8, rest)
  | '\\' :: 't' :: rest => some (Char.ofNat 9, rest)
  | '\\' :: 'n' :: rest => some (Char.ofNat 10, rest)
  | '\\' :: 'f' :: rest => some (Char.ofNat 12, rest)
  | '\\' :: 'r' :: rest => some (Char.ofNat 13, rest)
  | '\\' :: c :: rest => some (c, rest)
  | c :: rest => some (c, rest)
  | [] => none

variable {c : Char}

theorem readChar_of_ne (h : c ≠ '\\') (rest : List Char) :
    readChar (c :: rest) = some (c, rest) := by
  unfold readChar
  split <;> simp_all

theorem readChar_control {n : Nat} (h : n < 32) (rest : List Char) :
    readChar (escapeChar (Char.ofNat n) ++ rest) = some (Char.ofNat n, rest) := by
  interval_cases n <;> rfl

theorem readChar_escapeChar (c : Char) (rest : List Char) :
    readChar (escapeChar c ++ rest) = some (c, rest) := by
  by_cases hquote : c = '"'
  · subst hquote
    rfl
  · by_cases hslash : c = '\\'
    · subst hslash
      rfl
    · by_cases hcontrol : c.toNat < 32
      · have h := readChar_control hcontrol rest
        rwa [Char.ofNat_toNat] at h
      · rw [escapeChar, if_neg hquote, if_neg hslash, if_neg hcontrol]
        exact readChar_of_ne hslash rest

variable {r r' : List Char}

theorem escapeChar_append_inj {c' : Char}
    (h : escapeChar c ++ r = escapeChar c' ++ r') : c = c' ∧ r = r' := by
  have hread := congrArg readChar h
  rw [readChar_escapeChar, readChar_escapeChar] at hread
  cases hread
  exact ⟨rfl, rfl⟩

theorem escapeChar_ne_quote (c : Char) (r r' : List Char) : escapeChar c ++ r ≠ '"' :: r' := by
  intro h
  have hread := congrArg readChar h
  rw [readChar_escapeChar, readChar_of_ne (by decide)] at hread
  cases hread
  cases h

theorem escaped_append_inj {s s' : List Char}
    (h : s.flatMap escapeChar ++ '"' :: r = s'.flatMap escapeChar ++ '"' :: r') :
    s = s' ∧ r = r' := by
  induction s generalizing s' with
  | nil =>
      cases s' with
      | nil =>
          cases h
          exact ⟨rfl, rfl⟩
      | cons c' s' =>
          rw [List.flatMap_cons, List.append_assoc] at h
          exact (escapeChar_ne_quote _ _ _ h.symm).elim
  | cons c s ih =>
      cases s' with
      | nil =>
          rw [List.flatMap_cons, List.append_assoc] at h
          exact (escapeChar_ne_quote _ _ _ h).elim
      | cons c' s' =>
          rw [List.flatMap_cons, List.flatMap_cons, List.append_assoc, List.append_assoc] at h
          obtain ⟨rfl, hrest⟩ := escapeChar_append_inj h
          obtain ⟨rfl, rfl⟩ := ih hrest
          exact ⟨rfl, rfl⟩

theorem renderString_append_inj {s s' : List Char}
    (h : renderString s ++ r = renderString s' ++ r') : s = s' ∧ r = r' := by
  simp only [renderString, List.cons_append, List.append_assoc, List.nil_append,
    List.cons.injEq, true_and] at h
  exact escaped_append_inj h

/-- The text ends here, or something stands here that no number goes on with. -/
def Ends (r : List Char) : Prop := ∀ c ∈ r.head?, isNumberChar c = false

theorem takeWhile_append_of_ends {a : List Char}
    (ha : a.all isNumberChar = true) (hr : Ends r) :
    (a ++ r).takeWhile isNumberChar = a := by
  rw [List.takeWhile_append_of_pos (List.all_eq_true.1 ha)]
  cases r with
  | nil => rw [List.takeWhile_nil, List.append_nil]
  | cons c r =>
      rw [List.takeWhile_cons_of_neg (by rw [hr c rfl]; decide), List.append_nil]

theorem number_append_inj {n n' : JsonNumber} (hr : Ends r) (hr' : Ends r')
    (h : n.text ++ r = n'.text ++ r') : n = n' ∧ r = r' := by
  have htext := congrArg (List.takeWhile isNumberChar) h
  rw [takeWhile_append_of_ends n.chars hr, takeWhile_append_of_ends n'.chars hr'] at htext
  cases n
  cases n'
  cases htext
  exact ⟨rfl, List.append_cancel_left h⟩

/-- What kind of value begins with a character. -/
def kindOfChar (c : Char) : Nat :=
  if c = 'n' then 0 else if c = 't' then 1 else if c = 'f' then 2 else if c = '"' then 4
  else if c = '[' then 5 else if c = '{' then 6 else 3

def kind : Json → Nat
  | null => 0
  | bool true => 1
  | bool false => 2
  | number _ => 3
  | string _ => 4
  | array _ => 5
  | object _ => 6

theorem kindOfChar_of_number (h : isNumberChar c = true) :
    kindOfChar c = 3 ∧ c ≠ ']' := by
  unfold kindOfChar
  refine ⟨?_, ?_⟩
  · rw [if_neg, if_neg, if_neg, if_neg, if_neg, if_neg] <;> (rintro rfl; revert h; decide)
  · rintro rfl
    revert h
    decide

theorem render_head (v : Json) :
    ∃ c t, render v = c :: t ∧ kindOfChar c = v.kind ∧ c ≠ ']' := by
  cases v with
  | null => exact ⟨_, _, rfl, rfl, by decide⟩
  | bool b => cases b <;> exact ⟨_, _, rfl, rfl, by decide⟩
  | number n =>
      obtain ⟨text, hne, hchars⟩ := n
      cases text with
      | nil => exact (hne rfl).elim
      | cons c t =>
          rw [List.all_cons, Bool.and_eq_true] at hchars
          have hc := kindOfChar_of_number hchars.1
          exact ⟨c, t, by rw [render], hc.1, hc.2⟩
  | string s => exact ⟨_, _, by rw [render]; rfl, rfl, by decide⟩
  | array items => exact ⟨_, _, by rw [render], rfl, by decide⟩
  | object fields => exact ⟨_, _, by rw [render], rfl, by decide⟩

theorem kind_eq_of_render {v w : Json} (h : render v ++ r = render w ++ r') :
    v.kind = w.kind := by
  obtain ⟨c, t, hv, hkind, -⟩ := render_head v
  obtain ⟨c', t', hw, hkind', -⟩ := render_head w
  rw [hv, hw, List.cons_append, List.cons_append] at h
  cases (List.cons.inj h).1
  exact hkind.symm.trans hkind'

theorem ends_cons (h : isNumberChar c = false) (r : List Char) :
    Ends (c :: r) := by
  intro c' hc'
  cases hc'
  exact h

theorem ends_nil : Ends [] := by
  intro c hc
  cases hc

/-- A comma or what closes the list follows an entry. -/
theorem ends_rest {p : Prop} [Decidable p] {close : Char} (hclose : isNumberChar close = false)
    (more r : List Char) : Ends ((if p then [] else ',' :: more) ++ close :: r) := by
  split
  · exact ends_cons hclose r
  · exact ends_cons rfl _

/-- No value begins with the bracket that closes an array. -/
theorem render_ne_bracket (v : Json) (r r' : List Char) : render v ++ r ≠ ']' :: r' := by
  obtain ⟨c, t, hv, -, hc⟩ := render_head v
  rw [hv, List.cons_append]
  intro h
  exact hc (List.cons.inj h).1

theorem renderItems_cons (v : Json) (items : List Json) :
    renderItems (v :: items)
      = render v ++ if items = [] then [] else ',' :: renderItems items := by
  cases items with
  | nil =>
      rw [if_pos rfl, List.append_nil]
      simp only [renderItems]
  | cons w rest => rw [renderItems, if_neg (List.cons_ne_nil w rest)]

theorem renderFields_cons (k : List Char) (v : Json) (fields : List (List Char × Json)) :
    renderFields ((k, v) :: fields)
      = renderString k ++ ':' :: (render v ++
          if fields = [] then [] else ',' :: renderFields fields) := by
  cases fields with
  | nil =>
      rw [if_pos rfl, List.append_nil]
      simp only [renderFields]
  | cons f rest => rw [renderFields, if_neg (List.cons_ne_nil f rest)]

mutual

theorem render_append_inj (v w : Json) {r r' : List Char} (hr : Ends r) (hr' : Ends r')
    (h : render v ++ r = render w ++ r') : v = w ∧ r = r' := by
  have hkind := kind_eq_of_render h
  cases v with
  | null =>
      cases w with
      | null => exact ⟨rfl, List.append_cancel_left h⟩
      | bool b => cases b <;> cases hkind
      | _ => cases hkind
  | bool b =>
      cases w with
      | bool b' =>
          cases b <;> cases b' <;> first | exact ⟨rfl, List.append_cancel_left h⟩ | cases hkind
      | _ => cases b <;> cases hkind
  | number n =>
      cases w with
      | number n' =>
          rw [render, render] at h
          obtain ⟨rfl, rfl⟩ := number_append_inj hr hr' h
          exact ⟨rfl, rfl⟩
      | bool b => cases b <;> cases hkind
      | _ => cases hkind
  | string s =>
      cases w with
      | string s' =>
          rw [render, render] at h
          obtain ⟨rfl, rfl⟩ := renderString_append_inj h
          exact ⟨rfl, rfl⟩
      | bool b => cases b <;> cases hkind
      | _ => cases hkind
  | array items =>
      cases w with
      | array items' =>
          rw [render, render, List.cons_append, List.cons_append, List.append_assoc,
            List.append_assoc] at h
          obtain ⟨rfl, rfl⟩ := renderItems_append_inj items items' (List.cons.inj h).2
          exact ⟨rfl, rfl⟩
      | bool b => cases b <;> cases hkind
      | _ => cases hkind
  | object fields =>
      cases w with
      | object fields' =>
          rw [render, render, List.cons_append, List.cons_append, List.append_assoc,
            List.append_assoc] at h
          obtain ⟨rfl, rfl⟩ := renderFields_append_inj fields fields' (List.cons.inj h).2
          exact ⟨rfl, rfl⟩
      | bool b => cases b <;> cases hkind
      | _ => cases hkind

theorem renderItems_append_inj (items items' : List Json) {r r' : List Char}
    (h : renderItems items ++ ']' :: r = renderItems items' ++ ']' :: r') :
    items = items' ∧ r = r' := by
  cases items with
  | nil =>
      cases items' with
      | nil =>
          cases h
          exact ⟨rfl, rfl⟩
      | cons w rest =>
          rw [renderItems_cons, List.append_assoc] at h
          exact (render_ne_bracket _ _ _ h.symm).elim
  | cons v rest =>
      cases items' with
      | nil =>
          rw [renderItems_cons, List.append_assoc] at h
          exact (render_ne_bracket _ _ _ h).elim
      | cons w rest' =>
          rw [renderItems_cons, renderItems_cons, List.append_assoc, List.append_assoc] at h
          obtain ⟨rfl, hrest⟩ := render_append_inj v w (ends_rest rfl _ r) (ends_rest rfl _ r') h
          by_cases he : rest = [] <;> by_cases he' : rest' = []
          · rw [if_pos he, if_pos he'] at hrest
            cases hrest
            exact ⟨by rw [he, he'], rfl⟩
          · rw [if_pos he, if_neg he'] at hrest
            cases hrest
          · rw [if_neg he, if_pos he'] at hrest
            cases hrest
          · rw [if_neg he, if_neg he', List.cons_append, List.cons_append] at hrest
            obtain ⟨rfl, rfl⟩ := renderItems_append_inj rest rest' (List.cons.inj hrest).2
            exact ⟨rfl, rfl⟩

theorem renderFields_append_inj (fields fields' : List (List Char × Json)) {r r' : List Char}
    (h : renderFields fields ++ '}' :: r = renderFields fields' ++ '}' :: r') :
    fields = fields' ∧ r = r' := by
  cases fields with
  | nil =>
      cases fields' with
      | nil =>
          cases h
          exact ⟨rfl, rfl⟩
      | cons f rest =>
          obtain ⟨k, v⟩ := f
          rw [renderFields_cons] at h
          cases h
  | cons f rest =>
      obtain ⟨k, v⟩ := f
      cases fields' with
      | nil =>
          rw [renderFields_cons] at h
          cases h
      | cons f' rest' =>
          obtain ⟨k', v'⟩ := f'
          rw [renderFields_cons, renderFields_cons, List.append_assoc, List.append_assoc] at h
          obtain ⟨rfl, hvalue⟩ := renderString_append_inj h
          rw [List.cons_append, List.cons_append, List.append_assoc, List.append_assoc] at hvalue
          obtain ⟨rfl, hrest⟩ :=
            render_append_inj v v' (ends_rest rfl _ r) (ends_rest rfl _ r') (List.cons.inj hvalue).2
          by_cases he : rest = [] <;> by_cases he' : rest' = []
          · rw [if_pos he, if_pos he'] at hrest
            cases hrest
            exact ⟨by rw [he, he'], rfl⟩
          · rw [if_pos he, if_neg he'] at hrest
            cases hrest
          · rw [if_neg he, if_pos he'] at hrest
            cases hrest
          · rw [if_neg he, if_neg he', List.cons_append, List.cons_append] at hrest
            obtain ⟨rfl, rfl⟩ := renderFields_append_inj rest rest' (List.cons.inj hrest).2
            exact ⟨rfl, rfl⟩

end

theorem render_injective {v w : Json} (h : render v = render w) : v = w :=
  (render_append_inj v w ends_nil ends_nil (by rw [h])).1

end Json

end Buzz
