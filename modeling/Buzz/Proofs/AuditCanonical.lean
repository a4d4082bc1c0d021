import Buzz.Core.JsonValue
import Buzz.Lib.SortedBy
import Buzz.Proofs.AuditEncoding
import Mathlib.Data.List.Perm.Basic

/-!
# Canonical JSON forgets the order of keys and nothing else

A `serde_json::Map` has each key once, but another build of it keeps them in
the order they were inserted in. `canonical_json` sorts them again on every
level, so what it writes is the text of the value with sorted keys, and that
text is the same for two values exactly if they differ in the order of keys
alone. It tells more than `==` does in one place: `0.0` and `-0.0` are equal and
are written differently.
-/

namespace Buzz

namespace Serde

open Value

mutual

/-- Equal up to the order of the keys of every object in it, with the numbers in
the relation `R`. -/
inductive SameValue (R : Number → Number → Prop) : Value → Value → Prop where
  | null : SameValue R .null .null
  | bool (b : Bool) : SameValue R (.bool b) (.bool b)
  | number {n m : Number} (h : R n m) : SameValue R (.number n) (.number m)
  | string (s : List Char) : SameValue R (.string s) (.string s)
  | array {items items' : List Value} (h : SameItems R items items') :
      SameValue R (.array items) (.array items')
  | object {fields reordered fields' : List (List Char × Value)}
      (hperm : fields.Perm reordered) (h : SameFields R reordered fields') :
      SameValue R (.object fields) (.object fields')

/-- Item by item. -/
inductive SameItems (R : Number → Number → Prop) :
    List Value → List Value → Prop where
  | nil : SameItems R [] []
  | cons {v v' : Value} {rest rest' : List Value} (h : SameValue R v v')
      (hrest : SameItems R rest rest') : SameItems R (v :: rest) (v' :: rest')

/-- Field by field, under the same keys in the same order. -/
inductive SameFields (R : Number → Number → Prop) :
    List (List Char × Value) → List (List Char × Value) → Prop where
  | nil : SameFields R [] []
  | cons {k : List Char} {v v' : Value} {rest rest' : List (List Char × Value)}
      (h : SameValue R v v') (hrest : SameFields R rest rest') :
      SameFields R ((k, v) :: rest) ((k, v') :: rest')

end

mutual

/-- Every object has each key once. -/
def Value.Distinct : Value → Prop
  | array items => DistinctItems items
  | object fields => (fields.map Prod.fst).Nodup ∧ DistinctFields fields
  | _ => True

/-- Every object in every item. -/
def Value.DistinctItems : List Value → Prop
  | [] => True
  | v :: rest => Distinct v ∧ DistinctItems rest

/-- Every object in every field. -/
def Value.DistinctFields : List (List Char × Value) → Prop
  | [] => True
  | (_, v) :: rest => Distinct v ∧ DistinctFields rest

end

/-! ## Sorting the keys -/

mutual

/-- The value with the keys of every object in order. -/
def Value.sortKeys : Value → Value
  | object fields =>
      object ((sortFields fields).insertionSort fun f g => f.1 ≤ g.1)
  | array items => array (sortItems items)
  | null => null
  | bool b => bool b
  | number n => number n
  | string s => string s

/-- Every item with its keys in order. -/
def Value.sortItems : List Value → List Value
  | [] => []
  | v :: rest => sortKeys v :: sortItems rest

/-- Every field's value with its keys in order. -/
def Value.sortFields : List (List Char × Value) → List (List Char × Value)
  | [] => []
  | (k, v) :: rest => (k, sortKeys v) :: sortFields rest

end

theorem sortFields_eq_map (fields : List (List Char × Value)) :
    sortFields fields = fields.map fun f => (f.1, sortKeys f.2) := by
  induction fields with
  | nil => rw [sortFields, List.map_nil]
  | cons f rest ih =>
      obtain ⟨k, v⟩ := f
      rw [sortFields, ih, List.map_cons]

theorem keys_sortFields (fields : List (List Char × Value)) :
    (sortFields fields).map Prod.fst = fields.map Prod.fst := by
  rw [sortFields_eq_map, List.map_map]
  rfl

theorem distinctFields_iff {fields : List (List Char × Value)} :
    DistinctFields fields ↔ ∀ f ∈ fields, Distinct f.2 := by
  induction fields with
  | nil => simp [DistinctFields]
  | cons f rest ih =>
      obtain ⟨k, v⟩ := f
      rw [DistinctFields, ih, List.forall_mem_cons]

mutual

theorem SameValue.sortKeys_eq {v w : Value} (h : SameValue Number.Same v w)
    (hv : Distinct v) (hw : Distinct w) : sortKeys v = sortKeys w := by
  match h with
  | .null => rfl
  | .bool b => rfl
  | .number hn => rw [Number.same_iff.1 hn]
  | .string s => rfl
  | .array hitems =>
      rw [Distinct] at hv hw
      rw [sortKeys, sortKeys, hitems.sortItems_eq hv hw]
  | .object hperm hfields =>
      rw [Distinct] at hv hw
      have hreordered := distinctFields_iff.2 fun f hf =>
        distinctFields_iff.1 hv.2 f (hperm.mem_iff.2 hf)
      have heq := hfields.sortFields_eq hreordered hw.2
      rw [sortKeys, sortKeys, ← heq, sortFields_eq_map, sortFields_eq_map]
      refine congrArg object (Lib.SortedBy.insertionSort_eq_of_perm
        (fun _ _ => Iff.rfl) ?_ (hperm.map _))
      rw [← sortFields_eq_map, keys_sortFields]
      exact hv.1

theorem SameItems.sortItems_eq {items items' : List Value}
    (h : SameItems Number.Same items items')
    (hv : DistinctItems items) (hw : DistinctItems items') :
    sortItems items = sortItems items' := by
  match h with
  | .nil => rfl
  | .cons hvalue hrest =>
      rw [DistinctItems] at hv hw
      rw [sortItems, sortItems, hvalue.sortKeys_eq hv.1 hw.1,
        hrest.sortItems_eq hv.2 hw.2]

theorem SameFields.sortFields_eq {fields fields' : List (List Char × Value)}
    (h : SameFields Number.Same fields fields') (hv : DistinctFields fields)
    (hw : DistinctFields fields') :
    sortFields fields = sortFields fields' := by
  match h with
  | .nil => rfl
  | .cons hvalue hrest =>
      rw [DistinctFields] at hv hw
      rw [sortFields, sortFields, hvalue.sortKeys_eq hv.1 hw.1,
        hrest.sortFields_eq hv.2 hw.2]

end

/-- Fields that sort to the same, key by key. -/
theorem sameFields_of_map_eq {fields fields' : List (List Char × Value)}
    (heach : ∀ f ∈ fields, ∀ w, sortKeys f.2 = sortKeys w →
      SameValue Number.Same f.2 w)
    (h : fields.map (fun f => (f.1, sortKeys f.2)) =
      fields'.map fun f => (f.1, sortKeys f.2)) :
    SameFields Number.Same fields fields' := by
  induction fields generalizing fields' with
  | nil =>
      cases fields' with
      | nil => exact .nil
      | cons f' rest' => cases h
  | cons f rest ih =>
      cases fields' with
      | nil => cases h
      | cons f' rest' =>
          obtain ⟨k, v⟩ := f
          obtain ⟨k', v'⟩ := f'
          simp only [List.map_cons, List.cons.injEq, Prod.mk.injEq] at h
          obtain ⟨⟨rfl, hvalue⟩, hrest⟩ := h
          exact .cons (heach _ List.mem_cons_self _ hvalue)
            (ih (fun f hf => heach f (List.mem_cons_of_mem _ hf)) hrest)

mutual

theorem sameValue_of_sortKeys (v w : Value) (h : sortKeys v = sortKeys w) :
    SameValue Number.Same v w := by
  match v with
  | .null => cases w <;> simp only [sortKeys, reduceCtorEq] at h; exact .null
  | .bool b =>
      cases w <;> simp only [sortKeys, reduceCtorEq, Value.bool.injEq] at h
      subst h
      exact .bool b
  | .number n =>
      cases w <;> simp only [sortKeys, reduceCtorEq, Value.number.injEq] at h
      subst h
      exact .number (Number.same_iff.2 rfl)
  | .string s =>
      cases w <;> simp only [sortKeys, reduceCtorEq, Value.string.injEq] at h
      subst h
      exact .string s
  | .array items =>
      cases w <;> simp only [sortKeys, reduceCtorEq, Value.array.injEq] at h
      exact .array (sameItems_of_sortItems items _ h)
  | .object fields =>
      cases w <;> simp only [sortKeys, reduceCtorEq, Value.object.injEq] at h
      next fields' =>
        -- the sorted fields are those of both sides, so one side is the other
        -- reordered
        have hperm : (sortFields fields').Perm (sortFields fields) := by
          have hleft :=
            List.perm_insertionSort (fun f g => f.1 ≤ g.1) (sortFields fields)
          have hright :=
            List.perm_insertionSort (fun f g => f.1 ≤ g.1) (sortFields fields')
          rw [h] at hleft
          exact hright.symm.trans hleft
        rw [sortFields_eq_map, sortFields_eq_map] at hperm
        have hexists := List.eq_map_comp_perm
          (fun f : List Char × Value => (f.1, sortKeys f.2))
        obtain ⟨reordered, hmap, hre⟩ :=
          (congrFun (congrFun hexists _) fields).mpr hperm
        refine .object hre.symm (sameFields_of_map_eq (fun f hf => ?_) hmap.symm)
        exact sameValue_of_field fields f (hre.mem_iff.1 hf)

theorem sameItems_of_sortItems (items items' : List Value)
    (h : sortItems items = sortItems items') :
    SameItems Number.Same items items' := by
  match items, items' with
  | [], [] => exact .nil
  | [], w :: rest' => cases h
  | v :: rest, [] => cases h
  | v :: rest, w :: rest' =>
      rw [sortItems, sortItems, List.cons.injEq] at h
      exact .cons (sameValue_of_sortKeys v w h.1)
        (sameItems_of_sortItems rest rest' h.2)

theorem sameValue_of_field (fields : List (List Char × Value))
    (f : List Char × Value) (hf : f ∈ fields) (w : Value)
    (h : sortKeys f.2 = sortKeys w) : SameValue Number.Same f.2 w := by
  match fields with
  | [] => cases hf
  | (k, v) :: rest =>
      rcases List.mem_cons.1 hf with rfl | hrest
      · exact sameValue_of_sortKeys v w h
      · exact sameValue_of_field rest f hrest w h

end

end Serde

namespace Audit

open Json Serde Value

/-! ## What is written is the sorted value -/

theorem joinFields_map (fields : List (List Char × Json)) :
    joinFields (fields.map fun f => (f.1, f.2.render)) = renderFields fields := by
  match fields with
  | [] => rw [List.map_nil, joinFields, renderFields]
  | [(k, v)] => rw [List.map_singleton, joinFields, renderFields]
  | (k, v) :: (k', v') :: rest =>
      have hrest := joinFields_map ((k', v') :: rest)
      rw [List.map_cons, List.map_cons, joinFields, renderFields, ← hrest,
        List.map_cons]

theorem fieldsJson_eq_map (p : FloatText) (fields : List (List Char × Value)) :
    fieldsJson p fields = fields.map fun f => (f.1, toJson p f.2) := by
  induction fields with
  | nil => rw [fieldsJson, List.map_nil]
  | cons f rest ih =>
      obtain ⟨k, v⟩ := f
      rw [fieldsJson, ih, List.map_cons]

mutual

theorem canonicalJson_eq_sorted (p : FloatText) (v : Value) :
    canonicalJson (toJson p v) = (toJson p (sortKeys v)).render := by
  match v with
  | .null => rw [toJson, canonicalJson, sortKeys, toJson]
  | .bool b => rw [toJson, canonicalJson, sortKeys, toJson]
  | .number n => rw [toJson, canonicalJson, sortKeys, toJson]
  | .string s => rw [toJson, canonicalJson, sortKeys, toJson]
  | .array items =>
      rw [toJson, canonicalJson, sortKeys, toJson, render,
        canonicalItems_eq_sorted p items]
  | .object fields =>
      -- writing out the values does not change how the keys compare
      have hsort := List.map_insertionSort
        (fun f g : List Char × Value => f.1 ≤ g.1)
        (fun f g : List Char × List Char => f.1 ≤ g.1)
        (fun f => (f.1, (toJson p f.2).render)) (sortFields fields)
        fun _ _ _ _ => Iff.rfl
      rw [toJson, canonicalJson, sortKeys, toJson, render,
        canonicalFields_eq_sorted p fields, ← hsort, fieldsJson_eq_map,
        ← joinFields_map, List.map_map]
      rfl

theorem canonicalItems_eq_sorted (p : FloatText) (items : List Value) :
    canonicalItems (itemsJson p items) =
      renderItems (itemsJson p (sortItems items)) := by
  match items with
  | [] => rw [itemsJson, canonicalItems, sortItems, itemsJson, renderItems]
  | [v] =>
      rw [itemsJson, itemsJson, canonicalItems, sortItems, sortItems, itemsJson,
        itemsJson, renderItems, canonicalJson_eq_sorted p v]
  | v :: w :: rest =>
      have hrest := canonicalItems_eq_sorted p (w :: rest)
      rw [itemsJson, sortItems, itemsJson] at hrest
      rw [itemsJson, itemsJson, canonicalItems, sortItems, sortItems, itemsJson,
        itemsJson, renderItems, canonicalJson_eq_sorted p v, hrest]

theorem canonicalFields_eq_sorted (p : FloatText)
    (fields : List (List Char × Value)) :
    canonicalFields (fieldsJson p fields) =
      (sortFields fields).map fun f => (f.1, (toJson p f.2).render) := by
  match fields with
  | [] => rw [fieldsJson, canonicalFields, sortFields, List.map_nil]
  | (k, v) :: rest =>
      rw [fieldsJson, canonicalFields, sortFields, List.map_cons,
        canonicalJson_eq_sorted p v, canonicalFields_eq_sorted p rest]

end

/-- `serde_json::Value`, with the entries of a map in any order. -/
structure JsonValue where
  value : Value
  distinct : value.Distinct

theorem canonicalJson_eq_iff (p : FloatText) (v w : JsonValue) :
    canonicalJson (v.value.toJson p) = canonicalJson (w.value.toJson p) ↔
      SameValue Number.Same v.value w.value := by
  rw [canonicalJson_eq_sorted, canonicalJson_eq_sorted]
  constructor
  · intro h
    exact sameValue_of_sortKeys _ _ (toJson_injective _ _ (render_injective h))
  · intro h
    rw [h.sortKeys_eq v.distinct w.distinct]

/-- An entry with its details as the value they are. -/
structure ValueEntry (p : FloatText) where
  entry : AuditEntry
  detail : Value
  printed : entry.detail.value = detail.toJson p

/-- What is hashed for an entry tells its fields, and what is written for a value
tells it up to the order of keys, with the sign of a zero. -/
theorem audit_preimages_injective (p : FloatText) :
    (∀ e e' : ValueEntry p, tlvEncoding e.entry = tlvEncoding e'.entry →
      e.entry.SameContent e'.entry ∧ e.detail = e'.detail) ∧
    ∀ v w : JsonValue,
      canonicalJson (v.value.toJson p) = canonicalJson (w.value.toJson p) ↔
        SameValue Number.Same v.value w.value := by
  refine ⟨fun e e' h => ?_, canonicalJson_eq_iff p⟩
  have hsame := tlvEncoding_inj h
  refine ⟨hsame, toJson_injective (p := p) _ _ ?_⟩
  rw [← e.printed, ← e'.printed, hsame.detail]

/-! ## Zeros -/

/-- A printer that writes zeros as they are written, `0.0` and `-0.0`. -/
def plainFloats : FloatText where
  text x :=
    signedText x.negative x.exponent.val ++ '.' :: Nat.toDigits 10 x.fraction.val
  chars x := by
    have hfraction := signedText_isNumberChar false x.fraction.val
    rw [List.all_append, List.all_cons, signedText_isNumberChar, Bool.true_and]
    exact hfraction
  marked x := .inl (List.mem_append_right _ List.mem_cons_self)
  injective x y h := by
    have hpoint : ∀ (b : Bool) (n : Nat), '.' ∉ signedText b n :=
      fun b n hmem => (mem_signedText hmem).elim (by decide) (by decide)
    obtain ⟨hint, -, hfraction⟩ :=
      (List.append_cons_inj_of_notMem (hpoint _ _) (hpoint false _)).1 h
    obtain ⟨hsign, hexp⟩ := signedText_injective hint
    cases x
    cases y
    simp only at hsign hexp hfraction
    rw [hsign, Fin.ext hexp, Fin.ext (toDigits_injective hfraction)]

/-- A zero is equal to the other one and is written differently. -/
theorem zeros_equal_written_apart :
    SameValue (fun n m => n.eq m = true) (.number (.float (.zero false)))
        (.number (.float (.zero true))) ∧
      canonicalJson (toJson plainFloats (.number (.float (.zero false)))) =
        "0.0".toList ∧
      canonicalJson (toJson plainFloats (.number (.float (.zero true)))) =
        "-0.0".toList :=
  ⟨.number (by decide), by decide, by decide⟩

/-- `{"b":null,"a":true}` with its keys in any order. -/
def twoKeys (swapped : Bool) : JsonValue where
  value :=
    .object
      (if swapped then [("a".toList, .bool true), ("b".toList, .null)]
      else [("b".toList, .null), ("a".toList, .bool true)])
  distinct := by cases swapped <;> simp [Distinct, DistinctFields]

/-- The entry of the source's own digests, so many nanoseconds into the year. -/
def entryAt (nanos : Nat) (h : nanos < 1000000000) : ValueEntry plainFloats where
  entry := { sampleEntry 2 with createdAt := .newYear nanos h }
  detail := .null
  printed := rfl

theorem tlvEncoding_entryAt {nanos nanos' : Nat} {h : nanos < 1000000000}
    {h' : nanos' < 1000000000}
    (hcut : nanos - nanos % 1000 = nanos' - nanos' % 1000) :
    tlvEncoding (entryAt nanos h).entry = tlvEncoding (entryAt nanos' h').entry := by
  have htime : toStoragePrecision (.newYear nanos h) =
      toStoragePrecision (.newYear nanos' h') := by
    simp only [toStoragePrecision, DateTime.newYear, hcut]
  unfold tlvEncoding entryAt
  rw [htime]

theorem audit_preimages_injective_twoKeys :
    (entryAt 1 (by decide)).entry.SameContent (entryAt 999 (by decide)).entry ∧
      canonicalJson ((twoKeys false).value.toJson plainFloats) =
        canonicalJson ((twoKeys true).value.toJson plainFloats) := by
  obtain ⟨hentries, hvalues⟩ := audit_preimages_injective plainFloats
  refine ⟨(hentries _ _ (tlvEncoding_entryAt (by decide))).1, (hvalues _ _).2 ?_⟩
  exact .object (List.Perm.swap _ _ _) (.cons (.bool true) (.cons .null .nil))

end Audit

end Buzz
