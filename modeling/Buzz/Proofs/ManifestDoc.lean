import Buzz.Git.ManifestDoc
import Buzz.Proofs.AdvertisedRefs
import Buzz.Proofs.Manifest
import Buzz.Proofs.PushReport
import Mathlib.Data.List.TakeWhile

/-!
# The encoding of a manifest

The bytes of a manifest say everything about it but the order of its packs and
how often one is listed, and the reader gets it back. That holds of any
manifest whose version the reader knows, valid or not.
-/

namespace Buzz.Git

open Buzz.Audit (utf8)
open Json
open Buzz.Lib (SortedBy)

/-! ## Packs -/

theorem dedup_sorted {α : Type} [LinearOrder α] {inst : DecidableEq α} {l : List α}
    (h : l.Pairwise (· ≤ ·)) : (@dedup α inst l).Pairwise (· < ·) := by
  induction l with
  | nil => exact List.Pairwise.nil
  | cons a l ih =>
      obtain ⟨hle, hl⟩ := List.pairwise_cons.1 h
      rw [dedup]
      split
      · exact ih hl
      · next hhead =>
          refine List.pairwise_cons.2 ⟨fun b hb => ?_, ih hl⟩
          have hb := mem_dedup.1 hb
          refine lt_of_le_of_ne (hle b hb) fun heq => hhead ?_
          -- the first of the rest is between `a` and `b`
          subst heq
          cases l with
          | nil => cases hb
          | cons c l =>
              rcases List.mem_cons.1 hb with rfl | hb
              · rfl
              · have hcb := (List.pairwise_cons.1 hl).1 a hb
                rw [le_antisymm hcb (hle c List.mem_cons_self)]
                rfl

namespace ManifestDoc

theorem mem_sortPacks {key : List Char} {packs : List (List Char)} :
    key ∈ sortPacks packs ↔ key ∈ packs := by
  rw [sortPacks, mem_dedup, List.mem_insertionSort]

theorem sortPacks_sorted (packs : List (List Char)) : SortedBy id (sortPacks packs) :=
  dedup_sorted (List.pairwise_insertionSort _ _)

/-- Sorted keys are determined by what they are. -/
theorem sortPacks_eq_iff {packs packs' : List (List Char)} :
    sortPacks packs = sortPacks packs' ↔ ∀ key, key ∈ packs ↔ key ∈ packs' := by
  constructor
  · intro h key
    rw [← mem_sortPacks, h, mem_sortPacks]
  · intro h
    refine (sortPacks_sorted packs).ext (sortPacks_sorted packs') fun key => ?_
    rw [mem_sortPacks, mem_sortPacks]
    exact h key

/-- Equal up to the order of the packs and how often one is listed. -/
structure SamePublished (m m' : ManifestDoc) : Prop where
  version : m.version = m'.version
  head : m.head = m'.head
  refs : m.refs = m'.refs
  packs : ∀ key, key ∈ m.packs ↔ key ∈ m'.packs
  parent : m.parent = m'.parent

/-! ## One encoding, one manifest -/

theorem parentText_inj {p p' : Option (List Char)}
    (h : (p.map string).getD .null = (p'.map string).getD .null) : p = p' := by
  cases p with
  | none =>
      cases p' with
      | none => rfl
      | some t => cases h
  | some s =>
      cases p' with
      | none => cases h
      | some t => exact congrArg some (string.inj h)

theorem toJson_injective : Function.Injective toJson := by
  intro m m' h
  unfold toJson at h
  injection h with h
  simp only [List.cons.injEq, Prod.mk.injEq, true_and, and_true] at h
  obtain ⟨hversion, hhead, hrefs, hpacks, hparent⟩ := h
  have hrefs := RefMap.ext (refsJson_inj (object.inj hrefs))
  have hpacks := List.map_injective_iff.2 (fun _ _ => string.inj) (array.inj hpacks)
  cases m
  cases m'
  simp only [ManifestDoc.mk.injEq]
  exact ⟨UInt32.toNat_inj.1 (jsonNat_inj hversion), string.inj hhead, hrefs, hpacks,
    parentText_inj hparent⟩

theorem canonicalBytes_eq_iff {m m' : ManifestDoc} :
    m.canonicalBytes = m'.canonicalBytes ↔ SamePublished m m' := by
  constructor
  · intro h
    have hjson := toJson_injective (render_injective (Audit.utf8_injective h))
    simp only [ManifestDoc.mk.injEq] at hjson
    obtain ⟨hversion, hhead, hrefs, hpacks, hparent⟩ := hjson
    exact ⟨hversion, hhead, hrefs, sortPacks_eq_iff.1 hpacks, hparent⟩
  · intro h
    unfold canonicalBytes
    rw [h.version, h.head, h.refs, h.parent, sortPacks_eq_iff.2 h.packs]

/-! ## Reading back -/

theorem decodeUtf8_utf8 (s : List Char) : decodeUtf8 (utf8 s) = some s := by
  have hdecode := List.utf8Decode?_utf8Encode (l := s)
  unfold decodeUtf8
  have hbytes : (utf8 s).toByteArray = s.utf8Encode := rfl
  rw [hbytes, hdecode, Option.map_some]

theorem isNumber_toDigits (n : Nat) : isNumber (Nat.toDigits 10 n) = true := by
  have hdigit : ∀ c ∈ Nat.toDigits 10 n, c.isDigit = true := fun c hc =>
    Nat.isDigit_of_mem_toDigits (by decide) (by decide) hc
  have hminus : ¬ (Nat.toDigits 10 n).head? = some '-' := by
    intro h
    exact absurd (hdigit '-' (List.mem_of_head? h)) (by decide)
  have hwhole : isWhole (Nat.toDigits 10 n) = true := by
    unfold isWhole
    rcases Nat.eq_zero_or_pos n with rfl | hpos
    · decide
    · have hne : (Nat.toDigits 10 n != []) = true := bne_iff_ne.2 Nat.toDigits_ne_nil
      have hhead : ((Nat.toDigits 10 n).head? != some '0') = true :=
        bne_iff_ne.2 (head_toDigits hpos)
      rw [hne, hhead, Bool.and_true, Bool.or_true]
  unfold isNumber
  dsimp only
  rw [if_neg hminus, List.takeWhile_eq_self_iff.2 hdigit, List.dropWhile_eq_nil_iff.2 hdigit,
    hwhole]
  rfl

theorem readableFields_strings (depth : Nat) (l : List (RefName × Oid)) :
    ReadableFields depth (l.map fun e => (e.1, string e.2)) := by
  induction l with
  | nil =>
      rw [List.map_nil, ReadableFields]
      exact trivial
  | cons e l ih =>
      rw [List.map_cons, ReadableFields, Readable]
      · exact ⟨trivial, ih⟩
      all_goals nofun

theorem readableItems_strings (depth : Nat) (l : List (List Char)) :
    ReadableItems depth (l.map string) := by
  induction l with
  | nil =>
      rw [List.map_nil, ReadableItems]
      exact trivial
  | cons s l ih =>
      rw [List.map_cons, ReadableItems, Readable]
      · exact ⟨trivial, ih⟩
      all_goals nofun

theorem readable_toJson (m : ManifestDoc) : Readable 128 m.toJson := by
  have hparent : Readable 127 ((m.parent.map string).getD .null) := by
    cases m.parent with
    | none =>
        show Readable 127 .null
        rw [Readable]
        · exact trivial
        all_goals nofun
    | some p =>
        show Readable 127 (.string p)
        rw [Readable]
        · exact trivial
        all_goals nofun
  unfold toJson
  simp only [Readable, ReadableFields, jsonNat]
  refine ⟨by decide, isNumber_toDigits _, trivial, ⟨by decide, readableFields_strings _ _⟩,
    ⟨by decide, readableItems_strings _ _⟩, hparent, trivial⟩

theorem asU32_jsonNat (version : UInt32) : asU32 (jsonNat version.toNat) = some version := by
  have hdigits : (Nat.toDigits 10 version.toNat).all Char.isDigit = true :=
    List.all_eq_true.2 fun c hc => Nat.isDigit_of_mem_toDigits (by decide) (by decide) hc
  have hvalue : Nat.ofDigitChars 10 (Nat.toDigits 10 version.toNat) 0 = version.toNat :=
    Nat.ofDigitChars_ten_toDigits
  have hlt : version.toNat < 2 ^ 32 := version.toNat_lt
  unfold asU32 jsonNat
  dsimp only
  rw [hvalue, if_pos ⟨hdigits, hlt⟩, UInt32.ofNat_toNat]

theorem foldlM_strings (l : List (RefName × Oid)) (m : RefMap) :
    (l.map fun e => (e.1, string e.2)).foldlM
        (fun m f => (asString f.2).map fun oid => m.insert f.1 oid) m =
      some (l.foldl (fun m e => m.insert e.1 e.2) m) := by
  induction l generalizing m with
  | nil => rfl
  | cons e l ih =>
      rw [List.map_cons, List.foldlM_cons]
      exact ih (m.insert e.1 e.2)

theorem asStringMap_entries (m : RefMap) :
    asStringMap (.object (m.entries.map fun e => (e.1, string e.2))) = some m := by
  unfold asStringMap
  dsimp only
  rw [foldlM_strings, RefMap.foldl_insert_entries]

theorem asStrings_map (l : List (List Char)) :
    asStrings (.array (l.map string)) = some l := by
  show (l.map string).mapM asString = some l
  induction l with
  | nil => rfl
  | cons s l ih =>
      rw [List.map_cons, List.mapM_cons, ih]
      rfl

theorem asOptional_parent (p : Option (List Char)) :
    asOptional ((p.map string).getD .null) = some p := by
  cases p with
  | none => rfl
  | some p => rfl

theorem ofJson_toJson (m : ManifestDoc) : ofJson m.toJson = some m := by
  unfold toJson ofJson
  have hfields : ∀ (a b c d e : Json),
      fieldOnce [("version".toList, a), ("head".toList, b), ("refs".toList, c),
        ("packs".toList, d), ("parent".toList, e)] "version" = some (some a) ∧
      fieldOnce [("version".toList, a), ("head".toList, b), ("refs".toList, c),
        ("packs".toList, d), ("parent".toList, e)] "head" = some (some b) ∧
      fieldOnce [("version".toList, a), ("head".toList, b), ("refs".toList, c),
        ("packs".toList, d), ("parent".toList, e)] "refs" = some (some c) ∧
      fieldOnce [("version".toList, a), ("head".toList, b), ("refs".toList, c),
        ("packs".toList, d), ("parent".toList, e)] "packs" = some (some d) ∧
      fieldOnce [("version".toList, a), ("head".toList, b), ("refs".toList, c),
        ("packs".toList, d), ("parent".toList, e)] "parent" = some (some e) :=
    fun a b c d e => ⟨rfl, rfl, rfl, rfl, rfl⟩
  obtain ⟨hversion, hhead, hrefs, hpacks, hparent⟩ := hfields (jsonNat m.version.toNat)
    (.string m.head) (.object (m.refs.entries.map fun e => (e.1, .string e.2)))
    (.array (m.packs.map string)) ((m.parent.map string).getD .null)
  have hstring : asString (.string m.head) = some m.head := rfl
  simp only [hversion, hhead, hrefs, hpacks, hparent, Option.bind_eq_bind, Option.bind_some,
    asU32_jsonNat, hstring, asStringMap_entries, asStrings_map, Option.getD_some,
    asOptional_parent]
  rfl

/-- What was written is read, up to the version. -/
theorem fromBytes_toJson (m : ManifestDoc) :
    fromBytes (utf8 m.toJson.render) =
      if m.version.toNat ≠ manifestVersion then
        .error (.unsupportedVersion m.version (UInt32.ofNat manifestVersion))
      else .ok m := by
  unfold fromBytes
  rw [decodeUtf8_utf8, Option.bind_some, parse_render m.readable_toJson, Option.bind_some,
    ofJson_toJson]

/-- A manifest is read back as it was published. -/
def ReadsBack (m : ManifestDoc) : Prop :=
  ∃ m', fromBytes m.canonicalBytes = .ok m' ∧ SamePublished m' m

theorem readsBack_iff (m : ManifestDoc) : m.ReadsBack ↔ m.version.toNat = manifestVersion := by
  unfold ReadsBack canonicalBytes
  rw [fromBytes_toJson]
  constructor
  · rintro ⟨m', hread, -⟩
    by_contra hversion
    rw [if_pos hversion] at hread
    cases hread
  · intro hversion
    refine ⟨{ m with packs := sortPacks m.packs }, if_neg fun hne => hne hversion, ?_⟩
    exact ⟨rfl, rfl, rfl, fun key => mem_sortPacks, rfl⟩

end ManifestDoc

/-! ## Manifests with digests -/

theorem hexEncode_lt_iff {a b : List UInt8} : hexEncode a < hexEncode b ↔ a < b := by
  have hdigit : ∀ i < 16, ∀ j < 16, (hexDigit i < hexDigit j ↔ i < j) ∧
      (hexDigit i = hexDigit j ↔ i = j) := by decide
  have hcons : ∀ (x : UInt8) (l : List UInt8), hexEncode (x :: l) =
      hexDigit (x.toNat / 16) :: hexDigit (x.toNat % 16) :: hexEncode l := fun _ _ => rfl
  induction a generalizing b with
  | nil =>
      cases b with
      | nil => exact ⟨fun h => absurd h (List.not_lt_nil _), fun h => absurd h (List.not_lt_nil _)⟩
      | cons y b => exact ⟨fun _ => List.Lex.nil, fun _ => List.Lex.nil⟩
  | cons x a ih =>
      cases b with
      | nil => exact ⟨fun h => absurd h (List.not_lt_nil _), fun h => absurd h (List.not_lt_nil _)⟩
      | cons y b =>
          have hx := x.toNat_lt
          have hy := y.toNat_lt
          have hhigh := hdigit (x.toNat / 16) (by omega) (y.toNat / 16) (by omega)
          have hlow := hdigit (x.toNat % 16) (by omega) (y.toNat % 16) (by omega)
          have heq : x = y ↔ x.toNat / 16 = y.toNat / 16 ∧ x.toNat % 16 = y.toNat % 16 := by
            rw [← UInt8.toNat_inj]
            omega
          rw [hcons, hcons, List.cons_lt_cons_iff, List.cons_lt_cons_iff, List.cons_lt_cons_iff,
            hhigh.1, hhigh.2, hlow.1, hlow.2, heq, UInt8.lt_iff_toNat_lt]
          constructor
          · rintro (h | ⟨h, h' | ⟨h', hab⟩⟩)
            · exact .inl (by omega)
            · exact .inl (by omega)
            · exact .inr ⟨⟨h, h'⟩, ih.1 hab⟩
          · rintro (h | ⟨⟨h, h'⟩, hab⟩)
            · rcases Nat.lt_or_ge (x.toNat / 16) (y.toNat / 16) with hlt | hge
              · exact .inl hlt
              · exact .inr ⟨by omega, .inl (by omega)⟩
            · exact .inr ⟨h, .inr ⟨h', ih.2 hab⟩⟩

/-- The keys are in the order of the digests. -/
theorem packKeyText_le_iff {a b : Digest} :
    a.bytes ≤ b.bytes ↔ packKeyText a ≤ packKeyText b := by
  have hcons : ∀ (c : Char) (s t : List Char), c :: s < c :: t ↔ s < t := by
    intro c s t
    rw [List.cons_lt_cons_iff]
    exact ⟨fun h => h.elim (fun hc => absurd hc (lt_irrefl c)) And.right, fun h => .inr ⟨rfl, h⟩⟩
  have hlt : packKeyText b < packKeyText a ↔ b.bytes < a.bytes := by
    refine Iff.trans ?_ hexEncode_lt_iff
    unfold packKeyText
    rw [show "packs/".toList = ['p', 'a', 'c', 'k', 's', '/'] from rfl]
    simp only [List.cons_append, List.nil_append, hcons]
  rw [← List.not_lt, ← not_lt, hlt]

theorem map_dedup {α β : Type} [DecidableEq α] [DecidableEq β] {f : α → β}
    (hf : Function.Injective f) (l : List α) : (dedup l).map f = dedup (l.map f) := by
  induction l with
  | nil => rfl
  | cons a l ih =>
      have hhead : (l.map f).head? = some (f a) ↔ l.head? = some a := by
        rw [List.head?_map]
        constructor
        · intro h
          obtain ⟨b, hb, hfb⟩ := Option.map_eq_some_iff.1 h
          rw [hb, hf hfb]
        · intro h
          rw [h]
          rfl
      rw [List.map_cons, dedup, dedup]
      by_cases h : l.head? = some a
      · rw [if_pos h, if_pos (hhead.2 h), ih]
      · rw [if_neg h, if_neg fun h' => h (hhead.1 h'), List.map_cons, ih]

theorem map_sortPacks (packs : List Digest) :
    (sortPacks packs).map packKeyText = ManifestDoc.sortPacks (packs.map packKeyText) := by
  unfold sortPacks ManifestDoc.sortPacks
  rw [map_dedup packKeyText_injective,
    List.map_insertionSort (fun a b : Digest => a.bytes ≤ b.bytes) (· ≤ ·) packKeyText packs
      fun a _ b _ => packKeyText_le_iff]

theorem Manifest.toJson_doc {m : Manifest} (h : m.version < 2 ^ 32) :
    m.doc.toJson = m.toJson := by
  unfold Manifest.doc ManifestDoc.toJson Manifest.toJson
  dsimp only
  rw [UInt32.toNat_ofNat_of_lt' h, List.map_map, Option.map_map]
  rfl

end Buzz.Git
