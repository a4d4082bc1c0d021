import Buzz.Proofs.ManifestDoc

/-!
# What a push publishes and what a reader takes

A reader refuses a manifest of more than 4 MiB. How long the bytes of one are is
said here by its parts (`encodedSize`). Everything else a reader checks has been
checked before.
-/

namespace Buzz.Git

open Buzz.Audit (utf8)

/-! ## The size of a manifest -/

/-- Parts of these lengths with a comma between them. -/
def listedLength (lengths : List Nat) : Nat := lengths.sum + (lengths.length - 1)

/-- The bytes of a manifest of version 1. -/
def Manifest.encodedSize (m : Manifest) : Nat :=
  54 + m.head.length +
    listedLength (m.refs.entries.map fun e => e.1.length + e.2.length + 5) +
    listedLength (m.packs.map fun _ => 72) + if m.parent.isSome then 66 else 4

theorem listedLength_cons (a : Nat) (l : List Nat) :
    listedLength (a :: l) = a + if l = [] then 0 else 1 + listedLength l := by
  cases l with
  | nil => rfl
  | cons b l =>
      rw [if_neg (List.cons_ne_nil b l)]
      simp only [listedLength, List.sum_cons, List.length_cons]
      omega

theorem isRefChar_of_hex {c : Char} (h : isAsciiHexdigit c = true) : isRefChar c = true := by
  have halnum : c.isAlphanum = true := by
    unfold isAsciiHexdigit hexValue at h
    unfold Char.isAlphanum Char.isAlpha Char.isUpper Char.isLower Char.isDigit
    simp only [Bool.or_eq_true, Bool.and_eq_true, decide_eq_true_eq]
    split at h
    · next hc => exact .inr hc
    · split at h
      · next hc => exact .inl (.inr ⟨hc.1, Nat.le_trans hc.2 (by decide)⟩)
      · split at h
        · next hc => exact .inl (.inl ⟨hc.1, Nat.le_trans hc.2 (by decide)⟩)
        · cases h
  unfold isRefChar
  rw [halnum]
  rfl

theorem escapeChar_refChar {c : Char} (h : isRefChar c = true) : Json.escapeChar c = [c] := by
  have hnot : ∀ d : Char, isRefChar d = false → c ≠ d := by
    rintro d hd rfl
    rw [h] at hd
    cases hd
  have hlow : ¬ c.toNat < 32 :=
    Nat.not_lt.2 (Nat.le_trans (by decide) (isRefChar_bounds h).1)
  unfold Json.escapeChar
  rw [if_neg (hnot '"' (by decide)), if_neg (hnot '\\' (by decide)), if_neg hlow]

variable {s : List Char}

theorem ascii_of_refChars (h : s.all isRefChar = true) : s.all isAscii = true :=
  List.all_eq_true.2 fun c hc => isRefChar_ascii (List.all_eq_true.1 h c hc)

theorem renderString_refChars (h : s.all isRefChar = true) :
    Json.renderString s = '"' :: (s ++ ['"']) := by
  have hescape : s.flatMap Json.escapeChar = s := by
    induction s with
    | nil => rfl
    | cons c s ih =>
        rw [List.all_cons, Bool.and_eq_true] at h
        rw [List.flatMap_cons, escapeChar_refChar h.1, ih h.2, List.singleton_append]
  rw [Json.renderString, hescape]

theorem length_utf8_cons {c : Char} (h : isAscii c = true) (s : List Char) :
    (utf8 (c :: s)).length = (utf8 s).length + 1 := by
  have hsplit : c :: s = [c] ++ s := rfl
  rw [hsplit, length_utf8_append, length_utf8_ascii (by rw [List.all_cons, h]; rfl)]
  exact Nat.add_comm _ _

theorem length_renderString (h : s.all isRefChar = true) :
    (utf8 (Json.renderString s)).length = s.length + 2 := by
  rw [renderString_refChars h, length_utf8_cons (by decide), length_utf8_append,
    length_utf8_ascii (ascii_of_refChars h)]
  rfl

theorem length_renderItems {l : List (List Char)} (h : ∀ s ∈ l, s.all isRefChar = true) :
    (utf8 (Json.renderItems (l.map Json.string))).length =
      listedLength (l.map fun s => s.length + 2) := by
  induction l with
  | nil => rfl
  | cons s l ih =>
      obtain ⟨hs, hl⟩ := List.forall_mem_cons.1 h
      have hnil : l.map Json.string = [] ↔ l.map (fun s => s.length + 2) = [] := by
        rw [List.map_eq_nil_iff, List.map_eq_nil_iff]
      rw [List.map_cons, Json.renderItems_cons, length_utf8_append, List.map_cons,
        listedLength_cons, Json.render, length_renderString hs]
      by_cases hempty : l.map Json.string = []
      · rw [if_pos hempty, if_pos (hnil.1 hempty)]
        rfl
      · rw [if_neg hempty, if_neg fun h => hempty (hnil.2 h), length_utf8_cons (by decide), ih hl]
        omega

theorem length_renderFields {l : List (RefName × Oid)}
    (h : ∀ e ∈ l, e.1.all isRefChar = true ∧ e.2.all isRefChar = true) :
    (utf8 (Json.renderFields (l.map fun e => (e.1, Json.string e.2)))).length =
      listedLength (l.map fun e => e.1.length + e.2.length + 5) := by
  induction l with
  | nil => rfl
  | cons e l ih =>
      obtain ⟨he, hl⟩ := List.forall_mem_cons.1 h
      have hnil : l.map (fun e => (e.1, Json.string e.2)) = [] ↔
          l.map (fun e => e.1.length + e.2.length + 5) = [] := by
        rw [List.map_eq_nil_iff, List.map_eq_nil_iff]
      rw [List.map_cons, Json.renderFields_cons, length_utf8_append,
        length_utf8_cons (by decide), length_utf8_append, List.map_cons, listedLength_cons,
        Json.render, length_renderString he.1, length_renderString he.2]
      by_cases hempty : l.map (fun e => (e.1, Json.string e.2)) = []
      · rw [if_pos hempty, if_pos (hnil.1 hempty)]
        show _ + (_ + 0 + 1) = _
        omega
      · rw [if_neg hempty, if_neg fun h => hempty (hnil.2 h), length_utf8_cons (by decide), ih hl]
        omega

/-- What `validate` accepts. -/
structure Manifest.Wf (m : Manifest) : Prop where
  packs : m.packs.length ≤ maxManifestPacks
  count : m.refs.entries.length ≤ maxManifestRefs
  head : isSafeRefname m.head = true
  names : ∀ e ∈ m.refs.entries, isSafeRefname e.1 = true
  oids : ∀ e ∈ m.refs.entries, isHexOid e.2 = true

variable {refname : RefName}

theorem validateRef_eq_none {oid : Oid} :
    validateRef refname oid = none ↔ isSafeRefname refname = true ∧ isHexOid oid = true := by
  unfold validateRef
  cases isSafeRefname refname <;> cases isHexOid oid <;> simp

variable {m : Manifest}

theorem wf_of_validate (h : m.validate = none) : m.Wf := by
  unfold Manifest.validate at h
  split at h
  · cases h
  · next hpacks =>
      split at h
      · cases h
      · next hcount =>
          split at h
          · cases h
          · split at h
            · cases h
            · next hhead =>
                rw [List.findSome?_eq_none_iff] at h
                have hsafe : isSafeRefname m.head = true := by
                  cases hm : isSafeRefname m.head with
                  | true => rfl
                  | false => exact absurd (by rw [hm]; rfl) hhead
                exact ⟨Nat.le_of_not_lt hpacks, Nat.le_of_not_lt hcount, hsafe,
                  fun e he => (validateRef_eq_none.1 (h e he)).1,
                  fun e he => (validateRef_eq_none.1 (h e he)).2⟩

theorem Manifest.Wf.head_isEmpty (h : m.Wf) : m.head.isEmpty = false := by
  cases hm : m.head with
  | nil =>
      have hhead := h.head
      rw [hm] at hhead
      exact absurd hhead (by decide)
  | cons c l => rfl

theorem hexEncode_all {p : Char → Bool} {bytes : List UInt8}
    (hdigit : ∀ n < 16, p (hexDigit n) = true) : (hexEncode bytes).all p = true := by
  refine List.all_eq_true.2 fun c hc => ?_
  obtain ⟨b, -, hmem⟩ := List.mem_flatMap.1 hc
  have hb := b.toNat_lt
  rcases List.mem_cons.1 hmem with rfl | hmem
  · exact hdigit _ (by omega)
  · rw [List.mem_singleton.1 hmem]
    exact hdigit _ (by omega)

theorem hexEncode_isHex {bytes : List UInt8} : (hexEncode bytes).all isAsciiHexdigit = true :=
  hexEncode_all (by decide)

theorem length_hexEncode_digest (d : Digest) : (hexEncode d.bytes).length = 64 := by
  have hlength : ∀ l : List UInt8, (hexEncode l).length = 2 * l.length := by
    intro l
    induction l with
    | nil => rfl
    | cons b l ih =>
        show (hexEncode l).length + 1 + 1 = _
        rw [ih, List.length_cons]
        omega
  rw [hlength, d.size]

theorem refChars_of_hex (h : s.all isAsciiHexdigit = true) :
    s.all isRefChar = true :=
  List.all_eq_true.2 fun c hc => isRefChar_of_hex (List.all_eq_true.1 h c hc)

theorem packKeyText_refChars (d : Digest) : (packKeyText d).all isRefChar = true := by
  unfold packKeyText
  rw [List.all_append, refChars_of_hex hexEncode_isHex]
  decide

theorem length_packKeyText (d : Digest) : (packKeyText d).length = 70 := by
  unfold packKeyText
  rw [List.length_append, length_hexEncode_digest]
  rfl

theorem length_packs (packs : List Digest) :
    (utf8 (Json.renderItems (packs.map fun key => Json.string (packKeyText key)))).length =
      listedLength (packs.map fun _ => 72) := by
  have hmap : (packs.map fun key => Json.string (packKeyText key)) =
      (packs.map packKeyText).map Json.string := by
    rw [List.map_map]
    rfl
  rw [hmap, length_renderItems fun s hs => ?_, List.map_map]
  · congr 1
    refine List.map_congr_left fun d _ => ?_
    show (packKeyText d).length + 2 = 72
    rw [length_packKeyText]
  · obtain ⟨d, -, rfl⟩ := List.mem_map.1 hs
    exact packKeyText_refChars d

theorem length_parent (parent : Option Digest) :
    (utf8 (Json.render ((parent.map fun d => Json.string (hexEncode d.bytes)).getD .null))).length =
      if parent.isSome then 66 else 4 := by
  cases parent with
  | none => rfl
  | some d =>
      show (utf8 (Json.render (.string (hexEncode d.bytes)))).length = 66
      rw [Json.render, length_renderString (refChars_of_hex hexEncode_isHex),
        length_hexEncode_digest]

theorem Manifest.length_toJson (h : m.Wf)
    (hversion : m.version = manifestVersion) :
    (utf8 m.toJson.render).length = m.encodedSize := by
  have hrefs : (utf8 (Json.renderFields
      (m.refs.entries.map fun e => (e.1, Json.string e.2)))).length =
        listedLength (m.refs.entries.map fun e => e.1.length + e.2.length + 5) :=
    length_renderFields fun e he => ⟨isSafeRefname_all (h.names e he),
      refChars_of_hex (isHexOid_all (h.oids e he))⟩
  have hhead := length_renderString (isSafeRefname_all h.head)
  have hpacks := length_packs m.packs
  have hparent := length_parent m.parent
  have hone : (utf8 (jsonNat manifestVersion).render).length = 1 := by decide
  have hkeys : (utf8 (Json.renderString "version".toList)).length = 9 ∧
      (utf8 (Json.renderString "head".toList)).length = 6 ∧
      (utf8 (Json.renderString "refs".toList)).length = 6 ∧
      (utf8 (Json.renderString "packs".toList)).length = 7 ∧
      (utf8 (Json.renderString "parent".toList)).length = 8 := by decide
  obtain ⟨hk1, hk2, hk3, hk4, hk5⟩ := hkeys
  have hcons : ∀ c : Char, isAscii c = true → ∀ s, (utf8 (c :: s)).length = (utf8 s).length + 1 :=
    fun c hc s => length_utf8_cons hc s
  have hobject : ∀ fields, (utf8 (Json.render (.object fields))).length =
      (utf8 (Json.renderFields fields)).length + 2 := by
    intro fields
    rw [Json.render, length_utf8_cons (by decide), length_utf8_append]
    rfl
  have harray : ∀ items, (utf8 (Json.render (.array items))).length =
      (utf8 (Json.renderItems items)).length + 2 := by
    intro items
    rw [Json.render, length_utf8_cons (by decide), length_utf8_append]
    rfl
  unfold Manifest.toJson Manifest.encodedSize
  rw [hobject, hversion]
  simp only [Json.renderFields, length_utf8_append, hcons ':' (by decide), hcons ',' (by decide),
    hobject, harray, hone, hk1, hk2, hk3, hk4, hk5, hrefs, hpacks, hparent]
  rw [Json.render, hhead]
  omega

/-! ## What a reader checks -/

theorem hexEncode_lower {bytes : List UInt8} :
    (hexEncode bytes).all (fun c => ('0' ≤ c && c ≤ '9') || ('a' ≤ c && c ≤ 'f')) = true :=
  hexEncode_all (by decide)

theorem isManifestDigest_hexEncode (d : Digest) : isManifestDigest (hexEncode d.bytes) = true := by
  unfold isManifestDigest
  rw [length_utf8_ascii (ascii_of_refChars (refChars_of_hex hexEncode_isHex)),
    length_hexEncode_digest, hexEncode_lower]
  rfl

theorem isPackKey_packKeyText (d : Digest) : isPackKey (packKeyText d) = true := by
  have hstart : "packs/".toList.isPrefixOf? (packKeyText d) = some (hexEncode d.bytes) :=
    List.isPrefixOf?_eq_some_iff_append_eq.2 rfl
  unfold isPackKey
  rw [hstart]
  exact isManifestDigest_hexEncode d

theorem Manifest.Wf.validate_doc (h : m.Wf) : m.doc.validate = none := by
  have hrefs : m.refs.entries.findSome? (fun e => ManifestDoc.checkRef e.1 e.2) = none := by
    rw [List.findSome?_eq_none_iff]
    intro e he
    unfold ManifestDoc.checkRef
    rw [h.names e he, h.oids e he]
    rfl
  have hpacks : m.doc.packs.find? (fun pack => !isPackKey pack) = none := by
    rw [List.find?_eq_none]
    intro key hkey
    obtain ⟨d, -, rfl⟩ := List.mem_map.1 hkey
    rw [isPackKey_packKeyText]
    decide
  have hparent : m.doc.parent.filter (fun p => !isManifestDigest p) = none := by
    unfold Manifest.doc
    cases m.parent with
    | none => rfl
    | some d =>
        show Option.filter _ (some (hexEncode d.bytes)) = none
        rw [Option.filter_some, isManifestDigest_hexEncode]
        rfl
  have hcount : m.doc.packs.length ≤ maxManifestPacks := by
    unfold Manifest.doc
    rw [List.length_map]
    exact h.packs
  have hdocRefs : m.doc.refs = m.refs := rfl
  have hdocHead : m.doc.head = m.head := rfl
  unfold ManifestDoc.validate
  rw [hdocRefs, hdocHead, if_neg (Nat.not_lt_of_le hcount), if_neg (Nat.not_lt_of_le h.count),
    if_neg (by rw [h.head_isEmpty]; decide), if_neg (by rw [h.head]; decide), hrefs, hpacks,
    hparent]
  rfl

/-- The reader gets the manifest, if it is not too large. -/
theorem Manifest.Wf.loadBytes_eq (h : m.Wf)
    (hversion : m.version = manifestVersion) :
    loadBytes (utf8 m.toJson.render) =
      if maxManifestBytes < m.encodedSize then .error .resourceLimit else .ok m.doc := by
  have hlt : m.version < 2 ^ 32 := by
    rw [hversion]
    decide
  have hdoc : ¬ m.doc.version.toNat ≠ manifestVersion := by
    show ¬ (UInt32.ofNat m.version).toNat ≠ manifestVersion
    rw [hversion]
    decide
  unfold loadBytes
  rw [m.length_toJson h hversion, ← Manifest.toJson_doc hlt, ManifestDoc.fromBytes_toJson,
    if_neg hdoc]
  dsimp only
  rw [h.validate_doc]

/-! ## Loose refs -/

/-- The refs of a repository that git keeps: each is a file, so that none is a
directory of another one and none is one of the directories git makes. -/
structure KeptAsFiles (refs : RefMap) : Prop where
  apart : ∀ a ∈ refs.keys, ∀ b ∈ refs.keys, a ≠ b → ¬ refPath a <+: refPath b
  notDir : ∀ a ∈ refs.keys, refPath a ∉ bareRepo.dirs

theorem KeptAsFiles.mono {refs refs' : RefMap} (h : KeptAsFiles refs)
    (hsub : refs'.keys ⊆ refs.keys) : KeptAsFiles refs' :=
  ⟨fun a ha b hb => h.apart a (hsub ha) b (hsub hb), fun a ha => h.notDir a (hsub ha)⟩

/-- The repository after these refs were written. -/
structure WroteRefs (done : List (RefName × Oid)) (t : FileTree) : Prop where
  files : ∀ p, t.isFile p = true → ∃ e ∈ done, p = refPath e.1
  dirs : ∀ p ∈ t.dirs, p ∈ bareRepo.dirs ∨ ∃ e ∈ done, p <+: (refPath e.1).dropLast
  contents : ∀ e ∈ done, t.read (refPath e.1) = some (e.2 ++ ['\n'])

theorem wroteRefs_bareRepo : WroteRefs [] bareRepo :=
  ⟨fun _ h => (nomatch h), fun _ h => .inl h, fun _ h => (nomatch h)⟩

theorem FileTree.read_cons_self (dirs : List Path) (files : List (Path × List Char)) (path : Path)
    (text : List Char) : (FileTree.mk dirs ((path, text) :: files)).read path = some text := by
  simp [FileTree.read]

theorem FileTree.read_cons_of_ne (dirs : List Path) (files : List (Path × List Char))
    (text : List Char) {p path : Path} (h : p ≠ path) :
    (FileTree.mk dirs ((p, text) :: files)).read path = (FileTree.mk dirs files).read path := by
  simp [FileTree.read, h]

/-- A safe name is below `refs`. -/
theorem refPath_eq (h : isSafeRefname refname = true) :
    ∃ rest, refPath refname = "refs".toList :: rest := by
  have hstart : "refs/".toList <+: refname := by
    unfold isSafeRefname at h
    simp only [Bool.and_eq_true] at h
    exact of_decide_eq_true h.1.1.1.1
  obtain ⟨tail, rfl⟩ := hstart
  have hnotMem : '/' ∉ "refs".toList := by decide
  have hsplit : ("refs/".toList ++ tail).splitOn '/' = "refs".toList :: tail.splitOn '/' :=
    List.splitOn_append_cons_self_of_not_mem hnotMem tail
  refine ⟨(tail.splitOn '/').filter (· ≠ ['.']), ?_⟩
  unfold refPath
  rw [hsplit, List.filter_cons_of_pos (by decide)]

theorem refPath_ne_nil (h : isSafeRefname refname = true) :
    refPath refname ≠ [] := by
  obtain ⟨rest, hrest⟩ := refPath_eq h
  rw [hrest]
  nofun

theorem installRef_wrote {done : List (RefName × Oid)} {t : FileTree} {e : RefName × Oid}
    (h : WroteRefs done t) (hname : isSafeRefname e.1 = true) (hoid : isHexOid e.2 = true)
    (hnew : ∀ d ∈ done, ¬ refPath d.1 <+: refPath e.1 ∧ ¬ refPath e.1 <+: refPath d.1)
    (hdir : refPath e.1 ∉ bareRepo.dirs) :
    ∃ t', installRef t e.1 e.2 = some t' ∧ WroteRefs (e :: done) t' := by
  have hparents : ((refPath e.1).dropLast.inits.any t.isFile) = false := by
    rw [Bool.eq_false_iff, Ne, List.any_eq_true]
    rintro ⟨p, hp, hfile⟩
    obtain ⟨d, hd, rfl⟩ := h.files p hfile
    rw [List.mem_inits] at hp
    exact (hnew d hd).1 (hp.trans (List.dropLast_prefix _))
  have hfree : refPath e.1 ∉ (refPath e.1).dropLast.inits ++ t.dirs := by
    rw [List.mem_append, not_or]
    refine ⟨fun hp => ?_, fun hp => ?_⟩
    · rw [List.mem_inits] at hp
      -- a path that is no longer than all but its last part is empty
      have hlength := hp.length_le
      rw [List.length_dropLast] at hlength
      have hnil : refPath e.1 = [] := List.eq_nil_of_length_eq_zero (by omega)
      exact refPath_ne_nil hname hnil
    · rcases h.dirs _ hp with hbare | ⟨d, hd, hstart⟩
      · exact hdir hbare
      · exact (hnew d hd).2 (hstart.trans (List.dropLast_prefix _))
  refine ⟨⟨(refPath e.1).dropLast.inits ++ t.dirs, (refPath e.1, e.2 ++ ['\n']) :: t.files⟩,
    ?_, ?_, ?_, ?_⟩
  · unfold installRef FileTree.createDirAll FileTree.write
    rw [hname, hoid, hparents]
    exact if_neg hfree
  · intro p hp
    have hcases : (decide (refPath e.1 = p) || t.isFile p) = true := hp
    rw [Bool.or_eq_true, decide_eq_true_eq] at hcases
    rcases hcases with rfl | hold
    · exact ⟨e, List.mem_cons_self, rfl⟩
    · obtain ⟨d, hd, heq⟩ := h.files p hold
      exact ⟨d, List.mem_cons_of_mem e hd, heq⟩
  · intro p hp
    rcases List.mem_append.1 hp with hp | hp
    · exact .inr ⟨e, List.mem_cons_self, (List.mem_inits _ _).1 hp⟩
    · rcases h.dirs p hp with hbare | ⟨d, hd, hstart⟩
      · exact .inl hbare
      · exact .inr ⟨d, List.mem_cons_of_mem e hd, hstart⟩
  · intro d hd
    rcases List.mem_cons.1 hd with rfl | hd
    · exact FileTree.read_cons_self _ _ _ _
    · have hne : refPath e.1 ≠ refPath d.1 := by
        intro heq
        refine (hnew d hd).1 ?_
        rw [heq]
      rw [FileTree.read_cons_of_ne _ _ _ hne]
      exact h.contents d hd

/-- All refs can be written, one after the other. -/
theorem foldlM_installRef {done l : List (RefName × Oid)} {t : FileTree} (h : WroteRefs done t)
    (hnames : ∀ e ∈ l, isSafeRefname e.1 = true) (hoids : ∀ e ∈ l, isHexOid e.2 = true)
    (hapart : ∀ e ∈ l, ∀ d ∈ done,
      ¬ refPath d.1 <+: refPath e.1 ∧ ¬ refPath e.1 <+: refPath d.1)
    (hothers : l.Pairwise fun a b => ¬ refPath a.1 <+: refPath b.1 ∧ ¬ refPath b.1 <+: refPath a.1)
    (hdirs : ∀ e ∈ l, refPath e.1 ∉ bareRepo.dirs) :
    ∃ t', l.foldlM (fun t e => installRef t e.1 e.2) t = some t' ∧
      WroteRefs (l.reverse ++ done) t' := by
  induction l generalizing done t with
  | nil => exact ⟨t, rfl, h⟩
  | cons e l ih =>
      obtain ⟨hname, hnames⟩ := List.forall_mem_cons.1 hnames
      obtain ⟨hoid, hoids⟩ := List.forall_mem_cons.1 hoids
      obtain ⟨hnew, hapart⟩ := List.forall_mem_cons.1 hapart
      obtain ⟨hfirst, hothers⟩ := List.pairwise_cons.1 hothers
      obtain ⟨hdir, hdirs⟩ := List.forall_mem_cons.1 hdirs
      obtain ⟨t₁, hinstall, hwrote⟩ := installRef_wrote h hname hoid hnew hdir
      obtain ⟨t₂, hfold, hall⟩ := ih hwrote hnames hoids (fun a ha d hd => by
        rcases List.mem_cons.1 hd with rfl | hd
        · exact hfirst a ha
        · exact hapart a ha d hd) hothers hdirs
      refine ⟨t₂, ?_, ?_⟩
      · rw [List.foldlM_cons, hinstall]
        exact hfold
      · rw [List.reverse_cons, List.append_assoc]
        exact hall

/-- Every ref is in the file of its name. -/
def FileTree.HoldsRefs (t : FileTree) (refs : RefMap) : Prop :=
  ∀ e ∈ refs.entries, t.read (refPath e.1) = some (e.2 ++ ['\n'])

theorem installRefs_ok (h : m.Wf) (hfiles : KeptAsFiles m.refs) :
    ∃ t, installRefs m.doc = .ok t ∧ t.HoldsRefs m.refs := by
  have hmem : ∀ e ∈ m.refs.entries, e.1 ∈ m.refs.keys := fun e he => List.mem_map_of_mem he
  have hothers : m.refs.entries.Pairwise fun a b =>
      ¬ refPath a.1 <+: refPath b.1 ∧ ¬ refPath b.1 <+: refPath a.1 := by
    refine List.pairwise_iff_forall_sublist.2 fun {a b} hab => ?_
    have ha := hmem a (hab.subset List.mem_cons_self)
    have hb := hmem b (hab.subset (List.mem_cons_of_mem a List.mem_cons_self))
    have hne : a.1 ≠ b.1 := (List.pairwise_iff_forall_sublist.1 m.refs.sorted hab).ne
    exact ⟨hfiles.apart a.1 ha b.1 hb hne, hfiles.apart b.1 hb a.1 ha hne.symm⟩
  obtain ⟨t, hfold, hwrote⟩ := foldlM_installRef wroteRefs_bareRepo h.names h.oids
    (fun e _ d hd => absurd hd List.not_mem_nil) hothers fun e he => hfiles.notDir e.1 (hmem e he)
  rw [List.append_nil] at hwrote
  have hhead : ["HEAD".toList] ∉ t.dirs := by
    intro hdir
    rcases hwrote.dirs _ hdir with hbare | ⟨e, he, hstart⟩
    · exact absurd hbare (by decide)
    · obtain ⟨rest, hrest⟩ := refPath_eq (h.names e (List.mem_reverse.1 he))
      have hpath := hstart.trans (List.dropLast_prefix _)
      rw [hrest, List.cons_prefix_cons] at hpath
      exact absurd hpath.1 (by decide)
  refine ⟨{ t with files := (["HEAD".toList], "ref: ".toList ++ m.head ++ ['\n']) :: t.files },
    ?_, ?_⟩
  · unfold installRefs
    rw [show m.doc.refs = m.refs from rfl, hfold]
    dsimp only
    rw [show m.doc.head = m.head from rfl, h.head]
    unfold FileTree.write
    rw [if_neg hhead]
    rfl
  · intro e he
    obtain ⟨rest, hrest⟩ := refPath_eq (h.names e he)
    have hne : ["HEAD".toList] ≠ refPath e.1 := by
      rw [hrest]
      intro heq
      exact absurd (List.cons.inj heq).1 (by decide)
    rw [FileTree.read_cons_of_ne _ _ _ hne]
    exact hwrote.contents e (List.mem_reverse.2 he)

end Buzz.Git
