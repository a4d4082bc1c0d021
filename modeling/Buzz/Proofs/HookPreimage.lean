import Buzz.Git.Hook
import Buzz.Lib.SortedBy
import Buzz.Proofs.AuditEncoding

/-!
# The hook and the relay sign the same text

The script sorts lines and the relay sorts names. A name has no byte below the
blank that ends it in the line, so both orders are the same, and the fields of a
line are read back as they were written.

And the text that is signed tells the request it was made from: every field has
its length in front, a fixed length, or no bar in it.
-/

namespace Buzz.Git

open Buzz.Audit (utf8 utf8_injective)
open Buzz.Lib

/-! ## Hex and UUID texts -/

/-- A list checked element by element. -/
theorem forall_mem_of_all {α : Type} {p : α → Prop} [DecidablePred p] {l : List α}
    (h : l.all (fun a => decide (p a)) = true) : ∀ a ∈ l, p a := fun a ha =>
  of_decide_eq_true (List.all_eq_true.1 h a ha)

def hexChars : List Char := "0123456789abcdefABCDEF".toList

theorem mem_hexChars {c : Char} (h : isAsciiHexdigit c = true) : c ∈ hexChars := by
  have hrange : ∀ n : Nat, n < 103 → isAsciiHexdigit (Char.ofNat n) = true →
      Char.ofNat n ∈ hexChars := by decide
  have hlt : c.toNat < 103 := by
    have hle : ∀ d : Char, d.toNat < 103 → c ≤ d → c.toNat < 103 := fun d hd hcd =>
      Nat.lt_of_le_of_lt (UInt32.le_iff_toNat_le.1 hcd) hd
    unfold isAsciiHexdigit hexValue at h
    split at h
    · next hc => exact hle '9' (by decide) hc.2
    · split at h
      · next hc => exact hle 'f' (by decide) hc.2
      · split at h
        · next hc => exact hle 'F' (by decide) hc.2
        · cases h
  have hmem := hrange c.toNat hlt
  rw [Char.ofNat_toNat] at hmem
  exact hmem h

variable {s : List Char}

theorem mem_utf8 {b : UInt8} (h : b ∈ utf8 s) :
    ∃ c ∈ s, b ∈ String.utf8EncodeChar c :=
  List.mem_flatMap.1 h

/-- What the bytes of a hex text are not. -/
theorem hex_byte (hs : s.all isAsciiHexdigit = true) {b : UInt8}
    (hb : b ∈ utf8 s) :
    b ∉ Shell.defaultIfs ∧ b ≠ Shell.backslash ∧ b ≠ bar := by
  have hbytes : hexChars.all (fun c => (String.utf8EncodeChar c).all fun b =>
      decide (b ∉ Shell.defaultIfs ∧ b ≠ Shell.backslash ∧ b ≠ bar)) = true := by decide
  obtain ⟨c, hc, hb⟩ := mem_utf8 hb
  exact forall_mem_of_all
    (List.all_eq_true.1 hbytes c (mem_hexChars (List.all_eq_true.1 hs c hc))) b hb

theorem isOidHex_spec (h : isOidHex s = true) :
    (utf8 s).length = 40 ∧ s.all isAsciiHexdigit = true := by
  unfold isOidHex at h
  rw [Bool.and_eq_true, beq_iff_eq] at h
  exact h

theorem oid_word (h : isOidHex s = true) {ifs : List UInt8}
    (hifs : ifs ⊆ Shell.defaultIfs) : Shell.IsWord ifs (utf8 s) := by
  obtain ⟨hlength, hhex⟩ := isOidHex_spec h
  refine ⟨fun hnil => ?_, fun b hb => ?_⟩
  · rw [hnil] at hlength
    cases hlength
  · exact ⟨fun hmem => (hex_byte hhex hb).1 (hifs hmem), (hex_byte hhex hb).2.1⟩

def uuidChars : List Char := "-\x7b\x7durn:id".toList ++ hexChars

theorem isHyphenated_chars (h : isHyphenated s = true) :
    ∀ c ∈ s, c ∈ uuidChars := by
  unfold isHyphenated at h
  rw [Bool.and_eq_true, List.all_eq_true] at h
  intro c hc
  obtain ⟨i, hi, rfl⟩ := List.mem_iff_getElem.1 hc
  have hall := h.2 (s[i], i) (List.mk_mem_zipIdx_iff_getElem?.2 (List.getElem?_eq_getElem hi))
  dsimp only at hall
  split at hall
  · rw [beq_iff_eq.1 hall]
    decide
  · exact List.mem_append_right _ (mem_hexChars hall)

theorem parsesAsUuid_chars (h : parsesAsUuid s = true) :
    ∀ c ∈ s, c ∈ uuidChars := by
  unfold parsesAsUuid at h
  rw [Bool.or_eq_true, Bool.or_eq_true, Bool.or_eq_true] at h
  rcases h with ((hsimple | hhyphens) | hbraces) | hurn
  · rw [Bool.and_eq_true] at hsimple
    intro c hc
    exact List.mem_append_right _ (mem_hexChars (List.all_eq_true.1 hsimple.2 c hc))
  · exact isHyphenated_chars hhyphens
  · rw [Bool.and_eq_true, Bool.and_eq_true, beq_iff_eq, beq_iff_eq] at hbraces
    obtain ⟨⟨hhead, hlast⟩, hinner⟩ := hbraces
    cases s with
    | nil => exact nofun
    | cons d s =>
        cases hhead
        intro c hc
        rcases List.mem_cons.1 hc with rfl | hc
        · decide
        · have hne : s ≠ [] := List.ne_nil_of_mem hc
          rw [List.getLast?_cons, List.getLast?_eq_some_getLast hne, Option.getD_some,
            Option.some.injEq] at hlast
          rw [← List.dropLast_append_getLast hne, hlast] at hc
          rcases List.mem_append.1 hc with hc | hc
          · exact isHyphenated_chars hinner c hc
          · rw [List.mem_singleton.1 hc]
            decide
  · rw [Bool.and_eq_true, decide_eq_true_iff] at hurn
    obtain ⟨⟨rest, rfl⟩, hinner⟩ := hurn
    have hdrop : ("urn:uuid:".toList ++ rest).drop 9 = rest := rfl
    rw [hdrop] at hinner
    have hfront : ∀ c ∈ "urn:uuid:".toList, c ∈ uuidChars := forall_mem_of_all (by decide)
    intro c hc
    rcases List.mem_append.1 hc with hc | hc
    · exact hfront c hc
    · exact isHyphenated_chars hinner c hc

theorem bar_notMem_uuid (h : parsesAsUuid s = true) : bar ∉ utf8 s := by
  have hbytes : ∀ c ∈ uuidChars, bar ∉ String.utf8EncodeChar c := forall_mem_of_all (by decide)
  intro hb
  obtain ⟨c, hc, hb⟩ := mem_utf8 hb
  exact hbytes c (parsesAsUuid_chars h c hc) hb

/-! ## What the checks say -/

/-- A ref update that passed the structural check. -/
structure RefChecked (r : HookRefUpdate) : Prop where
  oldOid : isOidHex r.oldOid = true
  newOid : isOidHex r.newOid = true
  ne_nil : r.refName ≠ []
  bytes : ∀ b ∈ utf8 r.refName, Shell.blank < b

theorem checkRefUpdate_none {r : HookRefUpdate} (h : checkRefUpdate r = none) : RefChecked r := by
  unfold checkRefUpdate at h
  split at h
  · cases h
  · next hold =>
      split at h
      · cases h
      · next hnew =>
          split at h
          · cases h
          · next hname =>
              rw [Bool.not_eq_true', Bool.not_eq_false] at hold hnew
              simp only [Bool.or_eq_true, not_or, List.isEmpty_iff, List.any_eq_true, not_exists,
                not_and] at hname
              refine ⟨hold, hnew, hname.1.1.1.1, fun b hb => ?_⟩
              have hlow := (hname.2 b hb).1
              rw [decide_eq_true_iff, UInt8.not_le] at hlow
              exact hlow

/-- A request that passed the structural check. -/
structure Checked (req : HookCallbackRequest) : Prop where
  repoOwner : isPubkeyHex req.repoOwner = true
  pusherPubkey : isPubkeyHex req.pusherPubkey = true
  communityId : parsesAsUuid req.communityId = true
  refs : ∀ r ∈ req.refUpdates, RefChecked r

theorem structuralCheck_none {req : HookCallbackRequest} (h : structuralCheck req = none) :
    Checked req := by
  unfold structuralCheck at h
  split at h
  · cases h
  · split at h
    · cases h
    · next howner =>
        split at h
        · cases h
        · next hpusher =>
            split at h
            · cases h
            · next hcommunity =>
                split at h
                · cases h
                · rw [Bool.not_eq_true', Bool.not_eq_false] at howner hpusher hcommunity
                  refine ⟨howner, hpusher, hcommunity, fun r hr => ?_⟩
                  exact checkRefUpdate_none (List.findSome?_eq_none_iff.1 h r hr)

/-! ## The script -/

/-- The line the script writes for a ref. -/
def signedLine (c : RefCommand) : List UInt8 :=
  Shell.joinWords [utf8 c.refName, utf8 c.oldOid, utf8 c.newOid,
    flagByte c.refUpdate.isAncestor]

/-- What a ref has to be for the script to take its line apart again. -/
structure Plain (c : RefCommand) : Prop where
  checked : RefChecked c.refUpdate
  legal : isLegalRefName (utf8 c.refName) = true

namespace Plain

variable {c : RefCommand}

theorem name_word (h : Plain c) {ifs : List UInt8} (hifs : ifs ⊆ Shell.defaultIfs) :
    Shell.IsWord ifs (utf8 c.refName) := by
  refine ⟨fun hnil => ?_, fun b hb => ⟨fun hmem => ?_, ?_⟩⟩
  · exact h.checked.ne_nil (@utf8_injective c.refName [] hnil)
  · have habove := h.checked.bytes b hb
    have hbelow : ∀ b ∈ Shell.defaultIfs, ¬ Shell.blank < b := forall_mem_of_all (by decide)
    exact hbelow b (hifs hmem) habove
  · have hlegal := h.legal
    unfold isLegalRefName at hlegal
    simp only [Bool.and_eq_true, List.all_eq_true, decide_eq_true_iff] at hlegal
    have hmarks := (hlegal.1.1.2 b hb).2
    rintro rfl
    exact hmarks (by decide)

theorem flag_word (b : Bool) {ifs : List UInt8} (hifs : ifs ⊆ Shell.defaultIfs) :
    Shell.IsWord ifs (flagByte b) := by
  refine ⟨by cases b <;> decide, fun d hd => ⟨fun hmem => ?_, ?_⟩⟩
  · have hflags : ∀ d ∈ flagByte b, d ∉ Shell.defaultIfs := by
      cases b <;> exact forall_mem_of_all (by decide)
    exact hflags d hd (hifs hmem)
  · have hflags : ∀ d ∈ flagByte b, d ≠ Shell.backslash := by
      cases b <;> exact forall_mem_of_all (by decide)
    exact hflags d hd

theorem hmacLine_eq (h : Plain c) : hmacLine c.stdinLine c.mergeBase = signedLine c := by
  have hsub : Shell.defaultIfs ⊆ Shell.defaultIfs := List.Subset.refl _
  have hwords : ∀ w ∈ [utf8 c.oldOid, utf8 c.newOid, utf8 c.refName],
      Shell.IsWord Shell.defaultIfs w := by
    simp only [List.forall_mem_cons, List.not_mem_nil, false_implies, implies_true, and_true]
    exact ⟨oid_word h.checked.oldOid hsub, oid_word h.checked.newOid hsub, h.name_word hsub⟩
  have hread : Shell.read true Shell.defaultIfs 3 c.stdinLine
      = [utf8 c.oldOid, utf8 c.newOid, utf8 c.refName] :=
    Shell.read_joinWords hwords (by decide)
  rw [hmacLine, hread]
  rfl

theorem printRef_eq (h : Plain c) : printRef (signedLine c) = refBytes c.refUpdate := by
  have hsub : [Shell.blank] ⊆ Shell.defaultIfs := by decide
  have hwords : ∀ w ∈ [utf8 c.refName, utf8 c.oldOid, utf8 c.newOid,
      flagByte c.refUpdate.isAncestor], Shell.IsWord [Shell.blank] w := by
    simp only [List.forall_mem_cons, List.not_mem_nil, false_implies, implies_true, and_true]
    exact ⟨h.name_word hsub, oid_word h.checked.oldOid hsub, oid_word h.checked.newOid hsub,
      flag_word _ hsub⟩
  have hread : Shell.read false [Shell.blank] 4 (signedLine c)
      = [utf8 c.refName, utf8 c.oldOid, utf8 c.newOid, flagByte c.refUpdate.isAncestor] :=
    Shell.read_joinWords hwords (by decide)
  rw [printRef, hread]
  rfl

end Plain

def nameKey (c : RefCommand) : List Nat := Shell.byteValues (utf8 c.refName)

theorem nameKey_injective {c d : RefCommand} (h : nameKey c = nameKey d) :
    c.refName = d.refName :=
  utf8_injective (Shell.byteValues_injective h)

/-- Commands in the order of their names. -/
def commandsSorted (commands : List RefCommand) : List RefCommand :=
  commands.insertionSort fun c d => nameKey c ≤ nameKey d

/-- Sorting the lines sorts the names. -/
theorem sort_signedLines {commands : List RefCommand} (hplain : ∀ c ∈ commands, Plain c)
    (hnames : (commands.map RefCommand.refName).Nodup) :
    Shell.sort (commands.map signedLine) = (commandsSorted commands).map signedLine := by
  refine (List.map_insertionSort _ _ signedLine commands fun c hc d hd => ?_).symm
  by_cases heq : c.refName = d.refName
  · -- equal names are of one command
    rw [List.inj_on_of_nodup_map hnames hc hd heq]
    exact iff_of_true le_rfl le_rfl
  · refine (Shell.line_le_iff (hplain c hc).checked.bytes (hplain d hd).checked.bytes ?_).symm
    exact fun h => heq (utf8_injective h)

/-- The text never ends in a newline. -/
theorem substitute_refBytes (refs : List HookRefUpdate) :
    Shell.substitute (refs.flatMap refBytes) = refs.flatMap refBytes := by
  unfold Shell.substitute
  rw [List.rdropWhile_eq_self_iff]
  intro hne
  have hlast : ∃ flag ∈ [48, 49], (refs.flatMap refBytes).getLast? = some flag := by
    cases refs using List.reverseRecOn with
    | nil => exact (hne rfl).elim
    | append_singleton refs r =>
        refine ⟨if r.isAncestor then 49 else 48, by cases r.isAncestor <;> decide, ?_⟩
        rw [List.flatMap_append, List.flatMap_singleton, refBytes, flagByte]
        cases r.isAncestor <;> simp [List.getLast?_cons]
  obtain ⟨flag, hflag, hlast⟩ := hlast
  rw [List.getLast?_eq_some_getLast hne, Option.some.injEq] at hlast
  have hflags : ∀ flag ∈ [48, 49], ¬ decide (flag = Shell.newline) = true :=
    forall_mem_of_all (by decide)
  rw [hlast]
  exact hflags flag hflag

theorem refsSorted_map (commands : List RefCommand) :
    refsSorted (commands.map RefCommand.refUpdate)
      = (commandsSorted commands).map RefCommand.refUpdate :=
  (List.map_insertionSort _ _ RefCommand.refUpdate commands fun _ _ _ _ => Iff.rfl).symm

theorem hookInput_eq {env : HookEnv} {given commands : List RefCommand} {timestamp : UInt64}
    (hchecked : structuralCheck (hookRequest env commands timestamp) = none)
    (hlegal : ∀ c ∈ commands, isLegalRefName (utf8 c.refName) = true)
    (hnames : (commands.map RefCommand.refName).Nodup) (hgiven : given.Perm commands) :
    hookInput env given timestamp = hmacPreimage (hookRequest env commands timestamp) := by
  have hplain : ∀ c ∈ commands, Plain c := fun c hc =>
    ⟨(structuralCheck_none hchecked).refs _ (List.mem_map_of_mem hc), hlegal c hc⟩
  have hplain' : ∀ c ∈ given, Plain c := fun c hc => hplain c (hgiven.mem_iff.1 hc)
  have hnames' : (given.map RefCommand.refName).Nodup := (hgiven.map _).nodup_iff.2 hnames
  have hlines : (given.map fun c => hmacLine c.stdinLine c.mergeBase) = given.map signedLine :=
    List.map_congr_left fun c hc => (hplain' c hc).hmacLine_eq
  have hsorted : commandsSorted given = commandsSorted commands := by
    refine SortedBy.insertionSort_eq_of_perm (fun _ _ => Iff.rfl) ?_ hgiven
    refine List.Nodup.map_on (fun c hc d hd h => ?_) (List.Nodup.of_map _ hnames')
    exact List.inj_on_of_nodup_map hnames' hc hd (nameKey_injective h)
  have hprinted : (Shell.sort (given.map signedLine)).flatMap printRef
      = (refsSorted (commands.map RefCommand.refUpdate)).flatMap refBytes := by
    rw [sort_signedLines hplain' hnames', hsorted, refsSorted_map, List.flatMap_map,
      List.flatMap_map]
    refine List.flatMap_congr fun c hc => ?_
    exact (hplain c (List.mem_insertionSort _ |>.1 hc)).printRef_eq
  have hrefs : (if (given.map signedLine).isEmpty then []
      else Shell.substitute ((Shell.sort (given.map signedLine)).flatMap printRef))
      = (refsSorted (commands.map RefCommand.refUpdate)).flatMap refBytes := by
    split
    · next hempty =>
        rw [List.isEmpty_iff] at hempty
        rw [← hprinted, hempty]
        rfl
    · rw [hprinted, substitute_refBytes]
  unfold hookInput hmacPreimage
  rw [hlines]
  dsimp only
  rw [hrefs]
  rfl

/-! ## Reading the text back -/

theorem append_cons_inj {α : Type} {sep : α} {x x' z z' : List α} (hx : sep ∉ x) (hx' : sep ∉ x')
    (h : x ++ sep :: z = x' ++ sep :: z') : x = x' ∧ z = z' := by
  induction x generalizing x' with
  | nil =>
      cases x' with
      | nil => exact ⟨rfl, (List.cons.inj h).2⟩
      | cons b x' => exact (hx' ((List.cons.inj h).1 ▸ List.mem_cons_self)).elim
  | cons a x ih =>
      cases x' with
      | nil => exact (hx ((List.cons.inj h).1 ▸ List.mem_cons_self)).elim
      | cons b x' =>
          obtain ⟨rfl, htail⟩ := List.cons.inj h
          obtain ⟨rfl, rfl⟩ := ih (fun hmem => hx (List.mem_cons_of_mem _ hmem))
            (fun hmem => hx' (List.mem_cons_of_mem _ hmem)) htail
          exact ⟨rfl, rfl⟩

theorem decimal_injective {n n' : Nat} (h : decimal n = decimal n') : n = n' := by
  have hdigits := utf8_injective h
  rw [← @Nat.ofDigitChars_ten_toDigits n, hdigits, Nat.ofDigitChars_ten_toDigits]

theorem colon_notMem_decimal (n : Nat) : colon ∉ decimal n := by
  intro h
  obtain ⟨c, hc, hb⟩ := mem_utf8 h
  have hdigit := Nat.isDigit_of_mem_toDigits (by decide) (by decide) hc
  have hlt : c.toNat < 58 := by
    rw [Char.isDigit, Bool.and_eq_true, decide_eq_true_iff, decide_eq_true_iff] at hdigit
    exact Nat.lt_succ_of_le (UInt32.le_iff_toNat_le.1 hdigit.2)
  have hbytes : ∀ n < 58, colon ∉ String.utf8EncodeChar (Char.ofNat n) := by decide
  have hc' := hbytes c.toNat hlt
  rw [Char.ofNat_toNat] at hc'
  exact hc' hb

variable {r r' : List UInt8}

/-- A text with its length in front. -/
theorem counted_inj {s' : List Char}
    (h : decimal (utf8 s).length ++ colon :: (utf8 s ++ r)
      = decimal (utf8 s').length ++ colon :: (utf8 s' ++ r')) :
    s = s' ∧ r = r' := by
  obtain ⟨hlength, hrest⟩ :=
    append_cons_inj (colon_notMem_decimal _) (colon_notMem_decimal _) h
  obtain ⟨htext, hrest⟩ := List.append_inj hrest (decimal_injective hlength)
  exact ⟨utf8_injective htext, hrest⟩

theorem flagByte_append_inj {b b' : Bool}
    (h : flagByte b ++ r = flagByte b' ++ r') : b = b' ∧ r = r' := by
  cases b <;> cases b' <;>
    simp only [flagByte, Bool.false_eq_true, if_false, if_true, List.cons_append,
      List.nil_append, List.cons.injEq] at h <;> simp_all

theorem refBytes_append_inj {a b : HookRefUpdate} (ha : RefChecked a)
    (hb : RefChecked b) (h : refBytes a ++ r = refBytes b ++ r') :
    a = b ∧ r = r' := by
  have holds : ∀ {s s' : List Char}, isOidHex s = true → isOidHex s' = true →
      (utf8 s).length = (utf8 s').length := fun hs hs' =>
    (isOidHex_spec hs).1.trans (isOidHex_spec hs').1.symm
  unfold refBytes at h
  simp only [List.append_assoc, List.cons_append] at h
  obtain ⟨hold, h⟩ := List.append_inj h (holds ha.oldOid hb.oldOid)
  obtain ⟨hnew, h⟩ := List.append_inj h (holds ha.newOid hb.newOid)
  obtain ⟨hname, h⟩ := counted_inj h
  obtain ⟨hflag, h⟩ := flagByte_append_inj h
  refine ⟨?_, h⟩
  cases a
  cases b
  cases utf8_injective hold
  cases utf8_injective hnew
  cases hname
  cases hflag
  rfl

/-- A ref begins with a hex digit, which the bar after the last one is not. -/
theorem refBytes_ne_bar {a : HookRefUpdate} (ha : RefChecked a) (r r' : List UInt8) :
    refBytes a ++ r ≠ bar :: r' := by
  obtain ⟨hlength, hhex⟩ := isOidHex_spec ha.oldOid
  intro h
  unfold refBytes at h
  cases hbytes : utf8 a.oldOid with
  | nil =>
      rw [hbytes] at hlength
      cases hlength
  | cons b bytes =>
      rw [hbytes] at h
      refine (hex_byte hhex (b := b) ?_).2.2 (List.cons.inj h).1
      rw [hbytes]
      exact List.mem_cons_self

theorem refs_append_inj {refs refs' : List HookRefUpdate} (hrefs : ∀ r ∈ refs, RefChecked r)
    (hrefs' : ∀ r ∈ refs', RefChecked r) {t t' : List UInt8}
    (h : refs.flatMap refBytes ++ bar :: t = refs'.flatMap refBytes ++ bar :: t') :
    refs = refs' ∧ t = t' := by
  induction refs generalizing refs' with
  | nil =>
      cases refs' with
      | nil => exact ⟨rfl, (List.cons.inj h).2⟩
      | cons b refs' =>
          rw [List.flatMap_cons, List.append_assoc] at h
          exact (refBytes_ne_bar (hrefs' b List.mem_cons_self) _ _ h.symm).elim
  | cons a refs ih =>
      cases refs' with
      | nil =>
          rw [List.flatMap_cons, List.append_assoc] at h
          exact (refBytes_ne_bar (hrefs a List.mem_cons_self) _ _ h).elim
      | cons b refs' =>
          rw [List.flatMap_cons, List.flatMap_cons, List.append_assoc, List.append_assoc] at h
          obtain ⟨rfl, htail⟩ := refBytes_append_inj (hrefs a List.mem_cons_self)
            (hrefs' b List.mem_cons_self) h
          obtain ⟨rfl, rfl⟩ := ih (fun r hr => hrefs r (List.mem_cons_of_mem _ hr))
            (fun r hr => hrefs' r (List.mem_cons_of_mem _ hr)) htail
          exact ⟨rfl, rfl⟩

/-- The same request, with its refs in any order. -/
structure SameRequest (req req' : HookCallbackRequest) : Prop where
  repoId : req.repoId = req'.repoId
  repoOwner : req.repoOwner = req'.repoOwner
  communityId : req.communityId = req'.communityId
  pusherPubkey : req.pusherPubkey = req'.pusherPubkey
  refUpdates : req.refUpdates.Perm req'.refUpdates
  timestamp : req.timestamp = req'.timestamp

theorem isPubkeyHex_spec (h : isPubkeyHex s = true) : (utf8 s).length = 64 := by
  unfold isPubkeyHex at h
  rw [Bool.and_eq_true, beq_iff_eq] at h
  exact h.1

theorem hmacPreimage_inj {req req' : HookCallbackRequest} (hreq : structuralCheck req = none)
    (hreq' : structuralCheck req' = none) (h : hmacPreimage req = hmacPreimage req') :
    SameRequest req req' := by
  have hc := structuralCheck_none hreq
  have hc' := structuralCheck_none hreq'
  have hpubkey : ∀ {s s' : List Char}, isPubkeyHex s = true → isPubkeyHex s' = true →
      (utf8 s).length = (utf8 s').length := fun hs hs' =>
    (isPubkeyHex_spec hs).trans (isPubkeyHex_spec hs').symm
  obtain ⟨hrepo, h⟩ := counted_inj h
  obtain ⟨howner, h⟩ := List.append_inj (List.cons.inj h).2 (hpubkey hc.repoOwner hc'.repoOwner)
  obtain ⟨hcommunity, h⟩ := append_cons_inj (bar_notMem_uuid hc.communityId)
    (bar_notMem_uuid hc'.communityId) (List.cons.inj h).2
  obtain ⟨hpusher, h⟩ := List.append_inj h (hpubkey hc.pusherPubkey hc'.pusherPubkey)
  have hsub : ∀ {refs : List HookRefUpdate}, ∀ r ∈ refsSorted refs, r ∈ refs := fun r hr =>
    (List.mem_insertionSort _).1 hr
  obtain ⟨hrefs, htime⟩ := refs_append_inj (fun r hr => hc.refs r (hsub r hr))
    (fun r hr => hc'.refs r (hsub r hr)) (List.cons.inj h).2
  refine ⟨hrepo, utf8_injective howner, utf8_injective hcommunity, utf8_injective hpusher, ?_,
    UInt64.toNat_inj.1 (decimal_injective htime)⟩
  have hleft : (refsSorted req.refUpdates).Perm req.refUpdates := List.perm_insertionSort _ _
  have hright : (refsSorted req'.refUpdates).Perm req'.refUpdates := List.perm_insertionSort _ _
  rw [hrefs] at hleft
  exact hleft.symm.trans hright

/-! ## Both -/

/-- The script signs what the relay checks, whatever order the refs come in, and
what is signed stands for one request. -/
theorem hook_and_relay_sign_the_same :
    (∀ (env : HookEnv) (given commands : List RefCommand) (timestamp : UInt64),
      structuralCheck (hookRequest env commands timestamp) = none →
      (∀ c ∈ commands, isLegalRefName (utf8 c.refName) = true) →
      (commands.map RefCommand.refName).Nodup → given.Perm commands →
        hookInput env given timestamp = hmacPreimage (hookRequest env commands timestamp)) ∧
    ∀ req req' : HookCallbackRequest,
      structuralCheck req = none → structuralCheck req' = none →
        hmacPreimage req = hmacPreimage req' → SameRequest req req' :=
  ⟨fun _ _ _ _ hchecked hlegal hnames hgiven => hookInput_eq hchecked hlegal hnames hgiven,
    fun _ _ hreq hreq' h => hmacPreimage_inj hreq hreq' h⟩

def sampleEnv : HookEnv where
  repoId := "demo".toList
  repoOwner := List.replicate 64 'a'
  communityId := "00000000-0000-0000-0000-000000000001".toList
  pusherPubkey := List.replicate 64 'b'

/-- A ref and one whose name begins with it. -/
def samplePush : List RefCommand :=
  [⟨List.replicate 40 '0', List.replicate 40 'c', "refs/heads/main-2".toList, false⟩,
    ⟨List.replicate 40 'd', List.replicate 40 'e', "refs/heads/main".toList, true⟩]

theorem hook_and_relay_sign_the_same_sample :
    hookInput sampleEnv samplePush 1700000000
        = hmacPreimage (hookRequest sampleEnv samplePush.reverse 1700000000) ∧
      SameRequest (hookRequest sampleEnv samplePush 1700000000)
        (hookRequest sampleEnv samplePush.reverse 1700000000) := by
  refine ⟨hook_and_relay_sign_the_same.1 sampleEnv samplePush samplePush.reverse 1700000000 ?_ ?_
    ?_ ?_, hook_and_relay_sign_the_same.2 _ _ ?_ ?_ ?_⟩
  · decide +kernel
  · decide +kernel
  · decide +kernel
  · exact (List.reverse_perm samplePush).symm
  · decide +kernel
  · decide +kernel
  · decide +kernel

end Buzz.Git
