import Buzz.Audit.Hash
import Mathlib.Algebra.Order.Group.Nat
import Mathlib.Tactic.Ring

/-!
# The encoding of an entry tells everything about it

Two entries with one tagged encoding agree in every field that goes into it:
each field can be read off and what follows it is left. And what the older
encoding writes for an entry is never what the tagged one writes for an entry of
the same community.
-/

namespace Buzz.Audit

open Buzz.Lib (Sha256.digest Sha256.beBytes Sha256.length_beBytes)

theorem utf8_append (s t : List Char) : utf8 (s ++ t) = utf8 s ++ utf8 t :=
  List.flatMap_append ..

theorem utf8_injective {s s' : List Char} (h : utf8 s = utf8 s') : s = s' := by
  apply String.ofList_injective
  apply String.toByteArray_inj.1
  rw [String.toByteArray_ofList, String.toByteArray_ofList]
  exact congrArg List.toByteArray h

/-! ## Numbers of a fixed width -/

theorem length_fixedDigits (width n : Nat) : (fixedDigits width n).length = width := by
  induction width generalizing n with
  | zero => rfl
  | succ width ih => rw [fixedDigits, List.length_append, ih, List.length_singleton]

variable {width n : Nat}

theorem isDigit_fixedDigits {c : Char} (h : c ∈ fixedDigits width n) :
    c.isDigit = true := by
  induction width generalizing n with
  | zero => cases h
  | succ width ih =>
      rw [fixedDigits] at h
      rcases List.mem_append.1 h with h | h
      · exact ih h
      · rw [List.mem_singleton.1 h, Nat.isDigit_digitChar, decide_eq_true_iff]
        exact Nat.mod_lt n (by decide)

theorem ofDigitChars_fixedDigits (width n : Nat) :
    Nat.ofDigitChars 10 (fixedDigits width n) 0 = n % 10 ^ width := by
  induction width generalizing n with
  | zero => rw [fixedDigits, Nat.ofDigitChars_nil, Nat.pow_zero, Nat.mod_one]
  | succ width ih =>
      have hlast : n % 10 < 10 := Nat.mod_lt n (by decide)
      rw [fixedDigits, Nat.ofDigitChars_append, ih,
        Nat.ofDigitChars_cons_digitChar_of_lt_ten hlast, Nat.ofDigitChars_nil, Nat.pow_succ,
        Nat.mul_comm (10 ^ width) 10, Nat.mod_mul, Nat.add_comm]

variable {n' : Nat}

theorem fixedDigits_inj (hn : n < 10 ^ width) (hn' : n' < 10 ^ width)
    (h : fixedDigits width n = fixedDigits width n') : n = n' := by
  have hvalue := congrArg (Nat.ofDigitChars 10 · 0) h
  simp only [ofDigitChars_fixedDigits] at hvalue
  rwa [Nat.mod_eq_of_lt hn, Nat.mod_eq_of_lt hn'] at hvalue

variable {r' : List Char}

theorem fixedDigits_append_inj {r : List Char} (hn : n < 10 ^ width)
    (hn' : n' < 10 ^ width)
    (h : fixedDigits width n ++ r = fixedDigits width n' ++ r') :
    n = n' ∧ r = r' := by
  obtain ⟨hdigits, hrest⟩ := List.append_inj h (by rw [length_fixedDigits, length_fixedDigits])
  exact ⟨fixedDigits_inj hn hn' hdigits, hrest⟩

theorem beBytes_inj {len : Nat} (hn : n < 256 ^ len) (hn' : n' < 256 ^ len)
    (h : Sha256.beBytes len n = Sha256.beBytes len n') : n = n' := by
  induction len generalizing n n' with
  | zero => omega
  | succ len ih =>
      rw [Nat.pow_succ] at hn hn'
      obtain ⟨hhigh, hlow⟩ := List.append_inj h
        (by rw [Sha256.length_beBytes, Sha256.length_beBytes])
      have hdiv := ih (by omega) (by omega) hhigh
      have hmod := congrArg UInt8.toNat (List.singleton_injective hlow)
      rw [UInt8.toNat_ofNat', UInt8.toNat_ofNat'] at hmod
      omega

/-! ## Times -/

/-- The digits after the sign, if there is one. -/
def yearDigits (n : Nat) : List Char := if n < 10000 then fixedDigits 4 n else Nat.toDigits 10 n

theorem isDigit_yearDigits {c : Char} (h : c ∈ yearDigits n) :
    c.isDigit = true := by
  unfold yearDigits at h
  split at h
  · exact isDigit_fixedDigits h
  · exact Nat.isDigit_of_mem_toDigits (by decide) (by decide) h

theorem ofDigitChars_yearDigits (n : Nat) : Nat.ofDigitChars 10 (yearDigits n) 0 = n := by
  unfold yearDigits
  split
  · next h =>
      rw [ofDigitChars_fixedDigits]
      exact Nat.mod_eq_of_lt h
  · exact Nat.ofDigitChars_ten_toDigits

theorem yearDigits_append_inj {r : List Char}
    (h : yearDigits n ++ '-' :: r = yearDigits n' ++ '-' :: r') :
    n = n' ∧ r = r' := by
  have hread : ∀ (n : Nat) (r : List Char),
      (yearDigits n ++ '-' :: r).takeWhile Char.isDigit = yearDigits n := by
    intro n r
    rw [List.takeWhile_append_of_pos (fun c hc => isDigit_yearDigits hc),
      List.takeWhile_cons_of_neg (by decide), List.append_nil]
  have hdigits := congrArg (List.takeWhile Char.isDigit) h
  rw [hread, hread] at hdigits
  have hvalue := congrArg (Nat.ofDigitChars 10 · 0) hdigits
  simp only [ofDigitChars_yearDigits] at hvalue
  subst hvalue
  exact ⟨rfl, (List.cons.inj (List.append_cancel_left h)).2⟩

/-- The sign a year is written with. -/
def yearSign (year : Int) : List Char :=
  if 0 ≤ year ∧ year ≤ 9999 then [] else if year < 0 then ['-'] else ['+']

theorem yearText_eq (year : Int) : yearText year = yearSign year ++ yearDigits year.natAbs := by
  unfold yearText yearSign
  split
  · next h =>
      have hnat : year.natAbs = year.toNat := by omega
      have hlt : year.toNat < 10000 := by omega
      rw [List.nil_append, yearDigits, hnat, if_pos hlt]
  · rw [yearDigits]
    split <;> rfl

theorem yearDigits_ne_nil (n : Nat) : yearDigits n ≠ [] := by
  unfold yearDigits
  split
  · intro h
    have := congrArg List.length h
    rw [length_fixedDigits] at this
    cases this
  · exact Nat.toDigits_ne_nil

/-- A year begins with a digit or a sign. -/
theorem yearText_head (year : Int) :
    ∃ c t, yearText year = c :: t ∧ (c.isDigit = true ∨ c = '-' ∨ c = '+') := by
  rw [yearText_eq]
  unfold yearSign
  split
  · cases hdigits : yearDigits year.natAbs with
    | nil => exact (yearDigits_ne_nil _ hdigits).elim
    | cons c t =>
        refine ⟨c, t, rfl, .inl (isDigit_yearDigits (n := year.natAbs) ?_)⟩
        rw [hdigits]
        exact List.mem_cons_self
  · split
    · exact ⟨'-', _, rfl, .inr (.inl rfl)⟩
    · exact ⟨'+', _, rfl, .inr (.inr rfl)⟩

theorem yearSign_cases (year : Int) :
    (yearSign year = [] ∧ 0 ≤ year) ∨ (yearSign year = ['-'] ∧ year < 0) ∨
      (yearSign year = ['+'] ∧ 0 ≤ year) := by
  unfold yearSign
  split
  · next h => exact .inl ⟨rfl, h.1⟩
  · split
    · next h => exact .inr (.inl ⟨rfl, h⟩)
    · next h => exact .inr (.inr ⟨rfl, Int.not_lt.1 h⟩)

theorem yearText_append_inj {year year' : Int} {r : List Char}
    (h : yearText year ++ '-' :: r = yearText year' ++ '-' :: r') :
    year = year' ∧ r = r' := by
  -- without a sign the text begins with a digit, which is none
  have hhead : ∀ (n : Nat) (c : Char) (t t' : List Char), c.isDigit = false →
      yearDigits n ++ '-' :: t ≠ c :: t' := by
    intro n c t t' hc heq
    cases hdigits : yearDigits n with
    | nil => exact yearDigits_ne_nil _ hdigits
    | cons d rest =>
        rw [hdigits, List.cons_append] at heq
        have hd := isDigit_yearDigits (c := d) (n := n) (by rw [hdigits]; exact List.mem_cons_self)
        rw [(List.cons.inj heq).1, hc] at hd
        cases hd
  rw [yearText_eq, yearText_eq, List.append_assoc, List.append_assoc] at h
  rcases yearSign_cases year with ⟨hs, hy⟩ | ⟨hs, hy⟩ | ⟨hs, hy⟩ <;>
    rcases yearSign_cases year' with ⟨hs', hy'⟩ | ⟨hs', hy'⟩ | ⟨hs', hy'⟩ <;>
    rw [hs, hs'] at h
  · obtain ⟨hn, hr⟩ := yearDigits_append_inj h
    exact ⟨by omega, hr⟩
  · exact (hhead _ '-' _ _ rfl h).elim
  · exact (hhead _ '+' _ _ rfl h).elim
  · exact (hhead _ '-' _ _ rfl h.symm).elim
  · obtain ⟨hn, hr⟩ := yearDigits_append_inj (List.cons.inj h).2
    exact ⟨by omega, hr⟩
  · cases (List.cons.inj h).1
  · exact (hhead _ '+' _ _ rfl h.symm).elim
  · cases (List.cons.inj h).1
  · obtain ⟨hn, hr⟩ := yearDigits_append_inj (List.cons.inj h).2
    exact ⟨by omega, hr⟩

/-- The fraction is a point and digits in a unit that their number tells. -/
theorem fractionText_cases (hn : n < 1000000000) :
    (fractionText n = [] ∧ n = 0) ∨
      ∃ width k, fractionText n = '.' :: fixedDigits width k ∧ k < 10 ^ width ∧
        n = k * 10 ^ (9 - width) := by
  unfold fractionText
  split
  · next h => exact .inl ⟨rfl, h⟩
  · split
    · exact .inr ⟨3, n / 1000000, rfl, by omega, by omega⟩
    · split
      · exact .inr ⟨6, n / 1000, rfl, by omega, by omega⟩
      · exact .inr ⟨9, n, rfl, by omega, by omega⟩

theorem fractionText_inj (hn : n < 1000000000) (hn' : n' < 1000000000)
    (h : fractionText n = fractionText n') : n = n' := by
  rcases fractionText_cases hn with ⟨ht, hz⟩ | ⟨width, k, ht, hk, hz⟩ <;>
    rcases fractionText_cases hn' with ⟨ht', hz'⟩ | ⟨width', k', ht', hk', hz'⟩
  · rw [hz, hz']
  · rw [ht, ht'] at h
    cases h
  · rw [ht, ht'] at h
    cases h
  · rw [ht, ht'] at h
    have hdigits := (List.cons.inj h).2
    have hwidth := congrArg List.length hdigits
    rw [length_fixedDigits, length_fixedDigits] at hwidth
    subst hwidth
    rw [hz, hz', fixedDigits_inj hk hk' hdigits]

theorem toRfc3339_inj {t t' : DateTime} (h : t.toRfc3339 = t'.toRfc3339) : t = t' := by
  obtain ⟨hyear, h⟩ := yearText_append_inj h
  obtain ⟨hmonth, h⟩ := fixedDigits_append_inj t.month_lt t'.month_lt h
  obtain ⟨hday, h⟩ := fixedDigits_append_inj t.day_lt t'.day_lt (List.cons.inj h).2
  obtain ⟨hhour, h⟩ := fixedDigits_append_inj t.hour_lt t'.hour_lt (List.cons.inj h).2
  obtain ⟨hminute, h⟩ := fixedDigits_append_inj t.minute_lt t'.minute_lt (List.cons.inj h).2
  obtain ⟨hsecond, h⟩ := fixedDigits_append_inj t.second_lt t'.second_lt (List.cons.inj h).2
  have hnanos := fractionText_inj t.nanos_lt t'.nanos_lt (List.append_cancel_right h)
  cases t
  cases t'
  simp only at hyear hmonth hday hhour hminute hsecond hnanos
  subst hyear hmonth hday hhour hminute hsecond hnanos
  rfl

/-- A time as the database keeps it is not cut any more. -/
theorem toStoragePrecision_eq_self {t : DateTime} (h : t.nanos % 1000 = 0) :
    toStoragePrecision t = t := by
  unfold toStoragePrecision
  cases t
  simp only at h
  simp only [h, Nat.sub_zero]

/-! ## JSON -/

theorem canonicalFields_eq_map (fields : List (List Char × Json)) :
    canonicalFields fields = fields.map fun f => (f.1, canonicalJson f.2) := by
  induction fields with
  | nil => rw [canonicalFields, List.map_nil]
  | cons f rest ih =>
      obtain ⟨k, v⟩ := f
      rw [canonicalFields, ih, List.map_cons]

theorem sorted_canonicalFields {fields : List (List Char × Json)}
    (h : (fields.map Prod.fst).Pairwise (· < ·)) :
    (canonicalFields fields).insertionSort (fun f g => f.1 ≤ g.1) = canonicalFields fields := by
  apply List.Pairwise.insertionSort_eq
  rw [canonicalFields_eq_map, List.pairwise_map]
  exact (List.pairwise_map.1 h).imp fun hlt => hlt.le

mutual

/-- Sorting changes nothing: the keys of a value are in order already. -/
theorem canonicalJson_eq_render (v : Json) (h : v.Wf) : canonicalJson v = v.render := by
  cases v with
  | object fields =>
      rw [Json.Wf] at h
      rw [canonicalJson, sorted_canonicalFields h.1, joinFields_canonicalFields fields h.2,
        Json.render]
  | array items =>
      rw [Json.Wf] at h
      rw [canonicalJson, canonicalItems_eq_render items h, Json.render]
  | null => rw [canonicalJson]
  | bool b => rw [canonicalJson]
  | number n => rw [canonicalJson]
  | string s => rw [canonicalJson]

theorem canonicalItems_eq_render (items : List Json) (h : Json.WfItems items) :
    canonicalItems items = Json.renderItems items := by
  match items with
  | [] => rw [canonicalItems, Json.renderItems]
  | [v] =>
      rw [Json.WfItems] at h
      rw [canonicalItems, Json.renderItems, canonicalJson_eq_render v h.1]
  | v :: w :: rest =>
      rw [Json.WfItems] at h
      rw [canonicalItems, Json.renderItems, canonicalJson_eq_render v h.1,
        canonicalItems_eq_render (w :: rest) h.2]

theorem joinFields_canonicalFields (fields : List (List Char × Json)) (h : Json.WfFields fields) :
    joinFields (canonicalFields fields) = Json.renderFields fields := by
  match fields with
  | [] => rw [canonicalFields, joinFields, Json.renderFields]
  | [(k, v)] =>
      rw [Json.WfFields] at h
      rw [canonicalFields, canonicalFields, joinFields, Json.renderFields,
        canonicalJson_eq_render v h.1]
  | (k, v) :: (k', v') :: rest =>
      rw [Json.WfFields] at h
      rw [canonicalFields, canonicalFields, joinFields, Json.renderFields,
        canonicalJson_eq_render v h.1, ← canonicalFields,
        joinFields_canonicalFields ((k', v') :: rest) h.2]

end

theorem detail_ext {d d' : Detail}
    (h : utf8 (canonicalJson d.value) = utf8 (canonicalJson d'.value)) : d = d' := by
  have hrender := utf8_injective h
  rw [canonicalJson_eq_render _ d.wf, canonicalJson_eq_render _ d'.wf] at hrender
  have hvalue := Json.render_injective hrender
  cases d
  cases d'
  cases hvalue
  rfl

/-! ## Tagged fields -/

variable {tag : UInt8} {r : List UInt8}

theorem appendTlv_append_inj {v v' r' : List UInt8} (hv : v.length < sliceBound)
    (hv' : v'.length < sliceBound)
    (h : appendTlv tag v ++ r = appendTlv tag v' ++ r') : v = v' ∧ r = r' := by
  unfold appendTlv at h
  rw [List.cons_append, List.cons_append, List.append_assoc, List.append_assoc] at h
  obtain ⟨hlen, hrest⟩ := List.append_inj (List.cons.inj h).2
    (by rw [Sha256.length_beBytes, Sha256.length_beBytes])
  exact List.append_inj hrest (beBytes_inj hv hv' hlen)

theorem appendOptional_append_inj {v v' : Option (List UInt8)} {r' : List UInt8}
    (hv : ∀ b ∈ v, b.length < sliceBound)
    (hv' : ∀ b ∈ v', b.length < sliceBound) (hr : r.head? ≠ some tag)
    (hr' : r'.head? ≠ some tag)
    (h : appendOptional tag v ++ r = appendOptional tag v' ++ r') :
    v = v' ∧ r = r' := by
  cases v with
  | none =>
      cases v' with
      | none => exact ⟨rfl, h⟩
      | some b' =>
          -- the field of the right side would be what follows on the left
          have hhead := congrArg List.head? h
          exact (hr hhead).elim
  | some b =>
      cases v' with
      | none =>
          have hhead := congrArg List.head? h
          exact (hr' hhead.symm).elim
      | some b' =>
          obtain ⟨rfl, hrest⟩ := appendTlv_append_inj (hv b rfl) (hv' b' rfl) h
          exact ⟨rfl, hrest⟩

theorem seqBytes_inj {seq seq' : Int64} (h : seqBytes seq = seqBytes seq') : seq = seq' := by
  have hnat := beBytes_inj seq.toBitVec.isLt seq'.toBitVec.isLt h
  exact Int64.toBitVec_inj.1 (BitVec.eq_of_toNat_eq hnat)

theorem asStr_injective {a a' : AuditAction} (h : a.asStr = a'.asStr) : a = a' := by
  cases a <;> cases a' <;> first | rfl | exact absurd h (by decide)

/-! ## Lengths -/

theorem length_utf8_le (s : List Char) : (utf8 s).length ≤ 4 * s.length := by
  induction s with
  | nil => exact Nat.le_refl 0
  | cons c s ih =>
      have hc := c.utf8Size_le_four
      rw [utf8, List.flatMap_cons, List.length_append, String.length_utf8EncodeChar,
        List.length_cons]
      unfold utf8 at ih
      omega

theorem length_yearDigits_le (h : n < 262144) : (yearDigits n).length ≤ 6 := by
  unfold yearDigits
  split
  · rw [length_fixedDigits]
    decide
  · exact (Nat.length_toDigits_le_iff (by decide) (by decide)).2 (by omega)

theorem length_toRfc3339_le (t : DateTime) : t.toRfc3339.length ≤ 38 := by
  have hyear := length_yearDigits_le t.year_lt
  have hsign : (yearSign t.year).length ≤ 1 := by
    rcases yearSign_cases t.year with ⟨h, -⟩ | ⟨h, -⟩ | ⟨h, -⟩ <;> rw [h] <;> decide
  have hfraction : (fractionText t.nanos).length ≤ 10 := by
    unfold fractionText
    split
    · decide
    · split
      · rw [List.length_cons, length_fixedDigits]
        decide
      · split
        · rw [List.length_cons, length_fixedDigits]
          decide
        · rw [List.length_cons, length_fixedDigits]
  have hoffset : "+00:00".toList.length = 6 := by decide
  unfold DateTime.toRfc3339
  simp only [List.length_append, List.length_cons, length_fixedDigits, yearText_eq, hoffset]
  omega

theorem length_time_lt (t : DateTime) : (utf8 t.toRfc3339).length < sliceBound := by
  have htext := length_toRfc3339_le t
  have hbytes := length_utf8_le t.toRfc3339
  have hbound : 4 * 38 < sliceBound := by decide
  omega

theorem length_asStr_lt (a : AuditAction) : (utf8 a.asStr).length < sliceBound := by
  cases a <;> decide

/-! ## Entries -/

/-- Everything of an entry that is hashed. -/
structure AuditEntry.SameContent (e e' : AuditEntry) : Prop where
  communityId : e.communityId = e'.communityId
  seq : e.seq = e'.seq
  createdAt : toStoragePrecision e.createdAt = toStoragePrecision e'.createdAt
  action : e.action = e'.action
  actorPubkey : e.actorPubkey = e'.actorPubkey
  objectId : e.objectId = e'.objectId
  detail : e.detail = e'.detail
  prevHash : e.prevHash = e'.prevHash

theorem uuid_ext {u v : Uuid} (h : u.bytes = v.bytes) : u = v := by
  cases u
  cases v
  cases h
  rfl

theorem map_val_inj {b b' : Option Bytes} (h : b.map Bytes.val = b'.map Bytes.val) : b = b' := by
  refine Option.map_injective (fun x y hxy => ?_) h
  cases x
  cases y
  cases hxy
  rfl

theorem map_utf8_inj {t t' : Option Text}
    (h : (t.map fun id => utf8 id.chars) = t'.map fun id => utf8 id.chars) : t = t' := by
  refine Option.map_injective (fun x y hxy => ?_) h
  have hchars := utf8_injective hxy
  cases x
  cases y
  cases hchars
  rfl

theorem fits_map_val (b : Option Bytes) : ∀ v ∈ b.map Bytes.val, v.length < sliceBound := by
  intro v hv
  obtain ⟨x, -, rfl⟩ := Option.map_eq_some_iff.1 hv
  exact x.fits

theorem fits_map_utf8 (t : Option Text) :
    ∀ v ∈ t.map fun id => utf8 id.chars, v.length < sliceBound := by
  intro v hv
  obtain ⟨x, -, rfl⟩ := Option.map_eq_some_iff.1 hv
  exact x.fits

/-- Every tag stands before those that follow it. -/
theorem head_appendOptional_ne {tag' : UInt8} (v : Option (List UInt8))
    (htag : tag' ≠ tag) (hr : r.head? ≠ some tag) :
    (appendOptional tag' v ++ r).head? ≠ some tag := by
  cases v with
  | none => exact hr
  | some v =>
      intro h
      exact htag (Option.some.inj h)

variable {e e' : AuditEntry}

theorem tlvEncoding_inj (h : tlvEncoding e = tlvEncoding e') :
    e.SameContent e' := by
  have hseq : ∀ seq, (seqBytes seq).length < sliceBound := by
    intro seq
    rw [seqBytes, Sha256.length_beBytes]
    decide
  have huuid : ∀ u : Uuid, u.bytes.length < sliceBound := by
    intro u
    rw [u.size]
    decide
  obtain ⟨hcommunity, h⟩ := appendTlv_append_inj (huuid _) (huuid _) (List.append_cancel_left h)
  obtain ⟨hseq, h⟩ := appendTlv_append_inj (hseq _) (hseq _) h
  obtain ⟨htime, h⟩ := appendTlv_append_inj (length_time_lt _) (length_time_lt _) h
  obtain ⟨haction, h⟩ := appendTlv_append_inj (length_asStr_lt _) (length_asStr_lt _) h
  have hseven : ∀ (tag : UInt8) (v r : List UInt8), 7 ≠ tag →
      (appendTlv 7 v ++ r).head? ≠ some tag := by
    intro tag v r htag heq
    exact htag (Option.some.inj heq)
  obtain ⟨hactor, h⟩ := appendOptional_append_inj (fits_map_val _) (fits_map_val _)
    (head_appendOptional_ne _ (by decide) (hseven 5 _ _ (by decide)))
    (head_appendOptional_ne _ (by decide) (hseven 5 _ _ (by decide))) h
  obtain ⟨hobject, h⟩ := appendOptional_append_inj (fits_map_utf8 _) (fits_map_utf8 _)
    (hseven 6 _ _ (by decide)) (hseven 6 _ _ (by decide)) h
  obtain ⟨hdetail, h⟩ := appendTlv_append_inj e.detail.fits e'.detail.fits h
  obtain ⟨hprev, -⟩ :
      e.prevHash.map Bytes.val = e'.prevHash.map Bytes.val ∧ ([] : List UInt8) = [] :=
    appendOptional_append_inj (fits_map_val _) (fits_map_val _) (by decide) (by decide)
      (congrArg (· ++ []) h)
  exact
    { communityId := uuid_ext hcommunity
      seq := seqBytes_inj hseq
      createdAt := toRfc3339_inj (utf8_injective htime)
      action := asStr_injective (utf8_injective haction)
      actorPubkey := map_val_inj hactor
      objectId := map_utf8_inj hobject
      detail := detail_ext hdetail
      prevHash := map_val_inj hprev }

/-- An ASCII character is one byte, its number. -/
theorem utf8EncodeChar_ascii :
    ∀ n < 128, String.utf8EncodeChar (Char.ofNat n) = [UInt8.ofNat n] := by
  decide

theorem utf8_time_head (t : DateTime) (r : List UInt8) :
    (utf8 t.toRfc3339 ++ r).head? ≠ some 117 := by
  obtain ⟨c, rest, htext, hc⟩ := yearText_head t.year
  have hnat : c.toNat < 58 := by
    rcases hc with hc | rfl | rfl
    · rw [Char.isDigit, Bool.and_eq_true, decide_eq_true_iff, decide_eq_true_iff] at hc
      exact Nat.lt_succ_of_le (UInt32.le_iff_toNat_le.1 hc.2)
    · decide
    · decide
  have hbyte := utf8EncodeChar_ascii c.toNat (by omega)
  rw [Char.ofNat_toNat] at hbyte
  intro h
  rw [DateTime.toRfc3339, htext, utf8, List.cons_append, List.flatMap_cons, hbyte,
    List.append_assoc, List.singleton_append, List.head?_cons, Option.some.injEq] at h
  have hvalue := congrArg UInt8.toNat h
  rw [UInt8.toNat_ofNat', Nat.mod_eq_of_lt (by omega)] at hvalue
  have hu : (117 : UInt8).toNat = 117 := rfl
  omega

/-- Where the time begins in the older encoding. -/
theorem drop_legacyEncoding (e : AuditEntry) :
    ∃ r, (legacyEncoding e).drop 24 = utf8 (toStoragePrecision e.createdAt).toRfc3339 ++ r := by
  have hseq : (seqBytes e.seq).length = 8 := Sha256.length_beBytes 8 _
  have hlength : (e.communityId.bytes ++ seqBytes e.seq).length = 24 := by
    rw [List.length_append, e.communityId.size, hseq]
  rw [legacyEncoding, ← List.append_assoc, List.drop_left' hlength]
  exact ⟨_, rfl⟩

/-- The two encodings differ for entries of one community: its second byte
would be an `u`, and again the byte where the older encoding has its time. -/
theorem legacyEncoding_ne_tlvEncoding
    (hcommunity : e.communityId = e'.communityId) :
    legacyEncoding e ≠ tlvEncoding e' := by
  intro h
  have hsize := e'.communityId.size
  match hbytes : e'.communityId.bytes, hsize with
  | [b0, b1, b2, b3, b4, b5, b6, b7, b8, b9, b10, b11, b12, b13, b14, b15], _ =>
      have hfront : (legacyEncoding e)[1]? = some b1 := by
        rw [legacyEncoding, hcommunity, hbytes]
        rfl
      have hmagic : (tlvEncoding e')[1]? = some 117 := rfl
      have hback : ((tlvEncoding e').drop 24).head? = some b1 := by
        rw [tlvEncoding, hbytes]
        rfl
      rw [h, hmagic] at hfront
      obtain ⟨r, htime⟩ := drop_legacyEncoding e
      rw [← h, htime, ← hfront] at hback
      exact utf8_time_head _ r hback

/-- No two encodings of entries of one community agree by accident, if one of
them is a tagged one. -/
theorem encoding_inj {bytes : List UInt8}
    (hversion : e.hashVersion = currentHashVersion)
    (hcommunity : e'.communityId = e.communityId) (h : encoding e = .ok bytes)
    (h' : encoding e' = .ok bytes) :
    e'.hashVersion = currentHashVersion ∧ e.SameContent e' := by
  unfold encoding at h h'
  rw [hversion, if_neg (by decide), if_pos rfl] at h
  split at h'
  · cases h
    exact (legacyEncoding_ne_tlvEncoding hcommunity (Except.ok.inj h')).elim
  · split at h'
    · next hversion' =>
        cases h
        exact ⟨hversion', tlvEncoding_inj (Except.ok.inj h').symm⟩
    · cases h'

end Buzz.Audit
