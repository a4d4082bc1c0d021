import Buzz.Desktop.ReadState
import Mathlib.Algebra.Order.BigOperators.Group.List

/-!
# What fits into a blob

Trimming evicts messages and threads by an estimate of their size that never exceeds
what they take, so that a blob whose channels fit is within the budget afterwards. A
blob within the budget has far fewer contexts than a reader accepts. The split of the
channels puts each of them into some slot.
-/

namespace Buzz.Desktop

open Buzz.Lib

variable {κ : Type} [ContextKey κ] {contexts : HMap κ Nat} {clientId : List Char} {maxBytes : Nat}
  {key : κ} {value : Nat} {e : (_ : κ) × Nat}

@[simp] theorem lookup_inOrder (contexts : Contexts) (key : ContextId) :
    contexts.inOrder.lookup key = contexts.lookup key :=
  List.perm_dlookup key contexts.inOrder.nodupKeys (orderEntries_perm contexts.entries)

/-! ## Bytes -/

@[simp] theorem utf8Length_nil : utf8Length [] = 0 := rfl

@[simp] theorem utf8Length_cons (c : Char) (text : List Char) :
    utf8Length (c :: text) = c.utf8Size + utf8Length text := rfl

@[simp] theorem utf8Length_append (a b : List Char) :
    utf8Length (a ++ b) = utf8Length a + utf8Length b := by
  unfold utf8Length
  rw [List.map_append, List.sum_append_nat]

theorem length_le_utf8Length (text : List Char) : text.length ≤ utf8Length text := by
  induction text with
  | nil => exact Nat.le_refl _
  | cons c text ih =>
      have hc := c.utf8Size_pos
      rw [List.length_cons, utf8Length_cons]
      omega

theorem utf16_le_utf8 (c : Char) : (if c.toNat < 65536 then 1 else 2) ≤ c.utf8Size := by
  have hpos := c.utf8Size_pos
  split
  · exact hpos
  · next hlarge =>
      have hne : c.utf8Size ≠ 1 := by
        rw [Ne, Char.utf8Size_eq_one_iff, UInt32.le_iff_toNat_le]
        have hval : c.toNat = c.val.toNat := rfl
        have hlast : (127 : UInt32).toNat = 127 := rfl
        omega
      omega

theorem utf16_le_escapeChar (c : Char) :
    (if c.toNat < 65536 then 1 else 2) ≤ utf8Length (Json.escapeChar c) := by
  by_cases hplain : c = '"' ∨ c = '\\' ∨ c.toNat < 32
  · -- An ASCII character: one unit, and at least one byte.
    have hsmall : c.toNat < 65536 := by
      rcases hplain with rfl | rfl | hcontrol
      · decide
      · decide
      · omega
    rw [if_pos hsmall]
    refine le_trans ?_ (length_le_utf8Length _)
    unfold Json.escapeChar
    repeat' split
    all_goals exact Nat.succ_pos _
  · rw [not_or, not_or] at hplain
    unfold Json.escapeChar
    rw [if_neg hplain.1, if_neg hplain.2.1, if_neg hplain.2.2, utf8Length_cons, utf8Length_nil]
    exact utf16_le_utf8 c

/-- A string is no longer than the text that is written for it. -/
theorem utf16Length_le (text : List Char) :
    utf16Length text + 2 ≤ utf8Length (Json.renderString text) := by
  have hescaped : utf16Length text ≤ utf8Length (text.flatMap Json.escapeChar) := by
    induction text with
    | nil => exact Nat.le_refl _
    | cons c text ih =>
        have hc := utf16_le_escapeChar c
        rw [List.flatMap_cons, utf8Length_append]
        show (if c.toNat < 65536 then 1 else 2) + utf16Length text ≤ _
        omega
  have hquote : Char.utf8Size '"' = 1 := rfl
  unfold Json.renderString
  rw [utf8Length_cons, utf8Length_append, utf8Length_cons, utf8Length_nil, hquote]
  omega

/-- What an entry takes, with its comma. -/
def entryBytes (e : (_ : κ) × Nat) : Nat := utf8Length (contextText e) + 1

theorem estimate_le (e : (_ : κ) × Nat) : estimate e ≤ entryBytes e := by
  have htext := utf16Length_le (ContextKey.text e.1)
  have hdigits := length_le_utf8Length (Nat.toDigits 10 e.2)
  have hcolon : Char.utf8Size ':' = 1 := rfl
  unfold estimate entryBytes contextText
  rw [utf8Length_append, utf8Length_cons, hcolon]
  omega

theorem four_le_entryBytes (e : (_ : κ) × Nat) : 4 ≤ entryBytes e := by
  have htext := utf16Length_le (ContextKey.text e.1)
  have hcolon : Char.utf8Size ':' = 1 := rfl
  unfold entryBytes contextText
  rw [utf8Length_append, utf8Length_cons, hcolon]
  omega

/-- The bytes of all the entries, with a comma each. -/
def entriesBytes (entries : List ((_ : κ) × Nat)) : Nat := (entries.map entryBytes).sum

theorem utf8Length_intercalate (entries : List ((_ : κ) × Nat)) :
    utf8Length ([','].intercalate (entries.map contextText)) = entriesBytes entries - 1 := by
  induction entries with
  | nil => rfl
  | cons e entries ih =>
      cases entries with
      | nil =>
          show utf8Length ([','].intercalate [contextText e]) = entryBytes e + 0 - 1
          simp [List.intercalate, entryBytes]
      | cons e' entries =>
          have hcomma : Char.utf8Size ',' = 1 := rfl
          have hfour := four_le_entryBytes e'
          have hstep : [','].intercalate ((e :: e' :: entries).map contextText) =
              contextText e ++ ',' :: [','].intercalate ((e' :: entries).map contextText) := by
            simp [List.intercalate]
          rw [hstep, utf8Length_append, utf8Length_cons, ih, hcomma]
          show _ = entryBytes e + (entryBytes e' + entriesBytes entries) - 1
          show utf8Length (contextText e) + (1 + (entryBytes e' + entriesBytes entries - 1)) = _
          unfold entryBytes at hfour ⊢
          omega

/-- The bytes of a blob without contexts. -/
def baseBytes (clientId : List Char) : Nat := blobBytes clientId (∅ : Contexts)

theorem blobBytes_eq (clientId : List Char) (contexts : HMap κ Nat) :
    blobBytes clientId contexts = baseBytes clientId + (entriesBytes contexts.entries - 1) := by
  unfold baseBytes blobBytes blobFor
  simp only [utf8Length_append, utf8Length_intercalate]
  have hempty : entriesBytes (∅ : Contexts).entries = 0 := rfl
  rw [hempty]
  omega

theorem four_mul_length_le (entries : List ((_ : κ) × Nat)) :
    4 * entries.length ≤ entriesBytes entries := by
  induction entries with
  | nil => exact Nat.le_refl _
  | cons e entries ih =>
      have hfour := four_le_entryBytes e
      show 4 * (entries.length + 1) ≤ entryBytes e + entriesBytes entries
      omega

theorem entriesBytes_perm {l l' : List ((_ : κ) × Nat)} (h : l.Perm l') :
    entriesBytes l = entriesBytes l' :=
  (h.map entryBytes).sum_nat

theorem entriesBytes_append (l l' : List ((_ : κ) × Nat)) :
    entriesBytes (l ++ l') = entriesBytes l + entriesBytes l' := by
  unfold entriesBytes
  rw [List.map_append, List.sum_append_nat]

theorem entriesBytes_le {l l' : List ((_ : κ) × Nat)} (h : l.Sublist l') :
    entriesBytes l ≤ entriesBytes l' :=
  (h.map entryBytes).sum_le_sum fun _ _ => Nat.zero_le _

/-- A reader takes every blob that is within the budget. -/
theorem length_keys_le (h : blobBytes clientId contexts ≤ readStateMaxPlaintextBytes) :
    contexts.keys.length ≤ maxContexts := by
  have hfour := four_mul_length_le contexts.entries
  have hkeys : contexts.keys.length = contexts.entries.length := List.length_map _
  rw [blobBytes_eq] at h
  unfold readStateMaxPlaintextBytes at h
  unfold maxContexts
  omega

/-! ## Trimming -/

theorem mem_inOrder :
    e ∈ (inOrder contexts).entries ↔ e ∈ contexts.entries :=
  (orderEntries_perm contexts.entries).mem_iff

/-- Messages and threads, in whatever order. -/
theorem evictionOrder_perm (contexts : HMap κ Nat) :
    (evictionOrder contexts).Perm ((inOrder contexts).entries.filter fun e => !isChannel e.1) := by
  unfold evictionOrder
  dsimp only
  refine ((List.perm_insertionSort _ _).append (List.perm_insertionSort _ _)).trans ?_
  have hsplit := List.filter_append_perm (fun e : (_ : κ) × Nat => isMsg e.1)
    ((inOrder contexts).entries.filter fun e => !isChannel e.1)
  rw [List.filter_filter, List.filter_filter] at hsplit
  have hmsg : ∀ e : (_ : κ) × Nat, (isMsg e.1 && !isChannel e.1) = isMsg e.1 := by
    intro e
    unfold isChannel
    cases isMsg e.1 <;> rfl
  have hthread : ∀ e : (_ : κ) × Nat,
      (!isMsg e.1 && !isChannel e.1) = (!isMsg e.1 && isThread e.1) := by
    intro e
    unfold isChannel
    cases isMsg e.1 <;> cases isThread e.1 <;> rfl
  simp only [hmsg, hthread] at hsplit
  exact hsplit

/-- The one goes before the other: messages before threads, the older before the newer. -/
def GoesFirst (a b : (_ : κ) × Nat) : Prop :=
  (isMsg a.1 = true ∧ isMsg b.1 = false) ∨ (isMsg a.1 = isMsg b.1 ∧ a.2 < b.2)

theorem evictionOrder_pairwise (contexts : HMap κ Nat) :
    (evictionOrder contexts).Pairwise fun a b => ¬ GoesFirst b a := by
  have hsorted : ∀ l : List ((_ : κ) × Nat),
      (l.insertionSort fun a b => a.2 ≤ b.2).Pairwise fun a b => a.2 ≤ b.2 := by
    intro l
    have htotal : Std.Total fun a b : (_ : κ) × Nat => a.2 ≤ b.2 := ⟨fun a b => le_total a.2 b.2⟩
    have htrans : IsTrans ((_ : κ) × Nat) fun a b => a.2 ≤ b.2 :=
      ⟨fun _ _ _ hab hbc => hab.trans hbc⟩
    exact List.pairwise_insertionSort _ l
  have hwithin : ∀ (kind : Bool) {l : List ((_ : κ) × Nat)}, (∀ e ∈ l, isMsg e.1 = kind) →
      (l.insertionSort fun a b => a.2 ≤ b.2).Pairwise fun a b => ¬ GoesFirst b a := by
    intro kind l hkind
    refine (hsorted l).imp_of_mem fun {a b} ha hb hle => ?_
    rw [List.mem_insertionSort] at ha hb
    rintro (⟨hmsg, hthread⟩ | ⟨-, hlt⟩)
    · rw [hkind b hb] at hmsg
      rw [hkind a ha, hmsg] at hthread
      cases hthread
    · omega
  unfold evictionOrder
  dsimp only
  refine List.pairwise_append.2 ⟨hwithin true ?_, hwithin false ?_, ?_⟩
  · exact fun e he => (List.mem_filter.1 he).2
  · intro e he
    have he := (List.mem_filter.1 he).2
    rw [Bool.and_eq_true, Bool.not_eq_true'] at he
    exact he.1
  · intro a ha b hb
    rw [List.mem_insertionSort, List.mem_filter] at ha hb
    rw [Bool.and_eq_true, Bool.not_eq_true'] at hb
    rintro (⟨hmsg, -⟩ | ⟨hsame, -⟩)
    · rw [hb.2.1] at hmsg
      cases hmsg
    · rw [hb.2.1, ha.2] at hsame
      cases hsame

theorem toEvict_isPrefix (maxBytes : Nat) (bytes : Int) (l : List ((_ : κ) × Nat)) :
    toEvict maxBytes bytes l <+: l := by
  induction l generalizing bytes with
  | nil => exact List.prefix_refl _
  | cons e l ih =>
      rw [toEvict]
      split
      · exact List.nil_prefix
      · exact List.prefix_cons_inj e |>.2 (ih _)

/-- The loop ends within the budget, or with nothing left to evict. -/
theorem toEvict_spec (maxBytes : Nat) (bytes : Int) (l : List ((_ : κ) × Nat)) :
    bytes - ((toEvict maxBytes bytes l).map estimate).sum ≤ maxBytes ∨
      toEvict maxBytes bytes l = l := by
  induction l generalizing bytes with
  | nil => exact .inr rfl
  | cons e l ih =>
      rw [toEvict]
      split
      · next hle =>
          left
          rw [List.map_nil, List.sum_nil]
          omega
      · rcases ih (bytes - estimate e) with hle | hall
        · left
          rw [List.map_cons, List.sum_cons]
          omega
        · exact .inr (congrArg _ hall)

/-- What is evicted. -/
def evictedEntries (contexts : HMap κ Nat) (clientId : List Char) (maxBytes : Nat) :
    List ((_ : κ) × Nat) :=
  toEvict maxBytes (blobBytes clientId contexts) (evictionOrder contexts)

theorem mem_evictedEntries (he : e ∈ evictedEntries contexts clientId maxBytes) :
    e ∈ contexts.entries ∧ isChannel e.1 = false := by
  have horder := (toEvict_isPrefix maxBytes _ _).subset he
  rw [(evictionOrder_perm contexts).mem_iff, List.mem_filter, mem_inOrder, Bool.not_eq_true']
    at horder
  exact horder

theorem not_mem_evicted (hchannel : isChannel key = true) :
    key ∉ (evictedEntries contexts clientId maxBytes).map (·.1) := by
  intro hmem
  obtain ⟨e, he, rfl⟩ := List.mem_map.1 hmem
  rw [(mem_evictedEntries he).2] at hchannel
  cases hchannel

/-- Who goes before one that is evicted is evicted. -/
theorem evicted_of_goesFirst {e' : (_ : κ) × Nat}
    (he : e ∈ evictedEntries contexts clientId maxBytes)
    (he' : e' ∈ contexts.entries) (hthread : isChannel e'.1 = false)
    (hfirst : GoesFirst e' e) :
    e' ∈ evictedEntries contexts clientId maxBytes := by
  obtain ⟨rest, hrest⟩ := toEvict_isPrefix maxBytes (blobBytes clientId contexts)
    (evictionOrder contexts)
  have hmem : e' ∈ evictionOrder contexts := by
    rw [(evictionOrder_perm contexts).mem_iff, List.mem_filter, mem_inOrder, hthread]
    exact ⟨he', rfl⟩
  have hpairwise := evictionOrder_pairwise contexts
  rw [← hrest] at hmem hpairwise
  rcases List.mem_append.1 hmem with hmem | hmem
  · exact hmem
  · exact absurd hfirst ((List.pairwise_append.1 hpairwise).2.2 e he e' hmem)

theorem sum_estimate_le (l : List ((_ : κ) × Nat)) :
    (l.map estimate).sum ≤ entriesBytes l := by
  induction l with
  | nil => exact Int.le_refl _
  | cons e l ih =>
      have he := estimate_le e
      have hsum : entriesBytes (e :: l) = entryBytes e + entriesBytes l := rfl
      rw [List.map_cons, List.sum_cons, hsum]
      omega

theorem baseBytes_le (clientId : List Char) (contexts : HMap κ Nat) :
    baseBytes clientId ≤ blobBytes clientId contexts := by
  rw [blobBytes_eq]
  exact Nat.le_add_right _ _

variable [DecidableEq κ] {channels : HMap κ Nat}

theorem trim_cases (contexts : HMap κ Nat) (clientId : List Char) (maxBytes : Nat) :
    blobBytes clientId contexts ≤ maxBytes ∧
      (trimContextsToBudget contexts clientId maxBytes).contexts = contexts ∨
    (trimContextsToBudget contexts clientId maxBytes).contexts =
      contexts.retain fun key _ => key ∉ (evictedEntries contexts clientId maxBytes).map (·.1) := by
  unfold trimContextsToBudget
  split
  · next hfits => exact .inl ⟨hfits, rfl⟩
  · exact .inr rfl

theorem fits_of_fitsAfterTrim
    (h : (trimContextsToBudget contexts clientId maxBytes).fitsAfterTrim = true) :
    blobBytes clientId (trimContextsToBudget contexts clientId maxBytes).contexts ≤ maxBytes := by
  unfold trimContextsToBudget at h ⊢
  split at h
  · next hwhole =>
      rw [if_pos hwhole]
      exact hwhole
  · next hwhole =>
      rw [if_neg hwhole]
      dsimp only at h ⊢
      rw [decide_eq_true_eq] at h
      exact h

theorem lookup_trim
    (h : (trimContextsToBudget contexts clientId maxBytes).contexts.lookup key = some value) :
    contexts.lookup key = some value := by
  rcases trim_cases contexts clientId maxBytes with ⟨-, hsame⟩ | hkept
  · rw [hsame] at h
    exact h
  · rw [hkept, HMap.lookup_retain, Option.filter_eq_some_iff] at h
    exact h.1

/-- Channels are never evicted. -/
theorem lookup_trim_channel (hchannel : isChannel key = true) :
    (trimContextsToBudget contexts clientId maxBytes).contexts.lookup key =
      contexts.lookup key := by
  rcases trim_cases contexts clientId maxBytes with ⟨-, hsame⟩ | hkept
  · rw [hsame]
  · rw [hkept]
    exact HMap.lookup_retain_of_true _ fun _ => decide_eq_true (not_mem_evicted hchannel)

/-- Messages and threads are dropped in the order of their eviction. -/
theorem trim_dropped {e' : (_ : κ) × Nat} (he : contexts.lookup e.1 = some e.2)
    (hgone : (trimContextsToBudget contexts clientId maxBytes).contexts.lookup e.1 = none)
    (he' : contexts.lookup e'.1 = some e'.2) (hthread : isChannel e'.1 = false)
    (hfirst : GoesFirst e' e) :
    (trimContextsToBudget contexts clientId maxBytes).contexts.lookup e'.1 = none := by
  rcases trim_cases contexts clientId maxBytes with ⟨-, hsame⟩ | hkept
  · rw [hsame, he] at hgone
    cases hgone
  · rw [hkept, HMap.lookup_retain, he, Option.filter_some] at hgone
    rw [hkept, HMap.lookup_retain, he', Option.filter_some]
    split at hgone
    · cases hgone
    · next hevicted =>
        rw [decide_eq_true_eq, not_not] at hevicted
        obtain ⟨e₀, he₀, hkey⟩ := List.mem_map.1 hevicted
        rw [← hkey, HMap.mem_entries_iff.1 (mem_evictedEntries he₀).1] at he
        have hsame : e₀ = e := Sigma.ext hkey (heq_of_eq (Option.some.inj he))
        have hgone' :=
          evicted_of_goesFirst (hsame ▸ he₀) (HMap.mem_entries_iff.2 he') hthread hfirst
        rw [if_neg]
        rw [decide_eq_true_eq, not_not]
        exact List.mem_map_of_mem hgone'

/-- What stays and what is evicted take no more than there was. -/
theorem entriesBytes_kept (contexts : HMap κ Nat) (clientId : List Char) (maxBytes : Nat) :
    entriesBytes (contexts.retain fun key _ =>
        key ∉ (evictedEntries contexts clientId maxBytes).map (·.1)).entries +
      entriesBytes (evictedEntries contexts clientId maxBytes) ≤ entriesBytes contexts.entries := by
  have hgone : (evictedEntries contexts clientId maxBytes).Subperm (contexts.entries.filter
      fun e => e.1 ∈ (evictedEntries contexts clientId maxBytes).map (·.1)) := by
    have hsub : (evictedEntries contexts clientId maxBytes).Subperm contexts.entries :=
      ((toEvict_isPrefix maxBytes _ _).sublist.subperm.trans
        (evictionOrder_perm contexts).subperm).trans
        (List.filter_sublist.subperm.trans (orderEntries_perm contexts.entries).subperm)
    have hfilter := hsub.filter
      fun e => decide (e.1 ∈ (evictedEntries contexts clientId maxBytes).map (·.1))
    rw [List.filter_eq_self.2 fun e he => decide_eq_true (List.mem_map_of_mem he)] at hfilter
    exact hfilter
  obtain ⟨l, hperm, hsublist⟩ := hgone
  have hle : entriesBytes (evictedEntries contexts clientId maxBytes) ≤
      entriesBytes (contexts.entries.filter
        fun e => e.1 ∈ (evictedEntries contexts clientId maxBytes).map (·.1)) := by
    rw [← entriesBytes_perm hperm]
    exact entriesBytes_le hsublist
  have hall := entriesBytes_perm (List.filter_append_perm
    (fun e => decide (e.1 ∈ (evictedEntries contexts clientId maxBytes).map (·.1)))
    contexts.entries)
  rw [entriesBytes_append] at hall
  have hkept : (contexts.retain fun key _ =>
      key ∉ (evictedEntries contexts clientId maxBytes).map (·.1)).entries =
      contexts.entries.filter
        fun e => !decide (e.1 ∈ (evictedEntries contexts clientId maxBytes).map (·.1)) := by
    show contexts.entries.filter _ = _
    simp only [decide_not]
  rw [hkept]
  omega

/-- If the channels fit, the blob fits when it is trimmed. -/
theorem trim_fits
    (h : blobBytes clientId (contexts.retain fun key _ => isChannel key) ≤ maxBytes) :
    blobBytes clientId (trimContextsToBudget contexts clientId maxBytes).contexts ≤ maxBytes := by
  rcases trim_cases contexts clientId maxBytes with ⟨hfits, hsame⟩ | hkept
  · rw [hsame]
    exact hfits
  · rw [hkept]
    have hbase := (baseBytes_le clientId _).trans h
    have hbytes := entriesBytes_kept contexts clientId maxBytes
    rcases toEvict_spec maxBytes (blobBytes clientId contexts) (evictionOrder contexts) with
      hle | hall
    · have hestimate := sum_estimate_le (evictedEntries contexts clientId maxBytes)
      have hblob := blobBytes_eq clientId contexts
      change (blobBytes clientId contexts : Int) -
        ((evictedEntries contexts clientId maxBytes).map estimate).sum ≤ maxBytes at hle
      rw [blobBytes_eq]
      omega
    · -- Everything but the channels is gone.
      have hchannels : (contexts.retain fun key _ =>
          key ∉ (evictedEntries contexts clientId maxBytes).map (·.1)) =
          contexts.retain fun key _ => isChannel key := by
        refine AList.ext (List.filter_congr fun e he => ?_)
        have hevicted : evictedEntries contexts clientId maxBytes = evictionOrder contexts := hall
        show decide (e.1 ∉ (evictedEntries contexts clientId maxBytes).map (·.1)) = isChannel e.1
        cases hchannel : isChannel e.1 with
        | true => exact decide_eq_true (not_mem_evicted hchannel)
        | false =>
            rw [hevicted, decide_eq_false_iff_not, not_not]
            refine List.mem_map.2 ⟨e, ?_, rfl⟩
            rw [(evictionOrder_perm contexts).mem_iff, List.mem_filter, mem_inOrder, hchannel]
            exact ⟨he, rfl⟩
      rw [hchannels]
      exact h

omit [DecidableEq κ] in
theorem blobBytes_le {contexts' : HMap κ Nat} (h : contexts.entries.Sublist contexts'.entries) :
    blobBytes clientId contexts ≤ blobBytes clientId contexts' := by
  have hle := entriesBytes_le h
  rw [blobBytes_eq, blobBytes_eq]
  omega

/-- Trimming fails if and only if the channels alone do not fit. -/
theorem fitsAfterTrim_iff :
    (trimContextsToBudget contexts clientId maxBytes).fitsAfterTrim = true ↔
      blobBytes clientId (contexts.retain fun key _ => isChannel key) ≤ maxBytes := by
  constructor
  · intro h
    refine le_trans ?_ (fits_of_fitsAfterTrim h)
    rcases trim_cases contexts clientId maxBytes with ⟨-, hsame⟩ | hkept
    · rw [hsame]
      exact blobBytes_le List.filter_sublist
    · rw [hkept]
      refine blobBytes_le (List.monotone_filter_right _ fun e he => ?_)
      exact decide_eq_true (not_mem_evicted he)
  · intro h
    have hfits := trim_fits h
    unfold trimContextsToBudget at hfits ⊢
    split at hfits
    · next hwhole => rw [if_pos hwhole]
    · next hwhole =>
        rw [if_neg hwhole]
        dsimp only at hfits ⊢
        rw [decide_eq_true_eq]
        exact hfits

/-! ## Splitting -/

theorem blobBytes_congr {contexts' : HMap κ Nat} (h : ∀ k, contexts.lookup k = contexts'.lookup k) :
    blobBytes clientId contexts = blobBytes clientId contexts' := by
  have hperm : contexts.entries.Perm contexts'.entries :=
    List.lookup_ext contexts.nodupKeys contexts'.nodupKeys fun k v => by
      show v ∈ contexts.lookup k ↔ v ∈ contexts'.lookup k
      rw [h k]
  rw [blobBytes_eq, blobBytes_eq, entriesBytes_perm hperm]

theorem growSlots_bounds (fits : Nat → Bool) (slotCount room : Nat) :
    slotCount ≤ growSlots fits slotCount room ∧
      growSlots fits slotCount room ≤ slotCount + room := by
  induction room generalizing slotCount with
  | zero => exact ⟨Nat.le_refl _, Nat.le_refl _⟩
  | succ room ih =>
      have hnext := ih (slotCount + 1)
      rw [growSlots]
      split
      · omega
      · omega

/-- Where the loop ends without a fit, nothing on its way did fit. -/
theorem not_fits_of_growSlots (fits : Nat → Bool) {slotCount room : Nat}
    (h : fits (growSlots fits slotCount room) = false) {count : Nat} (hfrom : slotCount ≤ count)
    (hto : count ≤ slotCount + room) : fits count = false := by
  induction room generalizing slotCount with
  | zero =>
      rw [show count = slotCount by omega]
      exact h
  | succ room ih =>
      rw [growSlots] at h
      split at h
      · next hfits =>
          rw [hfits] at h
          cases h
      · next hfits =>
          rcases Nat.eq_or_lt_of_le hfrom with rfl | hlt
          · exact eq_false_of_ne_true hfits
          · exact ih h hlt (by omega)

omit [ContextKey κ] in
theorem lookup_distribute {count : Nat} {slot : HMap κ Nat}
    (hslot : slot ∈ distribute channels count)
    (h : slot.lookup key = some value) :
    channels.lookup key = some value := by
  obtain ⟨j, -, rfl⟩ := List.mem_map.1 hslot
  rw [HMap.lookup_retain, Option.filter_eq_some_iff] at h
  exact h.1

omit [ContextKey κ] in
/-- Every channel is dealt to some slot. -/
theorem exists_mem_distribute (count : Nat) (hcount : 0 < count)
    (h : channels.lookup key = some value) :
    ∃ slot ∈ distribute channels count, slot.lookup key = some value := by
  refine ⟨_, List.mem_map.2 ⟨channels.keys.idxOf key % count, ?_, rfl⟩, ?_⟩
  · exact List.mem_range.2 (Nat.mod_lt _ hcount)
  · rw [HMap.lookup_retain, h, Option.filter_some, decide_eq_true rfl]
    rfl

/-- What the split gives: slots within the budget that hold every channel, and nothing
but what was to be published. -/
structure Slotted (channels threadMsgs : HMap κ Nat) (clientId : List Char) (maxBytes : Nat)
    (slots : List (HMap κ Nat)) : Prop where
  fits : ∀ slot ∈ slots, blobBytes clientId slot ≤ maxBytes
  sub : ∀ slot ∈ slots, ∀ key value, slot.lookup key = some value →
    channels.lookup key = some value ∨ threadMsgs.lookup key = some value
  holds : ∀ key value, channels.lookup key = some value →
    ∃ slot ∈ slots, slot.lookup key = some value

/-- The primary slot keeps its channels, and gets threads as far as there is room. -/
theorem primary_spec {primary threadMsgs : HMap κ Nat}
    (hchannels : ∀ key value, primary.lookup key = some value → isChannel key = true)
    (hthreads : ∀ key value, threadMsgs.lookup key = some value → isChannel key = false)
    (hfits : blobBytes clientId primary ≤ maxBytes) :
    Slotted primary threadMsgs clientId maxBytes
      [(trimContextsToBudget (primary.putAll threadMsgs) clientId maxBytes).contexts] := by
  have hput : ∀ k, isChannel k = true →
      (primary.putAll threadMsgs).lookup k = primary.lookup k := by
    intro k hk
    rw [HMap.lookup_putAll]
    cases hthread : threadMsgs.lookup k with
    | none => rfl
    | some v =>
        rw [hthreads k v hthread] at hk
        cases hk
  have hchannelOnly : ∀ k,
      ((primary.putAll threadMsgs).retain fun key _ => isChannel key).lookup k =
        primary.lookup k := by
    intro k
    cases hk : isChannel k with
    | true => rw [HMap.lookup_retain_of_true _ fun _ => hk, hput k hk]
    | false =>
        have hnone : primary.lookup k = none := by
          rw [Option.eq_none_iff_forall_ne_some]
          intro v hv
          rw [hchannels k v hv] at hk
          cases hk
        rw [HMap.lookup_retain, hnone]
        cases (primary.putAll threadMsgs).lookup k with
        | none => rfl
        | some v => rw [Option.filter_some, hk]; rfl
  refine ⟨?_, ?_, ?_⟩
  · intro slot hslot
    rw [List.mem_singleton.1 hslot]
    refine trim_fits ?_
    rw [blobBytes_congr hchannelOnly]
    exact hfits
  · intro slot hslot k v hv
    rw [List.mem_singleton.1 hslot] at hv
    have hold := lookup_trim hv
    rw [HMap.lookup_putAll, Option.or_eq_some_iff] at hold
    rcases hold with hthread | ⟨-, hchannel⟩
    · exact .inr hthread
    · exact .inl hchannel
  · intro k v hv
    have hk := hchannels k v hv
    refine ⟨_, List.mem_singleton_self _, ?_⟩
    rw [lookup_trim_channel hk, hput k hk, hv]

theorem split_spec {threadMsgs : HMap κ Nat} {initialSlotCount maxSlots : Nat}
    {slots : List (HMap κ Nat)} (hinitial : 0 < initialSlotCount)
    (hchannels : ∀ key value, channels.lookup key = some value → isChannel key = true)
    (hthreads : ∀ key value, threadMsgs.lookup key = some value → isChannel key = false)
    (h : splitContextsIntoBudgetedSlots channels threadMsgs clientId initialSlotCount maxSlots
      maxBytes = some slots) :
    Slotted channels threadMsgs clientId maxBytes slots ∧ initialSlotCount ≤ slots.length ∧
      slots.length ≤ max initialSlotCount maxSlots := by
  unfold splitContextsIntoBudgetedSlots at h
  dsimp only at h
  have hbounds := growSlots_bounds
    (fun count => (distribute channels count).all (blobBytes clientId · ≤ maxBytes))
    initialSlotCount (maxSlots - initialSlotCount)
  generalize growSlots _ initialSlotCount (maxSlots - initialSlotCount) = count at h hbounds
  split at h
  · cases h
  · next hfits =>
      rw [Bool.not_eq_true', Bool.not_eq_false, List.all_eq_true] at hfits
      have hlength : (distribute channels count).length = count := by
        rw [distribute, List.length_map, List.length_range]
      have hholds := fun key value (hv : channels.lookup key = some value) =>
        exists_mem_distribute count (by omega) hv
      have hsub := fun slot (hslot : slot ∈ distribute channels count) key value
        (hv : slot.lookup key = some value) => lookup_distribute hslot hv
      generalize distribute channels count = dealt at h hfits hlength hholds hsub
      cases dealt with
      | nil =>
          rw [List.length_nil] at hlength
          omega
      | cons primary rest =>
          have hslotted := primary_spec
            (fun k v hv => hchannels k v (hsub primary List.mem_cons_self k v hv)) hthreads
            (of_decide_eq_true (hfits primary List.mem_cons_self))
          dsimp only at h
          generalize (trimContextsToBudget (primary.putAll threadMsgs) clientId maxBytes).contexts =
            trimmed at h hslotted
          cases h
          refine ⟨⟨?_, ?_, ?_⟩, ?_, ?_⟩
          · intro slot hslot
            rcases List.mem_cons.1 hslot with rfl | hslot
            · exact hslotted.fits slot (List.mem_singleton_self _)
            · exact of_decide_eq_true (hfits slot (List.mem_cons_of_mem _ hslot))
          · intro slot hslot k v hv
            rcases List.mem_cons.1 hslot with rfl | hslot
            · exact (hslotted.sub slot (List.mem_singleton_self _) k v hv).imp_left
                (hsub primary List.mem_cons_self k v)
            · exact .inl (hsub slot (List.mem_cons_of_mem _ hslot) k v hv)
          · intro k v hv
            obtain ⟨slot, hslot, hv'⟩ := hholds k v hv
            rcases List.mem_cons.1 hslot with rfl | hslot
            · obtain ⟨slot', hslot', hv''⟩ := hslotted.holds k v hv'
              exact ⟨slot', List.mem_cons.2 (.inl (List.mem_singleton.1 hslot')), hv''⟩
            · exact ⟨slot, List.mem_cons_of_mem _ hslot, hv'⟩
          · rw [List.length_cons] at hlength ⊢
            omega
          · rw [List.length_cons] at hlength ⊢
            omega

end Buzz.Desktop
