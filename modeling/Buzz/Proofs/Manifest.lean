import Buzz.Git.Manifest
import Buzz.Proofs.AuditEncoding

/-!
# Manifests and their bytes

Two manifests with the same canonical bytes are the same, up to how their packs
are listed, and what is sorted and without repetition has the same packs as
before.
-/

namespace Buzz.Git

/-! ## Packs -/

theorem mem_dedup {α : Type} [DecidableEq α] {a : α} {l : List α} : a ∈ dedup l ↔ a ∈ l := by
  induction l with
  | nil => exact Iff.rfl
  | cons b l ih =>
      rw [dedup]
      split
      · next hhead =>
          rw [ih, List.mem_cons]
          constructor
          · exact .inr
          · rintro (rfl | h)
            · exact List.mem_of_head? hhead
            · exact h
      · rw [List.mem_cons, List.mem_cons, ih]

theorem mem_sortPacks {key : Digest} {packs : List Digest} :
    key ∈ sortPacks packs ↔ key ∈ packs := by
  rw [sortPacks, mem_dedup, List.mem_insertionSort]

theorem mem_composeAfter {parent : Manifest} {parentDigest : Option Digest} {head : RefName}
    {refs : RefMap} {newPackKey : Option Digest} {key : Digest} :
    key ∈ (composeAfter parent parentDigest head refs newPackKey).packs ↔
      key ∈ parent.packs ∨ newPackKey = some key := by
  unfold composeAfter
  rw [mem_sortPacks]
  cases newPackKey with
  | none => simp
  | some k =>
      dsimp only
      rw [Option.some.injEq]
      split
      · next hmem =>
          constructor
          · exact .inl
          · rintro (h | rfl)
            · exact h
            · exact hmem
      · rw [List.mem_append, List.mem_singleton, eq_comm]

/-! ## Bytes -/

theorem RefMap.ext {m m' : RefMap} (h : m.entries = m'.entries) : m = m' := by
  cases m
  cases m'
  cases h
  rfl

theorem packKeyText_injective : Function.Injective packKeyText := by
  intro a b h
  exact Bytes32.ext (hexEncode_injective (List.append_cancel_left h))

theorem jsonNat_inj {m n : Nat} (h : jsonNat m = jsonNat n) : m = n := by
  have hdigits : Nat.toDigits 10 m = Nat.toDigits 10 n := by
    injection h with h
    injection h
  rw [← @Nat.ofDigitChars_ten_toDigits m, hdigits, Nat.ofDigitChars_ten_toDigits]

theorem refsJson_inj {l l' : List (RefName × Oid)}
    (h : l.map (fun e => (e.1, Json.string e.2)) = l'.map fun e => (e.1, Json.string e.2)) :
    l = l' := by
  refine List.map_injective_iff.2 (fun a b hab => ?_) h
  simp only [Prod.mk.injEq, Json.string.injEq] at hab
  exact Prod.ext hab.1 hab.2

theorem packsJson_inj {l l' : List Digest}
    (h : l.map (fun key => Json.string (packKeyText key)) =
      l'.map fun key => Json.string (packKeyText key)) : l = l' := by
  refine List.map_injective_iff.2 (fun a b hab => ?_) h
  exact packKeyText_injective (Json.string.inj hab)

theorem parentJson_inj {p p' : Option Digest}
    (h : (p.map fun d => Json.string (hexEncode d.bytes)).getD .null =
      (p'.map fun d => Json.string (hexEncode d.bytes)).getD .null) : p = p' := by
  cases p with
  | none =>
      cases p' with
      | none => rfl
      | some d' => cases h
  | some d =>
      cases p' with
      | none => cases h
      | some d' =>
          have hhex := Json.string.inj h
          exact congrArg some (Bytes32.ext (hexEncode_injective hhex))

theorem toJson_injective : Function.Injective Manifest.toJson := by
  intro m m' h
  unfold Manifest.toJson at h
  injection h with h
  simp only [List.cons.injEq, Prod.mk.injEq, true_and, and_true] at h
  obtain ⟨hversion, hhead, hrefs, hpacks, hparent⟩ := h
  have hrefs := RefMap.ext (refsJson_inj (Json.object.inj hrefs))
  have hpacks := packsJson_inj (Json.array.inj hpacks)
  cases m
  cases m'
  simp only [Manifest.mk.injEq]
  exact ⟨jsonNat_inj hversion, Json.string.inj hhead, hrefs, hpacks, parentJson_inj hparent⟩

theorem canonical_eq_of_bytes {m m' : Manifest} (h : m.canonicalBytes = m'.canonicalBytes) :
    m.canonical = m'.canonical :=
  toJson_injective (Json.render_injective (Audit.utf8_injective h))

/-- SHA-256 does not collide on these. -/
def CollisionFree (messages : List (List UInt8)) : Prop :=
  ∀ a ∈ messages, ∀ b ∈ messages, contentKey a = contentKey b → a = b

theorem CollisionFree.subset {messages messages' : List (List UInt8)}
    (h : CollisionFree messages') (hsub : messages ⊆ messages') : CollisionFree messages :=
  fun a ha b hb heq => h a (hsub ha) b (hsub hb) heq

theorem CollisionFree.canonical_eq {manifests : List Manifest}
    (h : CollisionFree (manifests.map Manifest.canonicalBytes)) {m m' : Manifest}
    (hm : m ∈ manifests) (hm' : m' ∈ manifests) (hdigest : m.digest = m'.digest) :
    m.canonical = m'.canonical :=
  canonical_eq_of_bytes
    (h _ (List.mem_map_of_mem hm) _ (List.mem_map_of_mem hm') hdigest)

end Buzz.Git
