import Buzz.Proofs.AuditEncoding
import Buzz.Relay.ThreadWindow

/-!
# A binding names its request

What a filter is read as can be said without the parser (`Reads`): each field of the request
from its field of the filter, in the normal form. The array that is hashed holds every
field of the request in a place of its own, and its text is one-to-one, so that two requests
with the same bytes are the same request of the same reader at the same host.
-/

namespace Buzz.Relay.ThreadWindow

variable {codec : Codec} {raw raw' : Json} {r r' : Request} {host host' reader reader' : List Char}
  {kinds : List Nat} {v : Json} {given : List Json}

/-! ## The bytes -/

theorem jsonInt_injective {n n' : Int} (h : jsonInt n = jsonInt n') : n = n' :=
  intText_injective (congrArg JsonNumber.text (Json.number.inj h))

theorem jsonNat_injective {n n' : Nat} (h : jsonInt n = jsonInt n') : n = n' :=
  Int.ofNat_inj.1 (jsonInt_injective h)

theorem kinds_injective {kinds' : List Nat}
    (h : kinds.map (fun k : Nat => jsonInt k) = kinds'.map fun k : Nat => jsonInt k) :
    kinds = kinds' :=
  List.map_injective_iff.2 (fun _ _ => jsonNat_injective) h

theorem cursor_injective {cursor cursor' : Option Cursor}
    (h : (cursor.map fun c => Json.array [jsonInt c.createdAt, .string c.id]).getD .null =
      (cursor'.map fun c => Json.array [jsonInt c.createdAt, .string c.id]).getD .null) :
    cursor = cursor' := by
  cases cursor with
  | none =>
      cases cursor' with
      | none => rfl
      | some c' => cases h
  | some c =>
      cases cursor' with
      | none => cases h
      | some c' =>
          obtain ⟨htime, hrest⟩ := List.cons.inj (Json.array.inj h)
          obtain ⟨hid, -⟩ := List.cons.inj hrest
          obtain ⟨createdAt, id⟩ := c
          obtain ⟨createdAt', id'⟩ := c'
          rw [Option.some.injEq, Cursor.mk.injEq]
          exact ⟨jsonInt_injective htime, Json.string.inj hid⟩

theorem canonical_injective (h : r.canonical host reader = r'.canonical host' reader') :
    host = host' ∧ reader = reader' ∧ r = r' := by
  unfold Request.canonical at h
  obtain ⟨-, h⟩ := List.cons.inj (Json.array.inj h)
  obtain ⟨-, h⟩ := List.cons.inj h
  obtain ⟨-, h⟩ := List.cons.inj h
  obtain ⟨hhost, h⟩ := List.cons.inj h
  obtain ⟨hreader, h⟩ := List.cons.inj h
  obtain ⟨hchannel, h⟩ := List.cons.inj h
  obtain ⟨hroot, h⟩ := List.cons.inj h
  obtain ⟨hlimit, h⟩ := List.cons.inj h
  obtain ⟨hdepth, h⟩ := List.cons.inj h
  obtain ⟨hkinds, h⟩ := List.cons.inj h
  obtain ⟨hcursor, h⟩ := List.cons.inj h
  obtain ⟨haux, -⟩ := List.cons.inj h
  refine ⟨Json.string.inj hhost, Json.string.inj hreader, ?_⟩
  obtain ⟨channel, root, limit, depth, kinds, cursor, includeAux⟩ := r
  obtain ⟨channel', root', limit', depth', kinds', cursor', includeAux'⟩ := r'
  rw [Request.mk.injEq]
  exact ⟨Uuid.toText_injective (String.toList_inj.1 (Json.string.inj hchannel)),
    Json.string.inj hroot, jsonNat_injective hlimit, jsonNat_injective hdepth,
    kinds_injective (Json.array.inj hkinds), cursor_injective hcursor, Json.bool.inj haux⟩

theorem preimage_eq_iff : r.preimage host reader = r'.preimage host' reader' ↔
    host = host' ∧ reader = reader' ∧ r = r' := by
  constructor
  · exact fun h => canonical_injective (Json.render_injective (Audit.utf8_injective h))
  · rintro ⟨rfl, rfl, rfl⟩
    rfl

/-! ## What a filter is read as -/

/-- An id of 64 hex digits, in lower case. -/
def IsEventId (text id : List Char) : Prop :=
  (text.length = 64 ∧ text.all Db.isAsciiHexdigit = true) ∧ id = text.map Char.toLower

/-- A number within its bounds, or the default. -/
def IsBounded (raw : Json) (key : String) (default max n : Nat) : Prop :=
  (get raw key = none ∧ n = default) ∨
    ∃ v, get raw key = some v ∧ asU64 v = some n ∧ 1 ≤ n ∧ n ≤ max

/-- The kinds that are given, sorted and each of them once. -/
structure IsKinds (raw : Json) (kinds : List Nat) : Prop where
  sorted : kinds.Pairwise (· < ·)
  given : ∃ given, get raw "kinds" = some (.array given) ∧ given ≠ [] ∧
    given.length ≤ rowKinds.length ∧ (∀ v ∈ given, ∃ k ∈ rowKinds, asU64 v = some k) ∧
    ∀ k, k ∈ kinds ↔ ∃ v ∈ given, asU64 v = some k

def IsCursor (raw : Json) : Option Cursor → Prop
  | none => get raw "until" = none ∧ get raw "before_id" = none
  | some c => (∃ ts, get raw "until" = some ts ∧ asI64 ts = some c.createdAt) ∧
      (0 ≤ c.createdAt ∧ (fromTimestamp c.createdAt).isSome) ∧
      ∃ text, get raw "before_id" = some (.string text) ∧ IsEventId text c.id

def IsAux (raw : Json) (includeAux : Bool) : Prop :=
  (get raw "include_aux" = none ∧ includeAux = false) ∨
    get raw "include_aux" = some (.bool includeAux)

/-- A filter and the request it makes. -/
structure Reads (codec : Codec) (raw : Json) (r : Request) : Prop where
  keys : ∃ keys, objectKeys raw = some keys ∧ ∀ key ∈ keys, key ∈ fields.map String.toList
  opted : get raw "thread_window" = some (.bool true)
  channel : ∃ text, get raw "#h" = some (.array [.string text]) ∧
    codec.parseUuid (String.ofList text) = some r.channel
  root : ∃ text, get raw "#e" = some (.array [.string text]) ∧ IsEventId text r.root
  limit : IsBounded raw "limit" 50 maxLimit r.limit
  depth : IsBounded raw "depth_limit" 100 100 r.depth
  kinds : IsKinds raw r.kinds
  cursor : IsCursor raw r.cursor
  includeAux : IsAux raw r.includeAux

theorem okOr_eq_ok {α : Type} {message : String} {x : Option α} {a : α} :
    okOr message x = .ok a ↔ x = some a := by
  cases x with
  | none => exact ⟨nofun, nofun⟩
  | some b =>
      show Except.ok b = Except.ok a ↔ some b = some a
      rw [Except.ok.injEq, Option.some.injEq]

theorem bind_eq_ok_iff {α β : Type} {x : Except String α} {f : α → Except String β} {b : β} :
    (x >>= f) = .ok b ↔ ∃ a, x = .ok a ∧ f a = .ok b := by
  cases x with
  | error e => exact ⟨nofun, fun ⟨_, h, _⟩ => nomatch h⟩
  | ok a =>
      constructor
      · exact fun h => ⟨a, rfl, h⟩
      · rintro ⟨a', ha, h⟩
        cases ha
        exact h

theorem asStr_eq_some {s : List Char} : asStr v = some s ↔ v = .string s := by
  cases v <;> simp [asStr]

theorem asArray_eq_some {items : List Json} :
    asArray v = some items ↔ v = .array items := by
  cases v <;> simp [asArray]

theorem asBool_eq_some {b : Bool} : asBool v = some b ↔ v = .bool b := by
  cases v <;> simp [asBool]

theorem eventId_eq_ok {id : List Char} :
    eventId v = .ok id ↔ ∃ text, v = .string text ∧ IsEventId text id := by
  unfold eventId IsEventId
  rw [okOr_eq_ok, Option.map_eq_some_iff]
  refine exists_congr fun text => ?_
  rw [Option.filter_eq_some_iff, asStr_eq_some, Bool.and_eq_true, decide_eq_true_eq, and_assoc,
    eq_comm (a := id)]

theorem singleton_eq_ok {key : String} :
    singleton raw key = .ok v ↔ get raw key = some (.array [v]) := by
  unfold singleton
  rw [okOr_eq_ok, Option.bind_eq_some_iff]
  constructor
  · rintro ⟨items, hitems, hhead⟩
    rw [Option.filter_eq_some_iff, Option.bind_eq_some_iff, decide_eq_true_eq] at hitems
    obtain ⟨⟨given, hget, hgiven⟩, hlength⟩ := hitems
    obtain ⟨v', rfl⟩ := List.length_eq_one_iff.1 hlength
    cases hhead
    rw [hget, asArray_eq_some.1 hgiven]
  · intro hget
    refine ⟨[v], ?_, rfl⟩
    rw [hget]
    rfl

theorem parseChannel_eq_ok {channel : Uuid} : parseChannel codec raw = .ok channel ↔
    ∃ text, get raw "#h" = some (.array [.string text]) ∧
      codec.parseUuid (String.ofList text) = some channel := by
  unfold parseChannel
  rw [bind_eq_ok_iff]
  constructor
  · rintro ⟨v, hv, h⟩
    rw [okOr_eq_ok, Option.bind_eq_some_iff] at h
    obtain ⟨text, htext, huuid⟩ := h
    rw [singleton_eq_ok, asStr_eq_some.1 htext] at hv
    exact ⟨text, hv, huuid⟩
  · rintro ⟨text, hget, huuid⟩
    refine ⟨.string text, singleton_eq_ok.2 hget, okOr_eq_ok.2 ?_⟩
    exact huuid

theorem parseRoot_eq_ok {root : List Char} : parseRoot raw = .ok root ↔
    ∃ text, get raw "#e" = some (.array [.string text]) ∧ IsEventId text root := by
  unfold parseRoot
  rw [bind_eq_ok_iff]
  constructor
  · rintro ⟨v, hv, h⟩
    obtain ⟨text, rfl, hid⟩ := eventId_eq_ok.1 h
    exact ⟨text, singleton_eq_ok.1 hv, hid⟩
  · rintro ⟨text, hget, hid⟩
    exact ⟨.string text, singleton_eq_ok.2 hget, eventId_eq_ok.2 ⟨text, rfl, hid⟩⟩

theorem bounded_eq_ok {key : String} {default max n : Nat} :
    bounded raw key default max = .ok n ↔ IsBounded raw key default max n := by
  unfold bounded IsBounded
  cases hget : get raw key with
  | none =>
      constructor
      · intro h
        exact .inl ⟨rfl, (Except.ok.inj h).symm⟩
      · rintro (⟨-, rfl⟩ | ⟨v, hv, -⟩)
        · rfl
        · cases hv
  | some v =>
      rw [okOr_eq_ok, Option.filter_eq_some_iff, Bool.and_eq_true, decide_eq_true_eq,
        decide_eq_true_eq]
      constructor
      · exact fun h => .inr ⟨v, rfl, h.1, h.2⟩
      · rintro (⟨hnone, -⟩ | ⟨v', hv, h⟩)
        · cases hnone
        · cases hv
          exact h

theorem parseKind_eq_ok {k : Nat} :
    parseKind v = .ok k ↔ asU64 v = some k ∧ k ∈ rowKinds := by
  have hsmall : ∀ k ∈ rowKinds, k < 2 ^ 32 := by decide
  unfold parseKind
  rw [okOr_eq_ok, Option.filter_eq_some_iff, Bool.and_eq_true, decide_eq_true_eq,
    List.contains_iff_mem]
  exact and_congr_right fun _ => ⟨fun h => h.2, fun h => ⟨hsmall k h, h⟩⟩

/-- Every kind that is given is read, in its place. -/
theorem mapM_parseKind_eq_ok :
    given.mapM parseKind = .ok kinds ↔
      List.Forall₂ (fun v k => parseKind v = .ok k) given kinds := by
  induction given generalizing kinds with
  | nil =>
      constructor
      · intro h
        cases h
        exact .nil
      · intro h
        cases h
        rfl
  | cons v given ih =>
      rw [List.mapM_cons, bind_eq_ok_iff]
      constructor
      · rintro ⟨k, hk, h⟩
        obtain ⟨ks, hks, h⟩ := bind_eq_ok_iff.1 h
        cases h
        exact .cons hk (ih.1 hks)
      · intro h
        cases h with
        | cons hk hks => exact ⟨_, hk, bind_eq_ok_iff.2 ⟨_, ih.2 hks, rfl⟩⟩

theorem mem_sortKinds {k : Nat} : k ∈ sortKinds kinds ↔ k ∈ kinds := by
  rw [sortKinds, List.mem_dedup, List.mem_insertionSort]

theorem sortKinds_sorted (kinds : List Nat) : (sortKinds kinds).Pairwise (· < ·) := by
  have hle : (sortKinds kinds).Pairwise (· ≤ ·) :=
    (List.pairwise_insertionSort (· ≤ ·) kinds).sublist (List.dedup_sublist _)
  exact hle.imp₂ (fun _ _ hle hne => Nat.lt_of_le_of_ne hle hne) (List.nodup_dedup _)

/-- The kinds that were read are those of the filter. -/
theorem mem_of_forall₂
    (h : List.Forall₂ (fun v k => parseKind v = .ok k) given kinds) :
    (∀ v ∈ given, ∃ k ∈ rowKinds, asU64 v = some k) ∧
      ∀ k, k ∈ kinds ↔ ∃ v ∈ given, asU64 v = some k := by
  induction h with
  | nil => exact ⟨nofun, fun k => ⟨nofun, fun ⟨_, hv, _⟩ => nomatch hv⟩⟩
  | @cons v k given kinds hk hrest ih =>
      obtain ⟨hvalue, hrow⟩ := parseKind_eq_ok.1 hk
      refine ⟨List.forall_mem_cons.2 ⟨⟨k, hrow, hvalue⟩, ih.1⟩, fun k' => ?_⟩
      rw [List.mem_cons, ih.2 k', List.exists_mem_cons_iff, hvalue, Option.some.injEq,
        eq_comm (a := k')]

theorem exists_forall₂ (h : ∀ v ∈ given, ∃ k ∈ rowKinds, asU64 v = some k) :
    ∃ kinds, List.Forall₂ (fun v k => parseKind v = .ok k) given kinds := by
  induction given with
  | nil => exact ⟨[], .nil⟩
  | cons v given ih =>
      rw [List.forall_mem_cons] at h
      obtain ⟨⟨k, hrow, hvalue⟩, hrest⟩ := h
      obtain ⟨kinds, hkinds⟩ := ih hrest
      exact ⟨k :: kinds, .cons (parseKind_eq_ok.2 ⟨hvalue, hrow⟩) hkinds⟩

theorem rawKinds_eq_ok : rawKinds raw = .ok given ↔
    get raw "kinds" = some (.array given) ∧ given ≠ [] ∧ given.length ≤ rowKinds.length := by
  unfold rawKinds
  rw [okOr_eq_ok, Option.filter_eq_some_iff, Option.bind_eq_some_iff, Bool.and_eq_true,
    Bool.not_eq_true', List.isEmpty_eq_false_iff, decide_eq_true_eq]
  refine and_congr_left fun _ => ?_
  constructor
  · rintro ⟨v, hget, hv⟩
    rw [hget, asArray_eq_some.1 hv]
  · exact fun hget => ⟨.array given, hget, rfl⟩

theorem parseKinds_eq_ok : parseKinds raw = .ok kinds ↔ IsKinds raw kinds := by
  unfold parseKinds
  rw [bind_eq_ok_iff]
  constructor
  · rintro ⟨given, hgiven, h⟩
    obtain ⟨ks, hks, h⟩ := bind_eq_ok_iff.1 h
    cases h
    obtain ⟨hget, hne, hlength⟩ := rawKinds_eq_ok.1 hgiven
    obtain ⟨hrow, hmem⟩ := mem_of_forall₂ (mapM_parseKind_eq_ok.1 hks)
    exact ⟨sortKinds_sorted ks, given, hget, hne, hlength, hrow,
      fun k => mem_sortKinds.trans (hmem k)⟩
  · rintro ⟨hsorted, given, hget, hne, hlength, hrow, hmem⟩
    obtain ⟨ks, hks⟩ := exists_forall₂ hrow
    refine ⟨given, rawKinds_eq_ok.2 ⟨hget, hne, hlength⟩,
      bind_eq_ok_iff.2 ⟨ks, mapM_parseKind_eq_ok.2 hks, congrArg Except.ok ?_⟩⟩
    exact (sortKinds_sorted ks).eq_of_mem_iff hsorted fun k =>
      mem_sortKinds.trans (((mem_of_forall₂ hks).2 k).trans (hmem k).symm)

theorem timestamp_eq_ok {c : Cursor} :
    (∃ time, c.timestamp = .ok time) ↔ 0 ≤ c.createdAt ∧ (fromTimestamp c.createdAt).isSome := by
  unfold Cursor.timestamp
  cases fromTimestamp c.createdAt with
  | none =>
      constructor
      · rintro ⟨time, h⟩
        cases h
      · rintro ⟨-, h⟩
        cases h
  | some time =>
      rw [Option.filter_some]
      by_cases hpos : 0 ≤ c.createdAt
      · rw [if_pos (decide_eq_true hpos)]
        exact ⟨fun _ => ⟨hpos, rfl⟩, fun _ => ⟨time, rfl⟩⟩
      · rw [if_neg (by rwa [decide_eq_true_eq])]
        constructor
        · rintro ⟨time, h⟩
          cases h
        · exact fun h => absurd h.1 hpos

theorem parseCursor_eq_ok {cursor : Option Cursor} :
    parseCursor raw = .ok cursor ↔ IsCursor raw cursor := by
  unfold parseCursor
  cases huntil : get raw "until" with
  | none =>
      cases hbefore : get raw "before_id" with
      | none =>
          cases cursor with
          | none => exact ⟨fun _ => ⟨huntil, hbefore⟩, fun _ => rfl⟩
          | some c =>
              refine ⟨nofun, fun h => ?_⟩
              obtain ⟨ts, hts, -⟩ := h.1
              rw [huntil] at hts
              cases hts
      | some id =>
          refine ⟨nofun, fun h => ?_⟩
          cases cursor with
          | none =>
              rw [h.2] at hbefore
              cases hbefore
          | some c =>
              obtain ⟨ts, hts, -⟩ := h.1
              rw [huntil] at hts
              cases hts
  | some ts =>
      cases hbefore : get raw "before_id" with
      | none =>
          refine ⟨nofun, fun h => ?_⟩
          cases cursor with
          | none =>
              rw [h.1] at huntil
              cases huntil
          | some c =>
              obtain ⟨text, htext, -⟩ := h.2.2
              rw [hbefore] at htext
              cases htext
      | some id =>
          rw [bind_eq_ok_iff]
          constructor
          · rintro ⟨createdAt, hcreated, h⟩
            obtain ⟨id', hid, h⟩ := bind_eq_ok_iff.1 h
            obtain ⟨time, htime, h⟩ := bind_eq_ok_iff.1 h
            cases h
            rw [okOr_eq_ok, Option.filter_eq_some_iff] at hcreated
            obtain ⟨text, rfl, htext⟩ := eventId_eq_ok.1 hid
            exact ⟨⟨ts, huntil, hcreated.1⟩, timestamp_eq_ok.1 ⟨time, htime⟩, text, hbefore, htext⟩
          · intro h
            cases cursor with
            | none =>
                rw [h.1] at huntil
                cases huntil
            | some c =>
                obtain ⟨⟨ts', hts, hcreated⟩, htime, text, htext, hid⟩ := h
                rw [huntil] at hts
                cases hts
                rw [hbefore] at htext
                cases htext
                obtain ⟨time, htime'⟩ := timestamp_eq_ok.2 htime
                refine ⟨c.createdAt, ?_, bind_eq_ok_iff.2 ⟨c.id, ?_, bind_eq_ok_iff.2
                  ⟨time, htime', rfl⟩⟩⟩
                · rw [okOr_eq_ok, Option.filter_eq_some_iff]
                  exact ⟨hcreated, decide_eq_true htime.1⟩
                · exact eventId_eq_ok.2 ⟨text, rfl, hid⟩

theorem parseAux_eq_ok {includeAux : Bool} :
    parseAux raw = .ok includeAux ↔ IsAux raw includeAux := by
  unfold parseAux IsAux
  cases get raw "include_aux" with
  | none =>
      constructor
      · exact fun h => .inl ⟨rfl, (Except.ok.inj h).symm⟩
      · rintro (⟨-, rfl⟩ | h)
        · rfl
        · cases h
  | some v =>
      rw [okOr_eq_ok, asBool_eq_some, Option.some.injEq]
      exact ⟨.inr, fun h => h.resolve_left fun hnone => nomatch hnone.1⟩

theorem isTrue_iff {x : Option Json} : isTrue x = true ↔ x = some (.bool true) := by
  constructor
  · intro h
    unfold isTrue at h
    split at h
    · rfl
    · cases h
  · rintro rfl
    rfl

/-- The parser accepts what reads as a request, and gives that request. -/
theorem parse_eq_ok_iff : Request.parse codec raw = .ok r ↔ Reads codec raw r := by
  unfold Request.parse
  rw [bind_eq_ok_iff]
  constructor
  · rintro ⟨keys, hkeys, h⟩
    split at h
    · cases h
    · next hknown =>
        split at h
        · cases h
        · next hopted =>
            obtain ⟨channel, hchannel, h⟩ := bind_eq_ok_iff.1 h
            obtain ⟨root, hroot, h⟩ := bind_eq_ok_iff.1 h
            obtain ⟨limit, hlimit, h⟩ := bind_eq_ok_iff.1 h
            obtain ⟨depth, hdepth, h⟩ := bind_eq_ok_iff.1 h
            obtain ⟨kinds, hkinds, h⟩ := bind_eq_ok_iff.1 h
            obtain ⟨cursor, hcursor, h⟩ := bind_eq_ok_iff.1 h
            obtain ⟨includeAux, haux, h⟩ := bind_eq_ok_iff.1 h
            cases h
            refine ⟨⟨keys, okOr_eq_ok.1 hkeys, fun key hkey => ?_⟩, ?_,
              parseChannel_eq_ok.1 hchannel, parseRoot_eq_ok.1 hroot, bounded_eq_ok.1 hlimit,
              bounded_eq_ok.1 hdepth, parseKinds_eq_ok.1 hkinds, parseCursor_eq_ok.1 hcursor,
              parseAux_eq_ok.1 haux⟩
            · by_contra hunknown
              refine hknown (List.any_eq_true.2 ⟨key, hkey, ?_⟩)
              rw [Bool.not_eq_true', ← Bool.not_eq_true, List.contains_iff_mem]
              exact hunknown
            · rw [Bool.not_eq_true', Bool.not_eq_false] at hopted
              exact isTrue_iff.1 hopted
  · rintro ⟨⟨keys, hkeys, hknown⟩, hopted, hchannel, hroot, hlimit, hdepth, hkinds, hcursor, haux⟩
    refine ⟨keys, okOr_eq_ok.2 hkeys, ?_⟩
    rw [if_neg, if_neg]
    · refine bind_eq_ok_iff.2 ⟨r.channel, parseChannel_eq_ok.2 hchannel, ?_⟩
      refine bind_eq_ok_iff.2 ⟨r.root, parseRoot_eq_ok.2 hroot, ?_⟩
      refine bind_eq_ok_iff.2 ⟨r.limit, bounded_eq_ok.2 hlimit, ?_⟩
      refine bind_eq_ok_iff.2 ⟨r.depth, bounded_eq_ok.2 hdepth, ?_⟩
      refine bind_eq_ok_iff.2 ⟨r.kinds, parseKinds_eq_ok.2 hkinds, ?_⟩
      refine bind_eq_ok_iff.2 ⟨r.cursor, parseCursor_eq_ok.2 hcursor, ?_⟩
      exact bind_eq_ok_iff.2 ⟨r.includeAux, parseAux_eq_ok.2 haux, rfl⟩
    · rw [isTrue_iff.2 hopted]
      decide
    · rw [List.any_eq_true]
      rintro ⟨key, hkey, hunknown⟩
      rw [Bool.not_eq_true', ← Bool.not_eq_true, List.contains_iff_mem] at hunknown
      exact hunknown (hknown key hkey)

/-! ## Binding -/

/-- The two messages do not collide. -/
def NoCollision (p p' : List UInt8) : Prop :=
  Lib.Sha256.digest p = Lib.Sha256.digest p' → p = p'

theorem binding_eq_iff (h : NoCollision (r.preimage host reader) (r'.preimage host' reader')) :
    r.binding host reader = r'.binding host' reader' ↔
      r.preimage host reader = r'.preimage host' reader' := by
  constructor
  · exact fun heq => h (hexEncode_injective (List.append_cancel_left heq))
  · intro heq
    unfold Request.binding
    rw [heq]

/-- The bytes that are hashed, and then the binding, are the same for two accepted filters
if and only if they are read as one request, for one reader at one host; and every filter
that reads as the request is accepted as it. -/
theorem binding_identifies_request (h : Request.parse codec raw = .ok r)
    (h' : Request.parse codec raw' = .ok r') (host host' reader reader' : List Char) :
    (r.preimage host reader = r'.preimage host' reader' ↔
      host = host' ∧ reader = reader' ∧ r = r') ∧
    (NoCollision (r.preimage host reader) (r'.preimage host' reader') →
      (r.binding host reader = r'.binding host' reader' ↔
        host = host' ∧ reader = reader' ∧ r = r')) ∧
    (Reads codec raw r ∧ Reads codec raw' r') ∧
    ∀ spelling, Reads codec spelling r ↔ Request.parse codec spelling = .ok r := by
  refine ⟨preimage_eq_iff, fun hno => ?_, ⟨parse_eq_ok_iff.1 h, parse_eq_ok_iff.1 h'⟩,
    fun _ => parse_eq_ok_iff.symm⟩
  rw [binding_eq_iff hno, preimage_eq_iff]

def sampleCodec : Codec where
  parseUuid text := if text = (Uuid.ofByte 0).toText then some (Uuid.ofByte 0) else none
  jsonLen _ := 0

/-- A filter with the fields that must be there, and what else is given. -/
def sampleFilter (more : List (List Char × Json)) : Json :=
  .object ([("thread_window".toList, .bool true),
    ("#h".toList, .array [.string (Uuid.ofByte 0).toText.toList]),
    ("#e".toList, .array [.string (List.replicate 64 'A')]),
    ("kinds".toList, .array [jsonInt 9, jsonInt 9])] ++ more)

def sampleRequest (limit : Nat) : Request where
  channel := Uuid.ofByte 0
  root := List.replicate 64 'a'
  limit := limit
  depth := 100
  kinds := [9]
  cursor := none
  includeAux := false

/-- The default limit and another one. -/
theorem binding_identifies_request_limit :
    Request.parse sampleCodec (sampleFilter []) = .ok (sampleRequest 50) ∧
      Request.parse sampleCodec (sampleFilter [("limit".toList, jsonInt 49)]) =
        .ok (sampleRequest 49) ∧
      (sampleRequest 50).preimage ['h'] ['r'] ≠ (sampleRequest 49).preimage ['h'] ['r'] := by
  have hdefault : Request.parse sampleCodec (sampleFilter []) = .ok (sampleRequest 50) := by
    rfl
  have hgiven : Request.parse sampleCodec (sampleFilter [("limit".toList, jsonInt 49)]) =
      .ok (sampleRequest 49) := by
    rfl
  refine ⟨hdefault, hgiven, fun heq => ?_⟩
  have hsame := ((binding_identifies_request hdefault hgiven _ _ _ _).1.1 heq).2.2
  exact absurd (congrArg Request.limit hsame) (by decide)

end Buzz.Relay.ThreadWindow
