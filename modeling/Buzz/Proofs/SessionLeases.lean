import Buzz.Relay.SessionDirectory

/-!
# Leases are fenced

A session's counter is the number of generations counted for it, so they are
numbered from one on without a gap. The lease key, as long as it is live, holds
the newest of them: a new one is only counted when no lease is there. From that
a frame passes exactly for the stored lease, and every older generation is
behind the counter for good.

The number a script writes is Lua's `%.14g`, which is the decimal one below
`10 ^ 14`; every result here is about runs that stay below.
-/

namespace Buzz.Relay

open Buzz.Lib SessionKeys

/-! ## Keys -/

def keyParts (c : CommunityId) (sid : Uuid) (last : String) : List (List Char) :=
  ["buzz".toList, c.uuid.toText.toList, "tunnel".toList, sid.toText.toList, last.toList]

theorem splitOn_key (c : CommunityId) (sid : Uuid) {last : String} (hlast : ':' ∉ last.toList) :
    ([':'].intercalate (keyParts c sid last)).splitOn ':' = keyParts c sid last := by
  have huuid : ∀ u : Uuid, ':' ∉ u.toText.toList :=
    Uuid.not_mem_toText (by decide) (by decide)
  refine List.splitOn_intercalate ':' (fun l hl => ?_) (by simp [keyParts])
  simp only [keyParts, List.mem_cons, List.not_mem_nil, or_false] at hl
  rcases hl with rfl | rfl | rfl | rfl | rfl
  · decide
  · exact huuid _
  · decide
  · exact huuid _
  · exact hlast

theorem toList_lease (c : CommunityId) (sid : Uuid) :
    (new c sid).lease.toList = [':'].intercalate (keyParts c sid "lease") := by
  simp [new, keyParts, List.intercalate]

theorem toList_generation (c : CommunityId) (sid : Uuid) :
    (new c sid).generation.toList =
      [':'].intercalate (keyParts c sid "generation") := by
  simp [new, keyParts, List.intercalate]

theorem splitOn_lease (c : CommunityId) (sid : Uuid) :
    (new c sid).lease.toList.splitOn ':' = keyParts c sid "lease" := by
  rw [toList_lease, splitOn_key c sid (by decide)]

theorem splitOn_generation (c : CommunityId) (sid : Uuid) :
    (new c sid).generation.toList.splitOn ':' = keyParts c sid "generation" := by
  rw [toList_generation, splitOn_key c sid (by decide)]

variable {c' : CommunityId} {sid' : Uuid}

theorem keyParts_inj {c : CommunityId} {sid : Uuid} {last last' : String}
    (h : keyParts c sid last = keyParts c' sid' last') :
    c = c' ∧ sid = sid' ∧ last = last' := by
  simp only [keyParts, List.cons.injEq, String.toList_inj, and_true, true_and] at h
  obtain ⟨hc, hsid, hlast⟩ := h
  refine ⟨?_, Uuid.toText_injective hsid, hlast⟩
  obtain ⟨u⟩ := c
  obtain ⟨u'⟩ := c'
  exact congrArg CommunityId.mk (Uuid.toText_injective hc)

theorem lease_inj {c : CommunityId} {sid : Uuid}
    (h : (new c sid).lease = (new c' sid').lease) :
    c = c' ∧ sid = sid' := by
  have hparts : keyParts c sid "lease" = keyParts c' sid' "lease" := by
    rw [← splitOn_lease, ← splitOn_lease, h]
  exact ⟨(keyParts_inj hparts).1, (keyParts_inj hparts).2.1⟩

theorem generation_inj {c : CommunityId} {sid : Uuid}
    (h : (new c sid).generation = (new c' sid').generation) :
    c = c' ∧ sid = sid' := by
  have hparts : keyParts c sid "generation" = keyParts c' sid' "generation" := by
    rw [← splitOn_generation, ← splitOn_generation, h]
  exact ⟨(keyParts_inj hparts).1, (keyParts_inj hparts).2.1⟩

theorem lease_ne_generation (c c' : CommunityId) (sid sid' : Uuid) :
    (new c sid).lease ≠ (new c' sid').generation := by
  intro h
  have hparts : keyParts c sid "lease" = keyParts c' sid' "generation" := by
    rw [← splitOn_lease, ← splitOn_generation, h]
  exact absurd (keyParts_inj hparts).2.2 (by decide)

/-! ## A lease as text -/

def SessionLease.encode (l : SessionLease) : String :=
  l.ownerRuntimeId.toHex ++ "|" ++ toString l.generation ++ "|" ++ l.profile.asWireStr

theorem toList_toString (n : Nat) : (toString n).toList = Nat.toDigits 10 n := by
  rw [Nat.toString_eq_ofList_toDigits, String.toList_ofList]

theorem luaTostring_of_lt {n : Nat} (h : n < 10 ^ 14) : luaTostring n = toString n := by
  have hneg : ¬(n : Int) < 0 := by omega
  rw [luaTostring, if_neg hneg, Int.natAbs_natCast, formatG14, if_pos h]

theorem splitOn_encode (l : SessionLease) :
    l.encode.toList.splitOn '|' =
      [hexEncode l.ownerRuntimeId.bytes, Nat.toDigits 10 l.generation,
        l.profile.asWireStr.toList] := by
  have hprofile : '|' ∉ l.profile.asWireStr.toList := by
    cases l.profile <;> decide
  have htext : l.encode.toList = ['|'].intercalate
      [hexEncode l.ownerRuntimeId.bytes, Nat.toDigits 10 l.generation,
        l.profile.asWireStr.toList] := by
    simp [SessionLease.encode, Bytes32.toHex, List.intercalate]
  rw [htext]
  refine List.splitOn_intercalate '|' (fun part hpart => ?_) (by simp)
  simp only [List.mem_cons, List.not_mem_nil, or_false] at hpart
  rcases hpart with rfl | rfl | rfl
  · exact not_mem_hexEncode (by decide) _
  · exact not_mem_toDigits (by decide) _
  · exact hprofile

theorem encode_ne_empty (l : SessionLease) : l.encode ≠ "" := by
  intro h
  have hlength := congrArg List.length (splitOn_encode l)
  rw [h, List.length_cons, List.length_cons, List.length_singleton] at hlength
  exact absurd hlength (by decide)

theorem profileFromWire_asWireStr (p : Profile) : profileFromWire p.asWireStr = some p := by
  cases p <;> decide

/-- Rust reads back what Lua wrote. -/
theorem parseLease_encode {l : SessionLease} (hpos : 0 < l.generation)
    (hlt : l.generation < 2 ^ 64) : parseLease l.communityId l.sessionId l.encode = .ok l := by
  have hsize := l.ownerRuntimeId.size
  unfold parseLease
  simp only [splitOn_encode, parseU64_toDigits hlt, String.ofList_toList,
    profileFromWire_asWireStr, hexDecode_hexEncode]
  rw [dif_pos ⟨by omega, trivial, hsize⟩]

theorem hexEncode_ne_nil (b : Bytes32) : hexEncode b.bytes ≠ [] := by
  intro h
  have := hexEncode_length b.bytes
  rw [h, b.size] at this
  cases this

theorem matchLease_encode (l : SessionLease) :
    matchLease l.encode =
      some (l.ownerRuntimeId.toHex, toString l.generation, l.profile.asWireStr) := by
  have hprofile : l.profile.asWireStr.toList ≠ [] := by
    cases l.profile <;> decide
  unfold matchLease
  simp only [splitOn_encode]
  rw [if_pos ⟨hexEncode_ne_nil _, Nat.toDigits_ne_nil, hprofile⟩, String.ofList_toList,
    Nat.toString_eq_ofList_toDigits, Bytes32.toHex]

theorem toString_injective {m n : Nat} (h : toString m = toString n) : m = n := by
  have hdigits : Nat.toDigits 10 m = Nat.toDigits 10 n := by
    rw [← toList_toString, ← toList_toString, h]
  rw [← @Nat.ofDigitChars_ten_toDigits m, hdigits, Nat.ofDigitChars_ten_toDigits]

/-- Lua's test on a lease is the one on its owner and generation. -/
theorem heldBy_encode {l : SessionLease} {owner : RuntimeId} {generation : Nat} :
    heldBy l.encode owner.toHex (toString generation) = true ↔
      l.ownerRuntimeId = owner ∧ l.generation = generation := by
  unfold heldBy
  rw [matchLease_encode]
  simp only [decide_eq_true_eq]
  constructor
  · rintro ⟨howner, hgeneration⟩
    exact ⟨Bytes32.toHex_injective howner, toString_injective hgeneration⟩
  · rintro ⟨rfl, rfl⟩
    exact ⟨rfl, rfl⟩

/-! ## Redis commands -/

section Redis

variable {r r' : Redis} {k k' : String} {text : String} {v : RedisValue} {ttlMs : Nat}

theorem get_eq_some : r.get k = some text ↔
    ∃ v, r.keys.lookup k = some v ∧ r.isLive v = true ∧ v.text = text := by
  unfold Redis.get
  rw [Option.map_eq_some_iff]
  simp only [Option.filter_eq_some_iff]
  constructor
  · rintro ⟨v, ⟨hv, hlive⟩, htext⟩
    exact ⟨v, hv, hlive, htext⟩
  · rintro ⟨v, hv, hlive, htext⟩
    exact ⟨v, ⟨hv, hlive⟩, htext⟩

theorem get_of_lookup (h : r.keys.lookup k = some v) (hlive : r.isLive v = true) :
    r.get k = some v.text :=
  get_eq_some.2 ⟨v, h, hlive, rfl⟩

theorem get_of_lookup_none (h : r.keys.lookup k = none) : r.get k = none := by
  simp [Redis.get, h]

/-- The other keys, and the clock, after `INCR`. -/
theorem incr_other {n : Int} (h : r.incr k = some (r', n)) (hk : k' ≠ k) :
    r'.now = r.now ∧ r'.keys.lookup k' = r.keys.lookup k' := by
  unfold Redis.incr at h
  split at h
  · cases h
    exact ⟨rfl, AList.lookup_insert_ne hk⟩
  · split at h
    · cases h
    · split at h
      · cases h
      · cases h
        exact ⟨rfl, AList.lookup_insert_ne hk⟩

theorem incr_of_lookup {n : Int} (hv : r.keys.lookup k = some v) (hlive : r.isLive v = true)
    (hn : string2ll v.text.toList = some n) (hlt : n < i64Max) :
    r.incr k = some (Redis.mk r.now (r.keys.insert k
      (RedisValue.mk (toString (n + 1)) v.expireAt)), n + 1) := by
  unfold Redis.incr
  rw [hv, Option.filter_some, if_pos hlive]
  simp only [hn]
  rw [if_neg (by omega)]

theorem incr_of_lookup_none (hv : r.keys.lookup k = none) :
    r.incr k = some (Redis.mk r.now (r.keys.insert k
      (RedisValue.mk (toString (1 : Int)) none)), 1) := by
  unfold Redis.incr
  rw [hv, Option.filter_none]

theorem lookup_setPx (h : r.setPx k text ttlMs = some r') (hk : k' ≠ k) :
    r'.keys.lookup k' = r.keys.lookup k' := by
  unfold Redis.setPx at h
  split at h
  · cases h
    exact AList.lookup_insert_ne hk
  · cases h

theorem lookup_pexpire (h : r.pexpire k ttlMs = some r') (hk : k' ≠ k) :
    r'.keys.lookup k' = r.keys.lookup k' := by
  unfold Redis.pexpire at h
  split at h
  · cases h
    rfl
  · split at h
    · cases h
      exact AList.lookup_insert_ne hk
    · cases h

theorem lookup_del (hk : k' ≠ k) : (r.del k).keys.lookup k' = r.keys.lookup k' :=
  AList.lookup_erase_ne hk

end Redis

/-! ## The two keys of a session -/

section Slot

variable {c : CommunityId} {sid : Uuid} {m : List (Nat × SessionLease)} {r r' : Redis}
  {c' : CommunityId} {sid' : Uuid}

/-- The keys of a session after some of its generations were counted. -/
structure SlotOk (c : CommunityId) (sid : Uuid) (m : List (Nat × SessionLease)) (r : Redis) :
    Prop where
  owned : ∀ e ∈ m, e.2.communityId = c ∧ e.2.sessionId = sid
  numbered : m.map (·.2.generation) = List.range' 1 m.length
  counted : r.keys.lookup (new c sid).generation =
    if m = [] then none else some ⟨toString m.length, none⟩
  stored : ∀ v, r.keys.lookup (new c sid).lease = some v → r.isLive v = true →
    ∃ e, m.getLast? = some e ∧ v.text = e.2.encode

/-- What happens to the keys of a session without a generation being counted:
a live lease was live before, and says the same. -/
structure SlotQuiet (c : CommunityId) (sid : Uuid) (r r' : Redis) : Prop where
  generation : r'.keys.lookup (new c sid).generation =
    r.keys.lookup (new c sid).generation
  lease : ∀ v', r'.keys.lookup (new c sid).lease = some v' → r'.isLive v' = true →
    ∃ v, r.keys.lookup (new c sid).lease = some v ∧ r.isLive v = true ∧
      v'.text = v.text

theorem SlotOk.quiet (h : SlotOk c sid m r) (hq : SlotQuiet c sid r r') : SlotOk c sid m r' where
  owned := h.owned
  numbered := h.numbered
  counted := hq.generation.trans h.counted
  stored v' hv' hlive' := by
    obtain ⟨v, hv, hlive, htext⟩ := hq.lease v' hv' hlive'
    obtain ⟨e, he, hencode⟩ := h.stored v hv hlive
    exact ⟨e, he, htext.trans hencode⟩

theorem SlotQuiet.of_lookup (hnow : r'.now = r.now)
    (hgeneration : r'.keys.lookup (new c sid).generation =
      r.keys.lookup (new c sid).generation)
    (hlease : r'.keys.lookup (new c sid).lease =
      r.keys.lookup (new c sid).lease) : SlotQuiet c sid r r' where
  generation := hgeneration
  lease v' hv' hlive' := by
    refine ⟨v', hlease ▸ hv', ?_, rfl⟩
    simpa [Redis.isLive, hnow] using hlive'

theorem SlotQuiet.tick (ms : Nat) : SlotQuiet c sid r { r with now := r.now + ms } where
  generation := rfl
  lease v' hv' hlive' := by
    refine ⟨v', hv', ?_, rfl⟩
    unfold Redis.isLive at hlive' ⊢
    split
    · rfl
    · next t ht =>
        simp only [ht, decide_eq_true_eq] at hlive' ⊢
        omega

theorem SlotQuiet.refl : SlotQuiet c sid r r := .of_lookup rfl rfl rfl

/-! ### What each script does -/

theorem renewScript_quiet (owner generation : String) (ttlMs : Nat) :
    SlotQuiet c sid r (renewScript r (new c sid) owner generation ttlMs).1 := by
  have hne := lease_ne_generation c c sid sid
  unfold renewScript
  split
  · exact .refl
  · next current hcurrent =>
      obtain ⟨v, hv, hlive, -⟩ := get_eq_some.1 hcurrent
      split
      · split
        · exact .refl
        · next r' hr' =>
            refine ⟨lookup_pexpire hr' hne.symm, fun v' hv' _ => ⟨v, hv, hlive, ?_⟩⟩
            unfold Redis.pexpire at hr'
            rw [hv] at hr'
            simp only at hr'
            split at hr'
            · cases hr'
              rw [AList.lookup_insert] at hv'
              cases hv'
              rfl
            · cases hr'
      · exact .refl

theorem releaseScript_quiet (owner generation : String) :
    SlotQuiet c sid r (releaseScript r (new c sid) owner generation).1 := by
  have hne := lease_ne_generation c c sid sid
  unfold releaseScript
  split
  · exact .refl
  · split
    · refine ⟨lookup_del hne.symm, fun v' hv' _ => ?_⟩
      rw [Redis.del, AList.lookup_erase] at hv'
      cases hv'
    · exact .refl

theorem toString_natCast_add_one (n : Nat) : toString ((n : Int) + 1) = toString (n + 1) := rfl

/-- The counter counts on. -/
theorem SlotOk.incr (h : SlotOk c sid m r) (hfew : m.length + 1 < 2 ^ 63) :
    r.incr (new c sid).generation =
      some (Redis.mk r.now (r.keys.insert (new c sid).generation
        (RedisValue.mk (toString (m.length + 1)) none)), ((m.length + 1 : Nat) : Int)) := by
  by_cases hm : m = []
  · have hnone := h.counted
    rw [if_pos hm] at hnone
    rw [incr_of_lookup_none hnone, hm]
    rfl
  · have hsome := h.counted
    rw [if_neg hm] at hsome
    have hpos : 0 < m.length := List.length_pos_of_ne_nil hm
    have hnumber : string2ll (toString m.length).toList = some (m.length : Int) := by
      rw [toList_toString]
      exact string2ll_toDigits hpos (by omega)
    have hlt : (m.length : Int) < i64Max := by
      unfold i64Max
      omega
    rw [incr_of_lookup hsome rfl hnumber hlt, toString_natCast_add_one, Nat.cast_add, Nat.cast_one]

/-- The lease an acquisition mints as the next one of its session. -/
def nextLease (c : CommunityId) (sid : Uuid) (m : List (Nat × SessionLease))
    (owner : RuntimeId) (profile : Profile) : SessionLease :=
  ⟨c, sid, owner, m.length + 1, profile⟩

theorem SlotOk.mints (h : SlotOk c sid m r) (hfew : m.length + 1 < 2 ^ 63)
    (owner : RuntimeId) (profile : Profile) :
    (Operation.acquire c sid owner profile).mints r =
      match r.get (new c sid).lease with
      | none => some (nextLease c sid m owner profile)
      | some _ => none := by
  unfold Operation.mints
  simp only [h.incr hfew]
  split
  · next hget heq =>
      cases heq
      rw [hget]
      rfl
  · next hno =>
      cases hget : r.get (new c sid).lease with
      | none => exact (hno _ _ hget rfl).elim
      | some _ => rfl

theorem SlotOk.insert (h : SlotOk c sid m r) (i : Nat) (owner : RuntimeId) (profile : Profile)
    (hgeneration : r'.keys.lookup (new c sid).generation =
      some ⟨toString (m.length + 1), none⟩)
    (hlease : ∀ v, r'.keys.lookup (new c sid).lease = some v →
      r'.isLive v = true → v.text = (nextLease c sid m owner profile).encode) :
    SlotOk c sid (m ++ [(i, nextLease c sid m owner profile)]) r' where
  owned e he := by
    rcases List.mem_append.1 he with he | he
    · exact h.owned e he
    · rw [List.mem_singleton.1 he]
      exact ⟨rfl, rfl⟩
  numbered := by
    rw [List.map_append, h.numbered, List.length_append, List.length_singleton,
      List.range'_concat, Nat.one_mul, Nat.add_comm 1]
    rfl
  counted := by
    rw [hgeneration, if_neg (by simp), List.length_append, List.length_singleton]
  stored v hv hlive := ⟨_, List.getLast?_concat, hlease v hv hlive⟩

/-- An acquisition that finds a lease changes nothing. -/
theorem acquireScript_exists {keys : SessionKeys} {current : String}
    (hget : r.get keys.lease = some current) (owner profile : String) (ttlMs : Nat) :
    acquireScript r keys owner profile ttlMs =
      (r, some ("exists", current, (r.get keys.generation).getD "")) := by
  unfold acquireScript
  rw [hget]

/-- One that finds none counts a generation and answers with the lease it
stored. -/
theorem SlotOk.acquire (h : SlotOk c sid m r) (hfew : m.length + 1 < 10 ^ 14)
    (hget : r.get (new c sid).lease = none) (i : Nat) (owner : RuntimeId)
    (profile : Profile) (ttlMs : Nat) :
    let out := acquireScript r (new c sid) owner.toHex profile.asWireStr ttlMs
    SlotOk c sid (m ++ [(i, nextLease c sid m owner profile)]) out.1 ∧
      ∀ reply, out.2 = some reply → reply.2.1 = (nextLease c sid m owner profile).encode := by
  have hne := lease_ne_generation c c sid sid
  have hvalue : owner.toHex ++ "|" ++ luaTostring ((m.length + 1 : Nat) : Int) ++ "|" ++
      profile.asWireStr = (nextLease c sid m owner profile).encode := by
    rw [luaTostring_of_lt hfew]
    rfl
  unfold acquireScript
  simp only [hget, h.incr (by omega), hvalue]
  split
  · -- the counter went up and the lease was not written: none was live, none is
    refine ⟨h.insert i owner profile (AList.lookup_insert _) fun v hv hlive => ?_,
      fun reply hreply => by cases hreply⟩
    rw [AList.lookup_insert_ne hne] at hv
    rw [get_of_lookup hv hlive] at hget
    cases hget
  · next r' hr' =>
      refine ⟨h.insert i owner profile ?_ fun v hv _ => ?_, fun reply hreply => ?_⟩
      · rw [lookup_setPx hr' hne.symm, AList.lookup_insert]
      · unfold Redis.setPx at hr'
        split at hr'
        · cases hr'
          rw [AList.lookup_insert] at hv
          cases hv
          rfl
        · cases hr'
      · cases hreply
        rfl

/-! ### The keys of other sessions -/

section Other

variable {keys : SessionKeys} {k : String} (ttlMs : Nat) (owner profile generation : String)

theorem acquireScript_other (hl : k ≠ keys.lease) (hg : k ≠ keys.generation) :
    (acquireScript r keys owner profile ttlMs).1.now = r.now ∧
      (acquireScript r keys owner profile ttlMs).1.keys.lookup k = r.keys.lookup k := by
  unfold acquireScript
  split
  · exact ⟨rfl, rfl⟩
  · split
    · exact ⟨rfl, rfl⟩
    · next r₁ n hr₁ =>
        obtain ⟨hnow, hlookup⟩ := incr_other hr₁ hg
        dsimp only
        split
        · exact ⟨hnow, hlookup⟩
        · next r₂ hr₂ =>
            have hlookup₂ := lookup_setPx hr₂ hl
            unfold Redis.setPx at hr₂
            split at hr₂
            · cases hr₂
              exact ⟨hnow, hlookup₂.trans hlookup⟩
            · cases hr₂

theorem renewScript_other (hl : k ≠ keys.lease) :
    (renewScript r keys owner generation ttlMs).1.now = r.now ∧
      (renewScript r keys owner generation ttlMs).1.keys.lookup k = r.keys.lookup k := by
  unfold renewScript
  split
  · exact ⟨rfl, rfl⟩
  · split
    · split
      · exact ⟨rfl, rfl⟩
      · next r₁ hr₁ =>
          have hlookup := lookup_pexpire hr₁ hl
          refine ⟨?_, hlookup⟩
          unfold Redis.pexpire at hr₁
          split at hr₁
          · cases hr₁
            rfl
          · split at hr₁
            · cases hr₁
              rfl
            · cases hr₁
    · exact ⟨rfl, rfl⟩

theorem releaseScript_other (hl : k ≠ keys.lease) :
    (releaseScript r keys owner generation).1.now = r.now ∧
      (releaseScript r keys owner generation).1.keys.lookup k = r.keys.lookup k := by
  unfold releaseScript
  split
  · exact ⟨rfl, rfl⟩
  · split
    · exact ⟨rfl, lookup_del hl⟩
    · exact ⟨rfl, rfl⟩

end Other

/-- The session a call is about. -/
def Operation.session : Operation → CommunityId × Uuid
  | acquire communityId sessionId _ _ => (communityId, sessionId)
  | renew lease => (lease.communityId, lease.sessionId)
  | release lease => (lease.communityId, lease.sessionId)

theorem lease_ne_of_session (h : (c', sid') ≠ (c, sid)) :
    (new c sid).lease ≠ (new c' sid').lease := by
  intro heq
  obtain ⟨rfl, rfl⟩ := lease_inj heq
  exact h rfl

theorem generation_ne_of_session (h : (c', sid') ≠ (c, sid)) :
    (new c sid).generation ≠ (new c' sid').generation := by
  intro heq
  obtain ⟨rfl, rfl⟩ := generation_inj heq
  exact h rfl

theorem releaseScript_quiet_of_ne {owner generation : String}
    (h : (c', sid') ≠ (c, sid)) :
    SlotQuiet c sid r (releaseScript r (new c' sid') owner generation).1 := by
  have hlease := releaseScript_other (r := r) owner generation (lease_ne_of_session h)
  have hgeneration := releaseScript_other (r := r) owner generation
    (lease_ne_generation c' c sid' sid).symm
  exact .of_lookup hlease.1 hgeneration.2 hlease.2

/-- A call about another session leaves the keys of this one alone. -/
theorem exec_quiet_of_ne {op : Operation} {ttlMs : Nat} (h : op.session ≠ (c, sid)) :
    SlotQuiet c sid r (op.exec ttlMs r).1 := by
  cases op with
  | acquire c' sid' owner profile =>
      have hlease := acquireScript_other (r := r) ttlMs owner.toHex profile.asWireStr
        (lease_ne_of_session h) (lease_ne_generation c c' sid sid')
      have hgeneration := acquireScript_other (r := r) ttlMs owner.toHex profile.asWireStr
        (lease_ne_generation c' c sid' sid).symm (generation_ne_of_session h)
      exact .of_lookup hlease.1 hgeneration.2 hlease.2
  | renew lease =>
      have hlease := renewScript_other (r := r) ttlMs lease.ownerRuntimeId.toHex
        (toString lease.generation) (lease_ne_of_session h)
      have hgeneration := renewScript_other (r := r) ttlMs lease.ownerRuntimeId.toHex
        (toString lease.generation)
        (lease_ne_generation lease.communityId c lease.sessionId sid).symm
      exact .of_lookup hlease.1 hgeneration.2 hlease.2
  | release lease =>
      exact releaseScript_quiet_of_ne h

end Slot

/-! ## Calls -/

section Calls

variable {c : CommunityId} {sid : Uuid} {m m' : List (Nat × SessionLease)} {i : Nat}
  {call : DirectoryCall} {s : DirectoryState} {e : Nat × SessionLease}
  {lease l : SessionLease}

/-- What a call holds of the leases minted for its session: an acquisition
that was answered, is discarding or has returned its lease minted it itself. -/
def CallOk (m : List (Nat × SessionLease)) (i : Nat) (call : DirectoryCall) : Prop :=
  match call.phase with
  | .waiting => True
  | .replied (status, value, _) =>
      (∀ lease, call.operation ≠ .renew lease ∧ call.operation ≠ .release lease) →
        status = "acquired" → ∃ lease, (i, lease) ∈ m ∧ value = lease.encode
  | .discarding lease => (i, lease) ∈ m
  | .returned (.ok (.acquired lease)) => (i, lease) ∈ m
  | .returned _ => True

theorem CallOk.mono (h : CallOk m i call) (hsub : ∀ e ∈ m, e ∈ m') : CallOk m' i call := by
  unfold CallOk at h ⊢
  split at h
  · trivial
  · intro hop hstatus
    obtain ⟨lease, hmem, hvalue⟩ := h hop hstatus
    exact ⟨lease, hsub _ hmem, hvalue⟩
  · exact hsub _ h
  · exact hsub _ h
  · trivial

structure DirectoryOk (c : CommunityId) (sid : Uuid) (s : DirectoryState) : Prop where
  slot : SlotOk c sid (s.mintedFor c sid) s.redis
  calls : ∀ i call, s.calls[i]? = some call → call.operation.session = (c, sid) →
    CallOk (s.mintedFor c sid) i call

theorem SlotOk.generation_pos (h : SlotOk c sid m r) (he : e ∈ m) :
    0 < e.2.generation ∧ e.2.generation ≤ m.length := by
  have hmem : e.2.generation ∈ m.map (·.2.generation) := List.mem_map_of_mem he
  rw [h.numbered, List.mem_range'_1] at hmem
  omega

theorem SlotOk.parse (h : SlotOk c sid m r) (hfew : m.length < 10 ^ 14)
    (he : e ∈ m) : parseLease c sid e.2.encode = .ok e.2 := by
  obtain ⟨hpos, hle⟩ := h.generation_pos he
  obtain ⟨rfl, rfl⟩ := h.owned e he
  exact parseLease_encode hpos (by omega)

theorem encode_inj_of_mem (h : SlotOk c sid m r) (hfew : m.length < 10 ^ 14)
    (he : e ∈ m) (hparse : parseLease c sid e.2.encode = .ok lease) :
    e.2 = lease := by
  rw [h.parse hfew he] at hparse
  exact Except.ok.inj hparse

/-- A call returns, and with something else than a lease it acquired. -/
def Unacquired (phase : CallPhase) : Prop :=
  ∃ result, phase = .returned result ∧ ∀ lease, result ≠ .ok (.acquired lease)

theorem Unacquired.callOk (h : Unacquired call.phase) : CallOk m i call := by
  obtain ⟨result, hphase, hne⟩ := h
  unfold CallOk
  rw [hphase]
  split
  · trivial
  · next heq => cases heq
  · next heq => cases heq
  · next lease heq =>
      cases heq
      exact (hne lease rfl).elim
  · trivial

theorem unacquired_error (e : DirectoryError) : Unacquired (.returned (.error e)) :=
  ⟨_, rfl, fun _ h => nomatch h⟩

theorem settleFenced_ne {value : String} {verified finished : Bool}
    {result : Option SessionLease → Except DirectoryError CallResult}
    (h : ∀ current, result current ≠ .ok (.acquired l)) :
    settleFenced lease value verified finished result ≠ .ok (.acquired l) := by
  unfold settleFenced
  split
  · exact fun h => nomatch h
  · split
    · exact fun h => nomatch h
    · split
      · exact fun h => nomatch h
      · exact h _

theorem map_ne_acquired {known : Except DirectoryError (Option Nat)}
    {f : Option Nat → CallResult} (h : ∀ k, f k ≠ .acquired l) :
    known.map f ≠ .ok (.acquired l) := by
  cases known with
  | error e => exact fun h => nomatch h
  | ok k => exact fun heq => h k (Except.ok.inj heq)

theorem renewResult_ne (lease l : SessionLease) (status : String) (current : Option SessionLease)
    (known : String) : renewResult lease status current known ≠ .ok (.acquired l) := by
  unfold renewResult
  split
  · cases current <;> exact fun h => nomatch h
  · split
    · exact map_ne_acquired fun _ h => nomatch h
    · exact fun h => nomatch h

theorem releaseResult_ne (lease l : SessionLease) (status : String)
    (current : Option SessionLease) (known : String) :
    releaseResult lease status current known ≠ .ok (.acquired l) := by
  unfold releaseResult
  split
  · cases current <;> exact fun h => nomatch h
  · split
    · exact map_ne_acquired fun _ h => nomatch h
    · exact fun h => nomatch h

theorem acquireResult_eq {status : String}
    (h : acquireResult status lease = .ok (.acquired l)) :
    status = "acquired" ∧ lease = l := by
  unfold acquireResult at h
  split at h
  · next hstatus =>
      cases h
      exact ⟨hstatus, rfl⟩
  · split at h
    · cases h
    · cases h

/-- A call that has its answer keeps to what it minted. -/
theorem CallOk.settle (h : SlotOk c sid m r) (hfew : m.length < 10 ^ 14) (hc : CallOk m i call)
    (hsession : call.operation.session = (c, sid)) {reply : Reply}
    (hphase : call.phase = .replied reply) (verified finished : Bool) :
    CallOk m i { call with phase := call.operation.settle reply verified finished } := by
  obtain ⟨status, value, known⟩ := reply
  obtain ⟨op, ttlMs, pending, phase⟩ := call
  subst hphase
  cases op with
  | renew lease =>
      exact Unacquired.callOk ⟨_, rfl, fun l => settleFenced_ne fun _ => renewResult_ne _ _ _ _ _⟩
  | release lease =>
      exact Unacquired.callOk ⟨_, rfl, fun l => settleFenced_ne fun _ => releaseResult_ne _ _ _ _ _⟩
  | acquire c' sid' owner profile =>
      cases hsession
      have hmem : ∀ lease, parseLease c sid value = .ok lease → status = "acquired" →
          (i, lease) ∈ m := by
        intro lease hparse hstatus
        obtain ⟨l, hl, rfl⟩ := hc (fun _ => ⟨nofun, nofun⟩) hstatus
        exact encode_inj_of_mem h hfew hl hparse ▸ hl
      unfold CallOk
      simp only [Operation.settle]
      cases hparse : parseLease c sid value with
      | error e => trivial
      | ok lease =>
          simp only
          by_cases hverified : verified = true
          · simp only [if_pos hverified]
            split
            · trivial
            · next heq => cases heq
            · next heq => cases heq
            · next l heq =>
                obtain ⟨hstatus, rfl⟩ := acquireResult_eq (CallPhase.returned.inj heq)
                exact hmem lease hparse hstatus
            · trivial
          · simp only [if_neg hverified]
            by_cases hstatus : status = "acquired"
            · simp only [if_pos hstatus]
              exact hmem lease hparse hstatus
            · simp only [if_neg hstatus]

/-! ## Steps -/

theorem mints_session {op : Operation} (h : op.mints r = some lease) :
    op.session = (lease.communityId, lease.sessionId) := by
  unfold Operation.mints at h
  split at h
  · simp only at h
    split at h
    · cases h
      rfl
    · cases h
  · cases h

theorem exec_eq (hpending : call.pending = true) :
    s.exec i call =
      ⟨(call.operation.exec call.ttlMs s.redis).1,
        s.calls.set i { call with
          pending := false
          phase := call.phase.answer (call.operation.exec call.ttlMs s.redis).2 },
        s.minted ++ ((call.operation.mints s.redis).map (i, ·)).toList⟩ := by
  unfold DirectoryState.exec
  rw [if_pos hpending]
  rfl

theorem mintedFor_exec (hpending : call.pending = true)
    (hsession : call.operation.session = (c, sid)) :
    (s.exec i call).mintedFor c sid =
      s.mintedFor c sid ++ ((call.operation.mints s.redis).map (i, ·)).toList := by
  rw [exec_eq hpending]
  unfold DirectoryState.mintedFor
  rw [List.filter_append]
  congr 1
  cases hmints : call.operation.mints s.redis with
  | none => rfl
  | some lease =>
      rw [mints_session hmints] at hsession
      cases hsession
      simp

theorem mintedFor_exec_of_ne (hsession : call.operation.session ≠ (c, sid)) :
    (s.exec i call).mintedFor c sid = s.mintedFor c sid := by
  by_cases hpending : call.pending = true
  · rw [exec_eq hpending]
    unfold DirectoryState.mintedFor
    rw [List.filter_append]
    cases hmints : call.operation.mints s.redis with
    | none => simp
    | some lease =>
        rw [mints_session hmints] at hsession
        have hne : ¬(lease.communityId = c ∧ lease.sessionId = sid) := by
          rintro ⟨rfl, rfl⟩
          exact hsession rfl
        simp [hne]
  · unfold DirectoryState.exec
    rw [if_neg hpending]

/-- One call moved and the others stayed. -/
theorem DirectoryOk.setCall {s' : DirectoryState} (h : DirectoryOk c sid s)
    (hsub : ∀ e ∈ s.mintedFor c sid, e ∈ s'.mintedFor c sid)
    (hslot : SlotOk c sid (s'.mintedFor c sid) s'.redis) {call' : DirectoryCall}
    (hcalls : s'.calls = s.calls.set i call')
    (hcall : call'.operation.session = (c, sid) → CallOk (s'.mintedFor c sid) i call') :
    DirectoryOk c sid s' where
  slot := hslot
  calls j other hj hsession := by
    rw [hcalls] at hj
    rcases getElem?_set_cases hj with ⟨rfl, rfl, -⟩ | ⟨-, hj⟩
    · exact hcall hsession
    · exact (h.calls j other hj hsession).mono hsub

/-- The call whose script ran, given what an answer to an acquisition says. -/
theorem CallOk.answer {reply : Option Reply} (h : CallOk m i call)
    (hsub : ∀ e ∈ m, e ∈ m')
    (hreply : (∀ lease, call.operation ≠ .renew lease ∧ call.operation ≠ .release lease) →
      ∀ status value known, reply = some (status, value, known) → status = "acquired" →
        ∃ lease, (i, lease) ∈ m' ∧ value = lease.encode) :
    CallOk m' i { call with pending := false, phase := call.phase.answer reply } := by
  cases hphase : call.phase with
  | waiting =>
      cases reply with
      | none => exact Unacquired.callOk (unacquired_error .redis)
      | some reply => exact fun hop hstatus => hreply hop _ _ _ rfl hstatus
  | replied _ | discarding _ | returned _ =>
      have hmono := h.mono hsub
      unfold CallOk at hmono ⊢
      rw [hphase] at hmono
      exact hmono

section

variable (h : DirectoryOk c sid s)
include h

/-- The script of a call about the session runs. -/
theorem DirectoryOk.exec_own (hcall : s.calls[i]? = some call)
    (hpending : call.pending = true)
    (hsession : call.operation.session = (c, sid))
    (hfew : ((s.exec i call).mintedFor c sid).length < 10 ^ 14) :
    DirectoryOk c sid (s.exec i call) := by
  have hok := h.calls i call hcall hsession
  have hminted := mintedFor_exec (s := s) (i := i) hpending hsession
  have hsub : ∀ e ∈ s.mintedFor c sid, e ∈ (s.exec i call).mintedFor c sid := by
    intro e he
    rw [hminted]
    exact List.mem_append_left _ he
  have hredis : (s.exec i call).redis = (call.operation.exec call.ttlMs s.redis).1 := by
    rw [exec_eq hpending]
  have hcalls : (s.exec i call).calls = s.calls.set i { call with
      pending := false
      phase := call.phase.answer (call.operation.exec call.ttlMs s.redis).2 } := by
    rw [exec_eq hpending]
  cases hop : call.operation with
  | renew lease =>
      rw [hop] at hminted hredis hsession
      cases hsession
      refine h.setCall hsub ?_ hcalls fun _ => hok.answer hsub fun hno => ((hno lease).1 hop).elim
      rw [hminted, hredis]
      simp only [Operation.mints, Option.map_none, Option.toList_none, List.append_nil]
      exact h.slot.quiet (renewScript_quiet _ _ _)
  | release lease =>
      rw [hop] at hminted hredis hsession
      cases hsession
      refine h.setCall hsub ?_ hcalls fun _ => hok.answer hsub fun hno => ((hno lease).2 hop).elim
      rw [hminted, hredis]
      simp only [Operation.mints, Option.map_none, Option.toList_none, List.append_nil]
      exact h.slot.quiet (releaseScript_quiet _ _)
  | acquire c' sid' owner profile =>
      rw [hop] at hminted hredis hsession hcalls
      cases hsession
      have hle : (s.mintedFor c sid).length ≤ ((s.exec i call).mintedFor c sid).length := by
        rw [hminted, List.length_append]
        omega
      have hmints := h.slot.mints (by omega) owner profile
      cases hget : s.redis.get (new c sid).lease with
      | some current =>
          have hexec := acquireScript_exists hget owner.toHex profile.asWireStr call.ttlMs
          rw [hget] at hmints
          rw [hmints, Option.map_none, Option.toList_none, List.append_nil] at hminted
          refine h.setCall hsub ?_ hcalls fun _ => ?_
          · rw [hminted, hredis]
            simp only [Operation.exec, hexec]
            exact h.slot
          · refine (hop ▸ hok.answer hsub fun _ status value known hreply hstatus => ?_)
            rw [hop] at hreply
            simp only [Operation.exec, hexec, Option.some.injEq, Prod.mk.injEq] at hreply
            rw [← hreply.1] at hstatus
            exact absurd hstatus (by decide)
      | none =>
          rw [hget] at hmints
          simp only [hmints, Option.map_some, Option.toList_some] at hminted
          have hlt : (s.mintedFor c sid).length + 1 < 10 ^ 14 := by
            rw [hminted, List.length_append, List.length_singleton] at hfew
            exact hfew
          obtain ⟨hslot, hreply⟩ := h.slot.acquire hlt hget i owner profile call.ttlMs
          refine h.setCall hsub ?_ hcalls fun _ => ?_
          · rw [hminted, hredis]
            exact hslot
          · refine (hop ▸ hok.answer hsub fun _ status value known hanswer _ => ?_)
            rw [hop] at hanswer
            refine ⟨_, ?_, hreply _ hanswer⟩
            rw [hminted]
            exact List.mem_append_right _ (List.mem_singleton_self _)

theorem DirectoryOk.exec (hcall : s.calls[i]? = some call)
    (hfew : ((s.exec i call).mintedFor c sid).length < 10 ^ 14) :
    DirectoryOk c sid (s.exec i call) := by
  by_cases hpending : call.pending = true
  · by_cases hsession : call.operation.session = (c, sid)
    · exact h.exec_own hcall hpending hsession hfew
    · have hminted := mintedFor_exec_of_ne (s := s) (i := i) hsession
      have hcalls : (s.exec i call).calls = s.calls.set i { call with
          pending := false
          phase := call.phase.answer (call.operation.exec call.ttlMs s.redis).2 } := by
        rw [exec_eq hpending]
      refine h.setCall (fun e he => hminted.symm ▸ he) ?_ hcalls
        fun hother => (hsession hother).elim
      rw [hminted, exec_eq hpending]
      exact h.slot.quiet (exec_quiet_of_ne hsession)
  · unfold DirectoryState.exec
    rw [if_neg hpending]
    exact h

theorem DirectoryOk.settle (hcall : s.calls[i]? = some call)
    (hfew : (s.mintedFor c sid).length < 10 ^ 14) (verified finished : Bool) :
    DirectoryOk c sid (s.settle i call verified finished) := by
  unfold DirectoryState.settle
  split
  · next reply hphase =>
      refine h.setCall (fun e he => he) h.slot rfl fun hsession => ?_
      exact (h.calls i call hcall hsession).settle h.slot hfew hsession hphase verified finished
  · exact h

theorem DirectoryOk.discard (reached : Bool) :
    DirectoryOk c sid (s.discard i call reached) := by
  unfold DirectoryState.discard
  split
  · next lease hphase =>
      have hdone : DirectoryOk c sid
          (s.setCall i { call with phase := .returned (.error .communityWriteFenced) }) :=
        h.setCall (fun e he => he) h.slot rfl fun _ => Unacquired.callOk (unacquired_error _)
      split
      · refine ⟨hdone.slot.quiet ?_, hdone.calls⟩
        by_cases hsession : (lease.communityId, lease.sessionId) = (c, sid)
        · cases hsession
          exact releaseScript_quiet _ _
        · exact releaseScript_quiet_of_ne hsession
      · exact hdone
  · exact h

theorem DirectoryOk.abandon (e : DirectoryError) :
    DirectoryOk c sid (s.abandon i call e) := by
  unfold DirectoryState.abandon
  split
  · exact h.setCall (fun e he => he) h.slot rfl fun _ => Unacquired.callOk (unacquired_error _)
  · exact h.setCall (fun e he => he) h.slot rfl fun _ => Unacquired.callOk (unacquired_error _)
  · exact h

theorem DirectoryOk.begin_ (op : Operation) (ttlMs : Nat) :
    DirectoryOk c sid (s.begin_ op ttlMs) where
  slot := h.slot
  calls j other hj hsession := by
    rcases getElem?_snoc_cases hj with ⟨-, hother⟩ | ⟨-, hj⟩
    · subst hother
      split
      · trivial
      · exact Unacquired.callOk (unacquired_error _)
    · exact h.calls j other hj hsession

omit h in
/-- No generation is ever forgotten, and one is counted for a call that has
begun. -/
theorem mintedFor_step (s : DirectoryState) (move : DirectoryMove) :
    ∃ new, (s.step move).mintedFor c sid = s.mintedFor c sid ++ new ∧
      ∀ e ∈ new, e.1 < s.calls.length := by
  have hsame : ∀ s' : DirectoryState, s'.minted = s.minted →
      ∃ new, s'.mintedFor c sid = s.mintedFor c sid ++ new ∧ ∀ e ∈ new, e.1 < s.calls.length := by
    intro s' h
    refine ⟨[], ?_, by nofun⟩
    simp [DirectoryState.mintedFor, h]
  cases move with
  | tick ms => exact hsame _ rfl
  | call op ttlMs => exact hsame _ rfl
  | exec i =>
      simp only [DirectoryState.step, DirectoryState.onCall]
      split
      · next call hcall =>
          by_cases hpending : call.pending = true
          · by_cases hsession : call.operation.session = (c, sid)
            · refine ⟨_, mintedFor_exec hpending hsession, fun e he => ?_⟩
              obtain ⟨lease, -, rfl⟩ := Option.map_eq_some_iff.1 (Option.mem_toList.1 he)
              exact (List.getElem?_eq_some_iff.1 hcall).1
            · exact ⟨[], by rw [mintedFor_exec_of_ne hsession, List.append_nil], by nofun⟩
          · unfold DirectoryState.exec
            rw [if_neg hpending]
            exact hsame s rfl
      · exact hsame s rfl
  | abandon i e =>
      simp only [DirectoryState.step, DirectoryState.onCall, DirectoryState.abandon]
      split
      · split <;> exact hsame _ rfl
      · exact hsame s rfl
  | settle i verified finished =>
      simp only [DirectoryState.step, DirectoryState.onCall, DirectoryState.settle]
      split
      · split <;> exact hsame _ rfl
      · exact hsame s rfl
  | discard i reached =>
      simp only [DirectoryState.step, DirectoryState.onCall, DirectoryState.discard]
      split
      · split
        · split <;> exact hsame _ rfl
        · exact hsame s rfl
      · exact hsame s rfl

omit h in
theorem length_mintedFor_step (s : DirectoryState) (move : DirectoryMove) :
    (s.mintedFor c sid).length ≤ ((s.step move).mintedFor c sid).length := by
  obtain ⟨new, hnew, -⟩ := mintedFor_step s move
  rw [hnew, List.length_append]
  omega

theorem DirectoryOk.step {move : DirectoryMove}
    (hfew : ((s.step move).mintedFor c sid).length < 10 ^ 14) :
    DirectoryOk c sid (s.step move) := by
  have hle : (s.mintedFor c sid).length ≤ ((s.step move).mintedFor c sid).length :=
    length_mintedFor_step s move
  cases move with
  | tick ms => exact ⟨h.slot.quiet (.tick ms), h.calls⟩
  | call op ttlMs => exact h.begin_ op ttlMs
  | exec i =>
      simp only [DirectoryState.step, DirectoryState.onCall] at hfew ⊢
      split
      · next call hcall =>
          rw [hcall] at hfew
          exact h.exec hcall hfew
      · exact h
  | abandon i e =>
      simp only [DirectoryState.step, DirectoryState.onCall]
      split
      · exact h.abandon e
      · exact h
  | settle i verified finished =>
      simp only [DirectoryState.step, DirectoryState.onCall]
      split
      · next call hcall => exact h.settle hcall (by omega) verified finished
      · exact h
  | discard i reached =>
      simp only [DirectoryState.step, DirectoryState.onCall]
      split
      · exact h.discard reached
      · exact h

end

end Calls

/-! ## What a reader of the store sees -/

section Reads

variable {c : CommunityId} {sid : Uuid} {m : List (Nat × SessionLease)} {r : Redis}
  {lease : SessionLease}

section

variable (h : SlotOk c sid m r)
include h

theorem SlotOk.get_generation :
    r.get (new c sid).generation =
      if m = [] then none else some (toString m.length) := by
  have hcounted := h.counted
  by_cases hm : m = []
  · rw [if_pos hm] at hcounted ⊢
    exact get_of_lookup_none hcounted
  · rw [if_neg hm] at hcounted ⊢
    exact get_of_lookup hcounted rfl

/-- The live lease is the newest one. -/
theorem SlotOk.get_lease :
    r.get (new c sid).lease = none ∨
      ∃ e ∈ m, e.2.generation = m.length ∧
        r.get (new c sid).lease = some e.2.encode := by
  cases hget : r.get (new c sid).lease with
  | none => exact .inl rfl
  | some text =>
      obtain ⟨v, hv, hlive, htext⟩ := get_eq_some.1 hget
      obtain ⟨e, he, hencode⟩ := h.stored v hv hlive
      refine .inr ⟨e, List.mem_of_getLast? he, ?_, by rw [← htext, hencode]⟩
      have hlast : (m.map (·.2.generation)).getLast? = some e.2.generation := by
        rw [List.getLast?_map, he]
        rfl
      have hpos : m.length ≠ 0 := by
        intro hzero
        rw [List.length_eq_zero_iff.1 hzero] at he
        cases he
      rw [h.numbered, List.getLast?_range', if_neg hpos] at hlast
      have := Option.some.inj hlast
      omega

theorem SlotOk.lookupLease (hfew : m.length < 10 ^ 14) :
    lookupLease r c sid = .ok none ∨
      ∃ e ∈ m, e.2.generation = m.length ∧ lookupLease r c sid = .ok (some e.2) := by
  unfold Relay.lookupLease
  rcases h.get_lease with hnone | ⟨e, he, hgeneration, hget⟩
  · rw [hnone]
    exact .inl rfl
  · rw [hget]
    refine .inr ⟨e, he, hgeneration, ?_⟩
    simp only [h.parse hfew he]
    rfl

omit h in
theorem toString_ne_empty (n : Nat) : toString n ≠ "" := by
  intro h
  have hlist := toList_toString n
  rw [h] at hlist
  exact Nat.toDigits_ne_nil hlist.symm

theorem SlotOk.parse_generation (hfew : m.length < 10 ^ 14) :
    parseOptionalGeneration c sid ((r.get (new c sid).generation).getD "") =
      .ok (if m = [] then none else some m.length) := by
  rw [h.get_generation]
  by_cases hm : m = []
  · simp only [if_pos hm]
    rfl
  · have hpos : m.length ≠ 0 := fun hzero => hm (List.length_eq_zero_iff.1 hzero)
    simp only [if_neg hm, Option.getD_some, parseOptionalGeneration, toString_ne_empty, if_false,
      toList_toString, parseU64_toDigits (by omega : m.length < 2 ^ 64), if_neg hpos]

/-- `validate_fenced_header` reads the store as `lookup` does. -/
theorem SlotOk.parse_lease :
    parseOptionalLease c sid ((r.get (new c sid).lease).getD "") =
      Relay.lookupLease r c sid := by
  unfold Relay.lookupLease parseOptionalLease
  rcases h.get_lease with hnone | ⟨e, he, -, hget⟩
  · rw [hnone]
    rfl
  · rw [hget]
    simp only [Option.getD_some, encode_ne_empty, if_false]

/-- A frame passes exactly for the stored lease. -/
theorem SlotOk.validate (hfew : m.length < 10 ^ 14) {f : FencedHeader}
    (hf : f.sessionId = sid) :
    validateFencedHeader r c f = .ok () ↔
      ∃ lease, Relay.lookupLease r c sid = .ok (some lease) ∧
        lease.ownerRuntimeId = f.ownerRuntimeId ∧ lease.generation = f.generation := by
  subst hf
  unfold validateFencedHeader validateScript
  simp only [h.parse_generation hfew, h.parse_lease]
  rcases h.lookupLease hfew with hnone | ⟨e, he, hgeneration, hsome⟩
  · rw [hnone]
    constructor
    · intro hok
      generalize (if m = [] then none else some m.length) = known at hok
      dsimp only at hok
      split at hok <;> cases hok
    · rintro ⟨lease, hlease, -⟩
      cases hlease
  · have hm : m ≠ [] := List.ne_nil_of_mem he
    have hpos : 0 < m.length := List.length_pos_of_ne_nil hm
    rw [hsome]
    simp only [if_neg hm, Option.map_some, Option.getD_some, hgeneration, Nat.max_self]
    constructor
    · intro hok
      split at hok
      · cases hok
      · split at hok
        · cases hok
        · next heq =>
            split at hok
            · cases hok
            · next howner =>
                exact ⟨e.2, rfl, (not_not.1 howner).symm, hgeneration.trans (not_not.1 heq).symm⟩
    · rintro ⟨lease, hlease, howner, hgen⟩
      cases hlease
      rw [if_neg (by omega), if_neg (by omega), if_neg (not_not.2 howner.symm)]

end

/-- The lease is the stored one, as far as owner and generation go. -/
def Holds (r : Redis) (lease : SessionLease) : Prop :=
  ∃ current, lookupLease r lease.communityId lease.sessionId = .ok (some current) ∧
    current.ownerRuntimeId = lease.ownerRuntimeId ∧ current.generation = lease.generation

theorem SlotOk.heldBy (h : SlotOk lease.communityId lease.sessionId m r)
    (hfew : m.length < 10 ^ 14) {current : String}
    (hget : r.get (new lease.communityId lease.sessionId).lease = some current)
    (hheld : heldBy current lease.ownerRuntimeId.toHex (toString lease.generation) = true) :
    Holds r lease := by
  rcases h.get_lease with hnone | ⟨e, he, -, hsome⟩
  · rw [hnone] at hget
    cases hget
  · rw [hget] at hsome
    cases hsome
    obtain ⟨howner, hgeneration⟩ := heldBy_encode.1 hheld
    refine ⟨e.2, ?_, howner, hgeneration⟩
    unfold Relay.lookupLease
    rw [hget]
    simp only [h.parse hfew he]
    rfl

/-- A renewal by anybody else changes nothing. -/
theorem SlotOk.renew_stranger (h : SlotOk lease.communityId lease.sessionId m r)
    (hfew : m.length < 10 ^ 14) (hno : ¬Holds r lease) (ttlMs : Nat) :
    (renewScript r (new lease.communityId lease.sessionId)
      lease.ownerRuntimeId.toHex (toString lease.generation) ttlMs).1 = r := by
  unfold renewScript
  split
  · rfl
  · next current hget => rw [if_neg fun hheld => hno (h.heldBy hfew hget hheld)]

/-- Nor does a release. -/
theorem SlotOk.release_stranger
    (h : SlotOk lease.communityId lease.sessionId m r)
    (hfew : m.length < 10 ^ 14) (hno : ¬Holds r lease) :
    (releaseScript r (new lease.communityId lease.sessionId)
      lease.ownerRuntimeId.toHex (toString lease.generation)).1 = r := by
  unfold releaseScript
  split
  · rfl
  · next current hget => rw [if_neg fun hheld => hno (h.heldBy hfew hget hheld)]

end Reads

/-! ## Runs -/

section Runs

variable {c : CommunityId} {sid : Uuid} {s : DirectoryState}

theorem mintedFor_runFrom (now : Nat) (s : DirectoryState) (ms : List DirectoryMove) :
    ∃ new, ((sessionDirectory now).runFrom s ms).mintedFor c sid = s.mintedFor c sid ++ new := by
  refine (sessionDirectory now).stable_runFrom
    (I := fun s' => ∃ new, s'.mintedFor c sid = s.mintedFor c sid ++ new) ?_ ⟨[], by simp⟩ ms
  rintro s' move ⟨new, hnew⟩
  obtain ⟨new', hnew', -⟩ := mintedFor_step s' move
  refine ⟨new ++ new', ?_⟩
  rw [← List.append_assoc, ← hnew]
  exact hnew'

theorem directoryOk_run (now : Nat) (ms : List DirectoryMove)
    (hfew : (((sessionDirectory now).run ms).mintedFor c sid).length < 10 ^ 14) :
    DirectoryOk c sid ((sessionDirectory now).run ms) := by
  refine (sessionDirectory now).stable_runFrom
    (I := fun s => (s.mintedFor c sid).length < 10 ^ 14 → DirectoryOk c sid s) ?_ ?_ ms hfew
  · intro s move hok hlt
    have hle : (s.mintedFor c sid).length ≤ ((s.step move).mintedFor c sid).length :=
      length_mintedFor_step s move
    exact (hok (Nat.lt_of_le_of_lt hle hlt)).step hlt
  · intro _
    refine ⟨⟨fun e he => (List.not_mem_nil he).elim, rfl, rfl, fun v hv => ?_⟩, fun i call hi => ?_⟩
    · cases hv
    · cases hi

theorem onCall_of_some {i : Nat} {call : DirectoryCall} {f : DirectoryCall → DirectoryState}
    (h : s.calls[i]? = some call) : s.onCall i f = f call := by
  unfold DirectoryState.onCall
  rw [h]

theorem length_calls_step (s : DirectoryState) (move : DirectoryMove) :
    s.calls.length ≤ (s.step move).calls.length := by
  have hset : ∀ i call, s.calls.length ≤ (s.setCall i call).calls.length := fun i call =>
    (List.length_set ..).ge
  cases move with
  | tick ms => exact Nat.le_refl _
  | call op ttlMs =>
      show _ ≤ (s.calls ++ [_]).length
      rw [List.length_append]
      omega
  | exec i =>
      simp only [DirectoryState.step, DirectoryState.onCall, DirectoryState.exec]
      split
      · split
        · exact hset _ _
        · exact Nat.le_refl _
      · exact Nat.le_refl _
  | abandon i e =>
      simp only [DirectoryState.step, DirectoryState.onCall, DirectoryState.abandon]
      split
      · split
        · exact hset _ _
        · exact hset _ _
        · exact Nat.le_refl _
      · exact Nat.le_refl _
  | settle i verified finished =>
      simp only [DirectoryState.step, DirectoryState.onCall, DirectoryState.settle]
      split
      · split
        · exact hset _ _
        · exact Nat.le_refl _
      · exact Nat.le_refl _
  | discard i reached =>
      simp only [DirectoryState.step, DirectoryState.onCall, DirectoryState.discard]
      split
      · split
        · split
          · exact hset _ _
          · exact hset _ _
        · exact Nat.le_refl _
      · exact Nat.le_refl _

/-- A generation is counted for a call that has begun. -/
theorem mintedFor_begun (now : Nat) (ms : List DirectoryMove) :
    ∀ e ∈ ((sessionDirectory now).run ms).mintedFor c sid,
      e.1 < ((sessionDirectory now).run ms).calls.length := by
  refine (sessionDirectory now).stable_runFrom
    (I := fun s => ∀ e ∈ s.mintedFor c sid, e.1 < s.calls.length) ?_ (by nofun) ms
  intro s move h e he
  have hle := length_calls_step s move
  obtain ⟨new, hnew, hbegun⟩ := mintedFor_step s move
  rcases List.mem_append.1 (hnew ▸ he) with he | he
  · exact Nat.lt_of_lt_of_le (h e he) hle
  · exact Nat.lt_of_lt_of_le (hbegun e he) hle

/-- Call `i`, about this session, has returned a lease it acquired. -/
def DirectoryState.Acquired (s : DirectoryState) (c : CommunityId) (sid : Uuid) (i : Nat)
    (lease : SessionLease) : Prop :=
  ∃ call, s.calls[i]? = some call ∧ call.operation.session = (c, sid) ∧
    call.phase = .returned (.ok (.acquired lease))

theorem DirectoryOk.minted_of_acquired (h : DirectoryOk c sid s) {i : Nat} {lease : SessionLease}
    (ha : s.Acquired c sid i lease) : (i, lease) ∈ s.mintedFor c sid := by
  obtain ⟨call, hcall, hsession, hphase⟩ := ha
  have hok := h.calls i call hcall hsession
  unfold CallOk at hok
  rw [hphase] at hok
  exact hok

/-- Generations grow along the log. -/
theorem SlotOk.pairwise {m : List (Nat × SessionLease)} {r : Redis} (h : SlotOk c sid m r) :
    m.Pairwise (fun e e' => e.2.generation < e'.2.generation) := by
  have hpairwise : (m.map (·.2.generation)).Pairwise (· < ·) := by
    rw [h.numbered]
    exact List.pairwise_lt_range'
  exact List.pairwise_map.1 hpairwise

end Runs

/-- In every run, at any moment of it and at any later one: generations are
handed out in growing order, the store holds the newest lease or none, a frame
passes exactly for the lease in the store and so never for a generation behind
one that was handed out, and nobody but the holder can renew or remove it. -/
theorem session_leases_fenced (now : Nat) (ms later : List DirectoryMove) (c : CommunityId)
    (sid : Uuid)
    (hfew : (((sessionDirectory now).run (ms ++ later)).mintedFor c sid).length < 10 ^ 14) :
    let s := (sessionDirectory now).run ms
    let s' := (sessionDirectory now).run (ms ++ later)
    (s.mintedFor c sid).Pairwise (fun e e' => e.2.generation < e'.2.generation) ∧
    (∀ i lease, s.Acquired c sid i lease → (i, lease) ∈ s.mintedFor c sid) ∧
    (∀ i lease j lease', s.Acquired c sid i lease → s.calls.length ≤ j →
      s'.Acquired c sid j lease' → lease.generation < lease'.generation) ∧
    (∃ stored, lookupLease s.redis c sid = .ok stored ∧
      ∀ lease ∈ stored, (∃ i, (i, lease) ∈ s.mintedFor c sid) ∧
        ∀ e ∈ s.mintedFor c sid, e.2.generation ≤ lease.generation) ∧
    (∀ f : FencedHeader, f.sessionId = sid →
      (validateFencedHeader s.redis c f = .ok () ↔
        ∃ lease, lookupLease s.redis c sid = .ok (some lease) ∧
          lease.ownerRuntimeId = f.ownerRuntimeId ∧ lease.generation = f.generation)) ∧
    (∀ e ∈ s.mintedFor c sid, ∀ f : FencedHeader, f.sessionId = sid →
      f.generation < e.2.generation → validateFencedHeader s'.redis c f ≠ .ok ()) ∧
    (∀ i call lease, s.calls[i]? = some call →
      call.operation = .renew lease ∨ call.operation = .release lease →
      call.operation.session = (c, sid) → ¬Holds s.redis lease →
      (s.step (.exec i)).redis = s.redis) ∧
    (∀ i call lease reached, s.calls[i]? = some call → call.phase = .discarding lease →
      (lease.communityId, lease.sessionId) = (c, sid) → ¬Holds s.redis lease →
      (s.step (.discard i reached)).redis = s.redis) := by
  intro s s'
  obtain ⟨new, hnew⟩ : ∃ new, s'.mintedFor c sid = s.mintedFor c sid ++ new := by
    show ∃ new, ((sessionDirectory now).run (ms ++ later)).mintedFor c sid = _
    rw [Machine.run_append]
    exact mintedFor_runFrom now s later
  have hfew₀ : (s.mintedFor c sid).length < 10 ^ 14 := by
    rw [hnew, List.length_append] at hfew
    omega
  have hok : DirectoryOk c sid s := directoryOk_run now ms hfew₀
  have hok' : DirectoryOk c sid s' := directoryOk_run now (ms ++ later) hfew
  refine ⟨hok.slot.pairwise, fun i lease => hok.minted_of_acquired, ?_, ?_,
    fun f hf => hok.slot.validate hfew₀ hf, ?_, ?_, ?_⟩
  · intro i lease j lease' ha hj ha'
    have hmem := hok.minted_of_acquired ha
    have hmem' := hok'.minted_of_acquired ha'
    have hpairwise := hok'.slot.pairwise
    rw [hnew] at hmem' hpairwise
    -- the later call's generation was not counted before it began
    rcases List.mem_append.1 hmem' with hold | hnew'
    · have hbegun : j < s.calls.length := mintedFor_begun now ms _ hold
      omega
    · exact (List.pairwise_append.1 hpairwise).2.2 _ hmem _ hnew'
  · rcases hok.slot.lookupLease hfew₀ with hnone | ⟨e, he, hgeneration, hsome⟩
    · exact ⟨none, hnone, by nofun⟩
    · refine ⟨some e.2, hsome, fun lease hlease => ?_⟩
      cases hlease
      refine ⟨⟨e.1, he⟩, fun e' he' => ?_⟩
      have := (hok.slot.generation_pos he').2
      omega
  · intro e he f hf hlt haccept
    obtain ⟨lease, hlease, -, hgeneration⟩ := (hok'.slot.validate hfew hf).1 haccept
    have he' : e ∈ s'.mintedFor c sid := by
      rw [hnew]
      exact List.mem_append_left _ he
    have hle := (hok'.slot.generation_pos he').2
    rcases hok'.slot.lookupLease hfew with hnone | ⟨e', -, hgeneration', hsome⟩
    · rw [hnone] at hlease
      cases hlease
    · rw [hsome] at hlease
      cases hlease
      omega
  · intro i call lease hcall hop hsession hno
    show (s.onCall i _).redis = s.redis
    rw [onCall_of_some hcall]
    by_cases hpending : call.pending = true
    · rw [exec_eq hpending]
      rcases hop with hop | hop
      · rw [hop] at hsession ⊢
        cases hsession
        exact hok.slot.renew_stranger hfew₀ hno _
      · rw [hop] at hsession ⊢
        cases hsession
        exact hok.slot.release_stranger hfew₀ hno
    · unfold DirectoryState.exec
      rw [if_neg hpending]
  · intro i call lease reached hcall hphase hsession hno
    show (s.onCall i _).redis = s.redis
    rw [onCall_of_some hcall]
    unfold DirectoryState.discard
    rw [hphase]
    cases hsession
    cases reached with
    | false => rfl
    | true => exact hok.slot.release_stranger hfew₀ hno

/-- The first runtime's lease runs out, the second one takes the session over,
and the first one comes back with a renewal and a release. -/
def takeoverMoves : List DirectoryMove :=
  let c : CommunityId := ⟨.ofByte 1⟩
  let sid : Uuid := .ofByte 2
  let first : SessionLease := ⟨c, sid, .ofByte 1, 1, .huddleControl⟩
  [.call (.acquire c sid (.ofByte 1) .huddleControl) 30000, .exec 0, .settle 0 true true,
    .tick 30001, .call (.acquire c sid (.ofByte 2) .huddleControl) 30000, .exec 1,
    .settle 1 true true, .call (.renew first) 30000, .call (.release first) 30000]

theorem session_leases_fenced_takeover :
    let s := (sessionDirectory 0).run takeoverMoves
    let c : CommunityId := ⟨.ofByte 1⟩
    let sid : Uuid := .ofByte 2
    s.Acquired c sid 0 ⟨c, sid, .ofByte 1, 1, .huddleControl⟩ ∧
    s.Acquired c sid 1 ⟨c, sid, .ofByte 2, 2, .huddleControl⟩ ∧
    validateFencedHeader s.redis c ⟨sid, 2, .ofByte 2⟩ = .ok () ∧
    ∀ f : FencedHeader, f.sessionId = sid → f.generation < 2 →
      validateFencedHeader
        ((sessionDirectory 0).run (takeoverMoves ++ [.exec 2, .exec 3])).redis c f ≠ .ok () := by
  intro s c sid
  have hfew : (((sessionDirectory 0).run (takeoverMoves ++ [.exec 2, .exec 3])).mintedFor
      c sid).length < 10 ^ 14 := by decide +kernel
  obtain ⟨-, hminted, -, -, -, hstale, -, -⟩ :=
    session_leases_fenced 0 takeoverMoves [.exec 2, .exec 3] c sid hfew
  have hfirst : s.Acquired c sid 0 ⟨c, sid, .ofByte 1, 1, .huddleControl⟩ :=
    ⟨⟨.acquire c sid (.ofByte 1) .huddleControl, 30000, false, .returned (.ok (.acquired _))⟩,
      by decide +kernel, rfl, rfl⟩
  have hsecond : s.Acquired c sid 1 ⟨c, sid, .ofByte 2, 2, .huddleControl⟩ :=
    ⟨⟨.acquire c sid (.ofByte 2) .huddleControl, 30000, false, .returned (.ok (.acquired _))⟩,
      by decide +kernel, rfl, rfl⟩
  refine ⟨hfirst, hsecond, by decide +kernel, fun f hf hlt => ?_⟩
  exact hstale _ (hminted 1 _ hsecond) f hf hlt

end Buzz.Relay
