import Buzz.Auth.Command
import Buzz.Proofs.DenyMap

/-!
# Slots and denials of the pods

The pending slots of a shard are those of the calls that wait on that pod for
that issuer, no more and no less. So a call that ends gives back exactly what it
held, whatever came in between, and a commit always finds its slots.
-/

namespace Buzz.Auth

open Buzz.Lib NipFiDenyMap

/-! ## The deny map, shard by shard -/

namespace NipFiDenyMap

variable {m : NipFiDenyMap} {issuer issuer' : String} {s : IssuerShard}
  {jti : String}

theorem shard_setShard (m : NipFiDenyMap) (issuer issuer' : String) (s : IssuerShard) :
    (m.setShard issuer s).shard issuer' = if issuer' = issuer then s else m.shard issuer' := by
  show ((m.shards.insert issuer s).lookup issuer').getD _ = _
  rw [HMap.lookup_insert_ite]
  split
  · rfl
  · rfl

theorem isDenied_eq (m : NipFiDenyMap) (issuer : String) (key : PublicKey) (t : Int) :
    m.isDenied issuer key t = (m.shard issuer).isDenied key t := by
  unfold isDenied shard
  cases m.shards.lookup issuer with
  | none => rfl
  | some s => rfl

/-- A shard somebody waits on is there. -/
theorem lookup_of_pending (h : jti ∈ (m.shard issuer).pendingJtis) :
    m.shards.lookup issuer = some (m.shard issuer) := by
  unfold shard at h ⊢
  cases hissuer : m.shards.lookup issuer with
  | none =>
      rw [hissuer] at h
      exact absurd h (Finset.notMem_empty jti)
  | some s => rfl

theorem shard_release {key : PublicKey} (h : jti ∈ (m.shard issuer).pendingJtis)
    (issuer' : String) :
    (m.release issuer jti key).shard issuer' =
      if issuer' = issuer then (m.shard issuer).release jti key else m.shard issuer' := by
  unfold release
  rw [lookup_of_pending h]
  exact shard_setShard m issuer issuer' _

theorem shard_commit {key : PublicKey} {effectiveExpiry deniedUntil : Int}
    (h : jti ∈ (m.shard issuer).pendingJtis) (issuer' : String) :
    (m.commit issuer jti effectiveExpiry key deniedUntil).shard issuer' =
      if issuer' = issuer then (m.shard issuer).commit jti effectiveExpiry key deniedUntil
      else m.shard issuer' := by
  unfold commit
  rw [lookup_of_pending h]
  exact shard_setShard m issuer issuer' _

end NipFiDenyMap

/-- The call waits on this pod, for this issuer. -/
def VerifyCall.waitsAt (c : VerifyCall) (pod : Nat) (issuer : String) : Bool :=
  c.phase = .awaiting && c.pod = pod && c.cmd.issuer = issuer

/-! ## The invariant -/

/-- A shard and the calls that wait on it. -/
structure ShardInv (policies : CommandPolicies) (calls : List VerifyCall) (pod : Nat)
    (issuer : String) (s : IssuerShard) : Prop where
  bounded : s.Bounded
  listed : s.HeldListed
  jtis : ∀ j : String, calls.countP (fun c => c.waitsAt pod issuer && c.cmd.jti = j) =
    if j ∈ s.pendingJtis then 1 else 0
  held : ∀ key : PublicKey,
    s.held key = calls.countP fun c => c.waitsAt pod issuer && c.cmd.targetPubkey = key
  jtiBudget : s.maxJtiCount ≤ 2 * s.capacity
  capacity : ∀ pol, policies.lookup issuer = some pol → s.capacity = pol.2.denySetCapacity

/-- Every shard of every pod is sound, and a denial that was given stands. -/
structure DenyInv (policies : CommandPolicies) (s : Cluster) : Prop where
  shards : ∀ (i : Nat) (p : Pod) (issuer : String), s.pods[i]? = some p →
    ShardInv policies s.calls i issuer (p.denyMap.shard issuer)
  denied : ∀ (i : Nat) (p : Pod) (issuer : String) (key : PublicKey) (t : Int),
    s.pods[i]? = some p → (∀ x ∈ p.given, x ≤ t) →
    (p.denyMap.isDenied issuer key t ↔ ∃ u, (issuer, key, u) ∈ p.entered ∧ t < u)

namespace ShardInv

variable {policies : CommandPolicies} {calls calls' : List VerifyCall} {pod : Nat}
  {issuer : String} {s s' : IssuerShard} {c : VerifyCall}

section

variable (h : ShardInv policies calls pod issuer s)
include h

theorem trimmed {now : Int} (htrim : IssuerShard.Trimmed s s' now) :
    ShardInv policies calls pod issuer s' where
  bounded := htrim.bounded h.bounded
  listed k := by
    rw [htrim.pendingKeys]
    exact h.listed k
  jtis j := by
    rw [htrim.pendingJtis]
    exact h.jtis j
  held key := by
    rw [← h.held key]
    unfold IssuerShard.held
    rw [htrim.pendingKeys]
  jtiBudget := by
    rw [htrim.maxJtiCount, htrim.capacity]
    exact h.jtiBudget
  capacity pol hpol := by
    rw [htrim.capacity]
    exact h.capacity pol hpol

/-- Calls change, and nothing changes for this shard. -/
theorem calls_congr
    (hcount : ∀ f : AuthenticatedCommand → Bool,
      calls'.countP (fun c => c.waitsAt pod issuer && f c.cmd) =
      calls.countP fun c => c.waitsAt pod issuer && f c.cmd) :
    ShardInv policies calls' pod issuer s where
  bounded := h.bounded
  listed := h.listed
  jtis j := (hcount fun cmd => cmd.jti = j).trans (h.jtis j)
  held key := (h.held key).trans (hcount fun cmd => cmd.targetPubkey = key).symm
  jtiBudget := h.jtiBudget
  capacity := h.capacity

/-- A call begins to wait. -/
theorem hold (hc : c.waitsAt pod issuer) (hfresh : c.cmd.jti ∉ s.pendingJtis)
    (hbounded : (s.hold c.cmd.jti c.cmd.targetPubkey).Bounded) :
    ShardInv policies (calls ++ [c]) pod issuer (s.hold c.cmd.jti c.cmd.targetPubkey) where
  bounded := hbounded
  listed := IssuerShard.hold_heldListed h.listed _ _
  jtis j := by
    rw [List.countP_append, h.jtis j]
    show _ = if j ∈ insert c.cmd.jti s.pendingJtis then 1 else 0
    by_cases hj : c.cmd.jti = j
    · subst hj
      simp [hc, hfresh]
    · simp [hj, Ne.symm hj]
  held key := by
    rw [List.countP_append, IssuerShard.hold_held, h.held key]
    congr 1
    by_cases hkey : c.cmd.targetPubkey = key
    · simp [hkey, hc]
    · simp [hkey, Ne.symm hkey]
  jtiBudget := h.jtiBudget
  capacity := h.capacity

/-- The slots of a call that waits. -/
theorem slots {i : Nat} (hc : calls[i]? = some c)
    (hwaits : c.waitsAt pod issuer) :
    c.cmd.jti ∈ s.pendingJtis ∧ (s.pendingKeys.lookup c.cmd.targetPubkey).isSome := by
  have hmem : c ∈ calls := List.mem_of_getElem? hc
  constructor
  · by_contra hjti
    have hzero := h.jtis c.cmd.jti
    rw [if_neg hjti, List.countP_eq_zero] at hzero
    exact hzero c hmem (by simp [hwaits])
  · rw [h.listed.isSome, h.held, List.countP_pos_iff]
    exact ⟨c, hmem, by simp [hwaits]⟩

/-- A call that waited ends. -/
theorem release {i : Nat} {c' : VerifyCall} (hc : calls[i]? = some c)
    (hwaits : c.waitsAt pod issuer) (hended : c'.waitsAt pod issuer = false) :
    ShardInv policies (calls.set i c') pod issuer (s.release c.cmd.jti c.cmd.targetPubkey) where
  bounded := IssuerShard.release_bounded h.bounded _ _
  listed := IssuerShard.release_heldListed h.listed _ _
  jtis j := by
    rw [countP_set_some hc, h.jtis j]
    show _ = if j ∈ s.pendingJtis.erase c.cmd.jti then 1 else 0
    by_cases hj : c.cmd.jti = j
    · subst hj
      simp [hwaits, hended, (h.slots hc hwaits).1]
    · simp [hj, hended, Ne.symm hj]
  held key := by
    rw [countP_set_some hc, IssuerShard.release_held, h.held key]
    by_cases hkey : c.cmd.targetPubkey = key
    · simp [hkey, hwaits, hended]
    · simp [hkey, hended, Ne.symm hkey]
  jtiBudget := h.jtiBudget
  capacity := h.capacity

/-- Entries and `jti`s are written into slots that are held. -/
theorem commit {i : Nat} {c' : VerifyCall} (hc : calls[i]? = some c)
    (hwaits : c.waitsAt pod issuer) (hended : c'.waitsAt pod issuer = false)
    (effectiveExpiry deniedUntil : Int) :
    ShardInv policies (calls.set i c') pod issuer
      (s.commit c.cmd.jti effectiveExpiry c.cmd.targetPubkey deniedUntil) where
  bounded := by
    obtain ⟨hjti, hkey⟩ := h.slots hc hwaits
    exact IssuerShard.commit_bounded h.bounded hjti hkey effectiveExpiry deniedUntil
  listed := (h.release hc hwaits hended).listed
  jtis := (h.release hc hwaits hended).jtis
  held := (h.release hc hwaits hended).held
  jtiBudget := h.jtiBudget
  capacity := h.capacity

theorem merge {key : PublicKey} {deniedUntil : Int}
    (hbounded : (s.mergeUntil key deniedUntil).Bounded) :
    ShardInv policies calls pod issuer (s.mergeUntil key deniedUntil) :=
  ⟨hbounded, h.listed, h.jtis, h.held, h.jtiBudget, h.capacity⟩

end

end ShardInv

/-! ## What a move does -/

/-- What `authenticate_at` has checked of a command. -/
structure Authentic (policies : CommandPolicies) (cmd : AuthenticatedCommand) (now : Int) :
    Prop where
  unexpired : now < cmd.effectiveExpiry
  policy : ∃ pol, policies.lookup cmd.issuer = some pol ∧
    cmd.skewSeconds = pol.1.skewSeconds ∧ cmd.effectiveExpiry - now ≤
      seconds pol.1.skewSeconds + seconds pol.2.maximumCommandAgeSeconds

theorem require_eq_ok {α : Type} {x : Option α} {a : α} (h : require x = .ok a) :
    x = some a := by
  unfold require at h
  split at h
  · cases h
    rfl
  · cases h

theorem check_eq_ok {b : Bool} {e : CommandError} {u : Unit} (h : check b e = .ok u) :
    b = true := by
  unfold check at h
  split at h
  · assumption
  · cases h

theorem bind_eq_ok {α β : Type} {x : Except CommandError α} {f : α → Except CommandError β}
    {b : β} (h : x >>= f = .ok b) : ∃ a, x = .ok a ∧ f a = .ok b := by
  cases x with
  | error e => cases h
  | ok a => exact ⟨a, rfl, h⟩

theorem checkedAdd_eq_some {t r : Int} {d : Int} (h : checkedAdd t d = some r) : r = t + d := by
  unfold checkedAdd at h
  split at h
  · exact (Option.some.inj h).symm
  · cases h

theorem authenticateAt_authentic {policies : CommandPolicies} {claims : CommandClaims}
    {request : CommandRequest} {now : Int} {cmd : AuthenticatedCommand}
    (h : authenticateAt policies claims request now = .ok cmd) :
    Authentic policies cmd now ∧ cmd.issuer = claims.iss := by
  unfold authenticateAt at h
  obtain ⟨pol, hpol, h⟩ := bind_eq_ok h
  obtain ⟨_, -, h⟩ := bind_eq_ok h
  obtain ⟨iat, -, h⟩ := bind_eq_ok h
  obtain ⟨exp, -, h⟩ := bind_eq_ok h
  obtain ⟨iatPlusAge, hage, h⟩ := bind_eq_ok h
  obtain ⟨_, hexp, h⟩ := bind_eq_ok h
  obtain ⟨nowPlusSkew, hskew, h⟩ := bind_eq_ok h
  obtain ⟨_, hiat, h⟩ := bind_eq_ok h
  obtain ⟨_, hnow, h⟩ := bind_eq_ok h
  obtain ⟨_, -, h⟩ := bind_eq_ok h
  obtain ⟨_, -, h⟩ := bind_eq_ok h
  obtain ⟨_, -, h⟩ := bind_eq_ok h
  obtain ⟨_, -, h⟩ := bind_eq_ok h
  obtain ⟨_, -, h⟩ := bind_eq_ok h
  obtain ⟨_, -, h⟩ := bind_eq_ok h
  obtain ⟨_, -, h⟩ := bind_eq_ok h
  obtain ⟨_, -, h⟩ := bind_eq_ok h
  obtain ⟨_, -, h⟩ := bind_eq_ok h
  obtain ⟨_, -, h⟩ := bind_eq_ok h
  obtain ⟨_, -, h⟩ := bind_eq_ok h
  obtain ⟨_, -, h⟩ := bind_eq_ok h
  obtain ⟨_, -, h⟩ := bind_eq_ok h
  obtain ⟨_, -, h⟩ := bind_eq_ok h
  obtain ⟨_, -, h⟩ := bind_eq_ok h
  cases h
  have hage := checkedAdd_eq_some (require_eq_ok hage)
  have hskew := checkedAdd_eq_some (require_eq_ok hskew)
  have hexp : now < exp := by simpa using check_eq_ok hexp
  have hiat : iat ≤ nowPlusSkew := by simpa using check_eq_ok hiat
  have hnow : now < iatPlusAge := by simpa using check_eq_ok hnow
  refine ⟨⟨lt_min hexp hnow, pol, require_eq_ok hpol, rfl, ?_⟩, rfl⟩
  show min exp iatPlusAge - now ≤ _
  have hmin : min exp iatPlusAge ≤ iatPlusAge := min_le_right _ _
  omega

/-- How `verify` goes up to its claim. -/
inductive Begins (policies : CommandPolicies) (p : Pod)
    (evidence : Except CommandError CommandClaims) (now : Int) : Pod × Cluster.Begun → Prop where
  | unauthentic (e : CommandError) : Begins policies p evidence now (p, .refused e)
  | refused {claims : CommandClaims} {s : IssuerShard} (e : CommandError)
      (hclaims : evidence = .ok claims)
      (htrim : IssuerShard.Trimmed (p.denyMap.shard claims.iss) s now) :
      Begins policies p evidence now
        ({ p with denyMap := p.denyMap.setShard claims.iss s, given := p.given ++ [now] },
          .refused e)
  | held {claims : CommandClaims} {cmd : AuthenticatedCommand} {s : IssuerShard}
      (hclaims : evidence = .ok claims) (hissuer : cmd.issuer = claims.iss)
      (hauth : Authentic policies cmd now)
      (htrim : IssuerShard.Trimmed (p.denyMap.shard cmd.issuer) s now)
      (hfresh : cmd.jti ∉ (p.denyMap.shard cmd.issuer).pendingJtis)
      (hbounded : (s.hold cmd.jti cmd.targetPubkey).Bounded) :
      Begins policies p evidence now
        ({ p with
            denyMap := p.denyMap.setShard cmd.issuer (s.hold cmd.jti cmd.targetPubkey)
            given := p.given ++ [now] },
          .held cmd)

theorem begin_spec {policies : CommandPolicies} {p : Pod}
    (hbounded : ∀ issuer, (p.denyMap.shard issuer).Bounded)
    (evidence : Except CommandError CommandClaims) (request : CommandRequest) (now : Int) :
    Begins policies p evidence now (Cluster.begin policies p evidence request now) := by
  unfold Cluster.begin
  split
  · exact .unauthentic _
  · next cmd hcmd =>
      cases evidence with
      | error e => cases hcmd
      | ok claims =>
          obtain ⟨hauth, hissuer⟩ := authenticateAt_authentic hcmd
          have hreserve := IssuerShard.reserve_spec (hbounded cmd.issuer) cmd.jti
            cmd.targetPubkey now
          unfold reserve
          generalize (p.denyMap.shard cmd.issuer).reserve cmd.jti cmd.targetPubkey now = r
            at hreserve
          cases hreserve with
          | @refused s e htrim =>
              rw [hissuer] at htrim ⊢
              cases e with
              | jtiAlreadyReserved => exact .refused _ rfl htrim
              | capacityExceeded => exact .refused _ rfl htrim
          | granted htrim hfresh hheld => exact .held rfl hissuer hauth htrim hfresh hheld

/-- How `merge_cross_pod_deny` goes. -/
inductive MapMerges (m : NipFiDenyMap) (issuer : String) (key : PublicKey)
    (deniedUntil now : Int) : NipFiDenyMap × CrossPodMergeResult → Prop where
  | unknown : MapMerges m issuer key deniedUntil now (m, .unknownIssuer)
  | refused {s : IssuerShard} (htrim : IssuerShard.Trimmed (m.shard issuer) s now) :
      MapMerges m issuer key deniedUntil now (m.setShard issuer s, .capacityExceeded)
  | entered {s : IssuerShard} (htrim : IssuerShard.Trimmed (m.shard issuer) s now)
      (hbounded : (s.mergeUntil key deniedUntil).Bounded) :
      MapMerges m issuer key deniedUntil now
        (m.setShard issuer (s.mergeUntil key deniedUntil), .merged)

theorem mergeCrossPodDeny_spec {m : NipFiDenyMap} {issuer : String}
    (hbounded : (m.shard issuer).Bounded) (key : PublicKey) (deniedUntil now : Int) :
    MapMerges m issuer key deniedUntil now
      (m.mergeCrossPodDeny issuer key deniedUntil now) := by
  unfold mergeCrossPodDeny
  cases hissuer : m.shards.lookup issuer with
  | none => exact .unknown
  | some s =>
      have hshard : s = m.shard issuer := by
        unfold shard
        rw [hissuer]
        rfl
      have hmerge := IssuerShard.mergeEntry_spec hbounded key deniedUntil now
      rw [hshard]
      dsimp only
      generalize (m.shard issuer).mergeEntry key deniedUntil now = r at hmerge
      cases hmerge with
      | refused htrim => exact .refused htrim
      | entered htrim hentered => exact .entered htrim hentered

/-- Everything a move can do to the cluster. -/
inductive ClusterStep (policies : CommandPolicies) (s : Cluster) : ClusterMove → Cluster → Prop
    where
  | skip (m : ClusterMove) : ClusterStep policies s m s
  | tick (nanos : Nat) : ClusterStep policies s (.tick nanos) { s with time := s.time + nanos }
  | trimVerify {i : Nat} {p : Pod} {claims : CommandClaims} {request : CommandRequest}
      {sh : IssuerShard} (hp : s.pods[i]? = some p)
      (htrim : IssuerShard.Trimmed (p.denyMap.shard claims.iss) sh (s.time + p.offset)) :
      ClusterStep policies s (.verify i (.ok claims) request)
        (s.setPod i { p with
          denyMap := p.denyMap.setShard claims.iss sh
          given := p.given ++ [s.time + p.offset] })
  | hold {i : Nat} {p : Pod} {claims : CommandClaims} {request : CommandRequest}
      {cmd : AuthenticatedCommand} {sh : IssuerShard} (hp : s.pods[i]? = some p)
      (hissuer : cmd.issuer = claims.iss)
      (hauth : Authentic policies cmd (s.time + p.offset))
      (htrim : IssuerShard.Trimmed (p.denyMap.shard cmd.issuer) sh (s.time + p.offset))
      (hfresh : cmd.jti ∉ (p.denyMap.shard cmd.issuer).pendingJtis)
      (hbounded : (sh.hold cmd.jti cmd.targetPubkey).Bounded) :
      ClusterStep policies s (.verify i (.ok claims) request)
        { s.setPod i { p with
            denyMap := p.denyMap.setShard cmd.issuer (sh.hold cmd.jti cmd.targetPubkey)
            given := p.given ++ [s.time + p.offset] } with
          calls := s.calls ++
            [{ pod := i, cmd, now := s.time + p.offset, readAt := s.time }] }
  | claimed {i : Nat} {c : VerifyCall} (hc : s.calls[i]? = some c) (hfirst : c.applied = none)
      (hfree : ∀ e, s.claims.lookup (c.cmd.issuer, c.cmd.jti) = some e → e ≤ s.time) :
      ClusterStep policies s (.apply i)
        { s with
            claims := s.claims.insert (c.cmd.issuer, c.cmd.jti)
              (s.time + seconds (Cluster.claimTtl c))
            calls := s.calls.set i { c with applied := some (s.time, true) } }
  | replayed {i : Nat} {c : VerifyCall} (hc : s.calls[i]? = some c) (hfirst : c.applied = none) :
      ClusterStep policies s (.apply i)
        { s with calls := s.calls.set i { c with applied := some (s.time, false) } }
  | accept {i : Nat} {c : VerifyCall} {t : Int} (hc : s.calls[i]? = some c)
      (hwaits : c.phase = .awaiting) (happlied : c.applied = some (t, true)) :
      ClusterStep policies s (.reply i) (s.finish i c .ok)
  | fail {i : Nat} {c : VerifyCall} {phase : CallPhase} {m : ClusterMove}
      (hm : m = .reply i ∨ m = .claimError i ∨ m = .drop i)
      (hc : s.calls[i]? = some c) (hwaits : c.phase = .awaiting) (hok : phase ≠ .ok)
      (hended : phase ≠ .awaiting) :
      ClusterStep policies s m (s.finish i c phase)
  | unknown {i : Nat} {p : Pod} {issuer : String} {key : PublicKey} {deniedUntil now : Int}
      (hp : s.pods[i]? = some p) :
      ClusterStep policies s (.merge i issuer key deniedUntil now)
        (s.setPod i { p with given := p.given ++ [now] })
  | trimMerge {i : Nat} {p : Pod} {issuer : String} {key : PublicKey} {deniedUntil now : Int}
      {sh : IssuerShard} (hp : s.pods[i]? = some p)
      (htrim : IssuerShard.Trimmed (p.denyMap.shard issuer) sh now) :
      ClusterStep policies s (.merge i issuer key deniedUntil now)
        (s.setPod i { p with
          denyMap := p.denyMap.setShard issuer sh, given := p.given ++ [now] })
  | merge {i : Nat} {p : Pod} {issuer : String} {key : PublicKey} {deniedUntil now : Int}
      {sh : IssuerShard} (hp : s.pods[i]? = some p)
      (htrim : IssuerShard.Trimmed (p.denyMap.shard issuer) sh now)
      (hbounded : (sh.mergeUntil key deniedUntil).Bounded) :
      ClusterStep policies s (.merge i issuer key deniedUntil now)
        (s.setPod i { p with
          denyMap := p.denyMap.setShard issuer (sh.mergeUntil key deniedUntil)
          given := p.given ++ [now]
          entered := p.entered ++ [(issuer, key, deniedUntil)] })

namespace Cluster

variable {policies : CommandPolicies} {s : Cluster}

theorem apply_spec (i : Nat) : ClusterStep policies s (.apply i) (s.step policies (.apply i)) := by
  simp only [step]
  split
  · exact .skip _
  · next c hc =>
      split
      · exact .skip _
      · next hfirst =>
          rw [Option.not_isSome_iff_eq_none] at hfirst
          unfold setNx
          by_cases htaken : (s.claims.lookup (c.cmd.issuer, c.cmd.jti)).any (s.time < ·)
          · simp only [htaken, if_true]
            exact .replayed hc hfirst
          · simp only [htaken]
            refine .claimed hc hfirst fun e he => ?_
            rw [he] at htaken
            simpa using htaken

theorem verify_spec (hinv : DenyInv policies s) (i : Nat)
    (evidence : Except CommandError CommandClaims) (request : CommandRequest) :
    ClusterStep policies s (.verify i evidence request)
      (s.step policies (.verify i evidence request)) := by
  cases hp : s.pods[i]? with
  | none =>
      have hsame : s.step policies (.verify i evidence request) = s := by simp only [step, hp]
      rw [hsame]
      exact .skip _
  | some p =>
      have hbegin : Begins policies p evidence (s.time + p.offset) _ :=
        begin_spec (fun issuer => (hinv.shards i p issuer hp).bounded) evidence request
          (s.time + p.offset)
      simp only [step, hp]
      generalize begin policies p evidence request (s.time + p.offset) = r at hbegin
      cases hbegin with
      | unauthentic e =>
          have hsame : s.setPod i p = s := by
            obtain ⟨hlt, hget⟩ := List.getElem?_eq_some_iff.1 hp
            unfold setPod
            rw [← hget, List.set_getElem_self hlt]
          dsimp only
          rw [hsame]
          exact .skip _
      | refused e hclaims htrim =>
          subst hclaims
          exact .trimVerify hp htrim
      | held hclaims hissuer hauth htrim hfresh hbounded =>
          subst hclaims
          exact .hold hp hissuer hauth htrim hfresh hbounded

theorem reply_spec (i : Nat) : ClusterStep policies s (.reply i) (s.step policies (.reply i)) := by
  simp only [step]
  split
  · exact .skip _
  · next c hc =>
      split
      · next hwaits happlied => exact .accept hc hwaits happlied
      · next hwaits happlied =>
          exact .fail (.inl rfl) hc hwaits (fun h => by cases h) (fun h => by cases h)
      · exact .skip _

theorem merge_spec (hinv : DenyInv policies s) (i : Nat) (issuer : String) (key : PublicKey)
    (deniedUntil now : Int) :
    ClusterStep policies s (.merge i issuer key deniedUntil now)
      (s.step policies (.merge i issuer key deniedUntil now)) := by
  cases hp : s.pods[i]? with
  | none =>
      have hsame : s.step policies (.merge i issuer key deniedUntil now) = s := by
        simp only [step, hp]
      rw [hsame]
      exact .skip _
  | some p =>
      have hmerge := mergeCrossPodDeny_spec (hinv.shards i p issuer hp).bounded key
        deniedUntil now
      simp only [step, hp]
      generalize p.denyMap.mergeCrossPodDeny issuer key deniedUntil now = r at hmerge
      cases hmerge with
      | unknown => exact .unknown hp
      | refused htrim => exact .trimMerge hp htrim
      | entered htrim hbounded => exact .merge hp htrim hbounded

theorem step_spec (hinv : DenyInv policies s) (m : ClusterMove) :
    ClusterStep policies s m (s.step policies m) := by
  cases m with
  | tick nanos => exact .tick nanos
  | verify i evidence request => exact verify_spec hinv i evidence request
  | apply i => exact apply_spec i
  | reply i => exact reply_spec i
  | claimError i =>
      simp only [step]
      split
      · exact .skip _
      · next c hc =>
          split
          · next hwaits =>
              exact .fail (.inr (.inl rfl)) hc hwaits (fun h => by cases h) (fun h => by cases h)
          · exact .skip _
  | drop i =>
      simp only [step]
      split
      · exact .skip _
      · next c hc =>
          split
          · next hwaits =>
              exact .fail (.inr (.inr rfl)) hc hwaits (fun h => by cases h) (fun h => by cases h)
          · exact .skip _
  | merge i issuer key deniedUntil now => exact merge_spec hinv i issuer key deniedUntil now

end Cluster

/-! ## Every move keeps the invariant -/

namespace DenyInv

variable {policies : CommandPolicies} {s s' : Cluster} {i k : Nat} {p : Pod}
  {issuer : String} {sh : IssuerShard} {c : VerifyCall}

section

variable (hinv : DenyInv policies s)
include hinv

/-- A pod's shard is written, and the calls stay. -/
theorem setShard {given : List Int} {entered : List (String × PublicKey × Int)}
    (hp : s.pods[i]? = some p) (hsh : ShardInv policies s.calls i issuer sh)
    (hdenied : ∀ (key : PublicKey) (t : Int), (∀ x ∈ given, x ≤ t) →
      (sh.isDenied key t ↔ ∃ u, (issuer, key, u) ∈ entered ∧ t < u))
    (hother : ∀ (issuer' : String) (key : PublicKey) (u : Int), issuer' ≠ issuer →
      ((issuer', key, u) ∈ entered ↔ (issuer', key, u) ∈ p.entered))
    (hgiven : ∀ x ∈ p.given, x ∈ given) :
    DenyInv policies (s.setPod i
      { p with denyMap := p.denyMap.setShard issuer sh, given, entered }) where
  shards j q issuer' hq := by
    rcases getElem?_set_cases hq with ⟨rfl, rfl, -⟩ | ⟨-, hq⟩
    · show ShardInv policies s.calls j issuer' ((p.denyMap.setShard issuer sh).shard issuer')
      rw [shard_setShard]
      split
      · next heq => exact heq ▸ hsh
      · exact hinv.shards j p issuer' hp
    · exact hinv.shards j q issuer' hq
  denied j q issuer' key t hq ht := by
    rcases getElem?_set_cases hq with ⟨rfl, rfl, -⟩ | ⟨-, hq⟩
    · dsimp only at ht ⊢
      rw [isDenied_eq, shard_setShard]
      split
      · next heq => exact heq ▸ hdenied key t ht
      · next hne =>
          rw [← isDenied_eq,
            hinv.denied j p issuer' key t hp fun x hx => ht x (hgiven x hx)]
          exact exists_congr fun u => and_congr_left fun _ => (hother issuer' key u hne).symm
    · exact hinv.denied j q issuer' key t hq ht

/-- What is denied, in a shard of a pod. -/
theorem shard_denied (hp : s.pods[i]? = some p) (issuer : String)
    (key : PublicKey) {t : Int} (ht : ∀ x ∈ p.given, x ≤ t) :
    (p.denyMap.shard issuer).isDenied key t ↔ ∃ u, (issuer, key, u) ∈ p.entered ∧ t < u := by
  rw [← isDenied_eq]
  exact hinv.denied i p issuer key t hp ht

theorem trim {now : Int} (hp : s.pods[i]? = some p)
    (htrim : IssuerShard.Trimmed (p.denyMap.shard issuer) sh now) :
    DenyInv policies (s.setPod i
      { p with denyMap := p.denyMap.setShard issuer sh, given := p.given ++ [now] }) := by
  refine hinv.setShard hp ((hinv.shards i p issuer hp).trimmed htrim) ?_
    (fun _ _ _ _ => Iff.rfl) (fun x hx => List.mem_append_left _ hx)
  intro key t ht
  rw [htrim.isDenied (ht now (by simp)) key]
  exact hinv.shard_denied hp issuer key fun x hx => ht x (List.mem_append_left _ hx)

omit hinv in
/-- One entry more denies its own key, for its own time. -/
theorem entered_snoc {entered : List (String × PublicKey × Int)}
    {key k : PublicKey} {deniedUntil t : Int} :
    (∃ u, (issuer, k, u) ∈ entered ++ [(issuer, key, deniedUntil)] ∧ t < u) ↔
      (∃ u, (issuer, k, u) ∈ entered ∧ t < u) ∨ (k = key ∧ t < deniedUntil) := by
  simp only [List.mem_append, List.mem_singleton, Prod.mk.injEq, true_and]
  constructor
  · rintro ⟨u, hu | ⟨rfl, rfl⟩, htu⟩
    · exact .inl ⟨u, hu, htu⟩
    · exact .inr ⟨rfl, htu⟩
  · rintro (⟨u, hu, htu⟩ | ⟨rfl, htu⟩)
    · exact ⟨u, .inl hu, htu⟩
    · exact ⟨deniedUntil, .inr ⟨rfl, rfl⟩, htu⟩

theorem merge {key : PublicKey} {deniedUntil now : Int}
    (hp : s.pods[i]? = some p)
    (htrim : IssuerShard.Trimmed (p.denyMap.shard issuer) sh now)
    (hbounded : (sh.mergeUntil key deniedUntil).Bounded) :
    DenyInv policies (s.setPod i { p with
      denyMap := p.denyMap.setShard issuer (sh.mergeUntil key deniedUntil)
      given := p.given ++ [now]
      entered := p.entered ++ [(issuer, key, deniedUntil)] }) := by
  refine hinv.setShard hp
    (((hinv.shards i p issuer hp).trimmed htrim).merge hbounded) ?_ ?_
    (fun x hx => List.mem_append_left _ hx)
  · intro k t ht
    have hsame := htrim.isDenied (ht now (by simp)) k
    have hbefore := hinv.shard_denied hp issuer k fun x hx => ht x (List.mem_append_left _ hx)
    rw [IssuerShard.mergeUntil_isDenied, hsame, Bool.or_eq_true, hbefore, entered_snoc,
      Bool.and_eq_true, decide_eq_true_eq, decide_eq_true_eq]
  · intro issuer' k u hne
    simp [hne]

theorem given (hp : s.pods[i]? = some p) (now : Int) :
    DenyInv policies (s.setPod i { p with given := p.given ++ [now] }) where
  shards j q issuer hq := by
    rcases getElem?_set_cases hq with ⟨rfl, rfl, -⟩ | ⟨-, hq⟩
    · exact hinv.shards j p issuer hp
    · exact hinv.shards j q issuer hq
  denied j q issuer key t hq ht := by
    rcases getElem?_set_cases hq with ⟨rfl, rfl, -⟩ | ⟨-, hq⟩
    · exact hinv.denied j p issuer key t hp fun x hx => ht x (List.mem_append_left _ hx)
    · exact hinv.denied j q issuer key t hq ht

omit hinv in
/-- A call counts where it waits, and only its command counts. -/
theorem countP_set_call {calls : List VerifyCall} {e : VerifyCall}
    (hc : calls[k]? = some c) (hcmd : e.cmd = c.cmd) {pod : Nat}
    (hwaits : e.waitsAt pod issuer = c.waitsAt pod issuer)
    (f : AuthenticatedCommand → Bool) :
    (calls.set k e).countP (fun c => c.waitsAt pod issuer && f c.cmd) =
      calls.countP fun c => c.waitsAt pod issuer && f c.cmd := by
  rw [countP_set_some hc, hwaits, hcmd]
  split
  · next hcounts =>
      have hpos : 0 < calls.countP fun c => c.waitsAt pod issuer && f c.cmd :=
        List.countP_pos_iff.2 ⟨c, List.mem_of_getElem? hc, hcounts⟩
      omega
  · omega

/-- A call learns what the store did. -/
theorem setCall {e : VerifyCall} (hc : s.calls[k]? = some c)
    (hcmd : e.cmd = c.cmd)
    (hwaits : ∀ pod issuer, e.waitsAt pod issuer = c.waitsAt pod issuer)
    (claims : HMap (String × String) Int) :
    DenyInv policies { s with claims, calls := s.calls.set k e } where
  shards i p issuer hp :=
    (hinv.shards i p issuer hp).calls_congr (countP_set_call hc hcmd (hwaits i issuer))
  denied := hinv.denied

/-- A call begins to wait. -/
theorem hold {now : Int} (hp : s.pods[i]? = some p) (hpod : c.pod = i)
    (hphase : c.phase = .awaiting)
    (htrim : IssuerShard.Trimmed (p.denyMap.shard c.cmd.issuer) sh now)
    (hfresh : c.cmd.jti ∉ (p.denyMap.shard c.cmd.issuer).pendingJtis)
    (hbounded : (sh.hold c.cmd.jti c.cmd.targetPubkey).Bounded) :
    DenyInv policies { s.setPod i { p with
        denyMap := p.denyMap.setShard c.cmd.issuer (sh.hold c.cmd.jti c.cmd.targetPubkey)
        given := p.given ++ [now] } with
      calls := s.calls ++ [c] } where
  shards j q issuer hq := by
    have helsewhere : ∀ r : IssuerShard, ShardInv policies s.calls j issuer r →
        c.waitsAt j issuer = false → ShardInv policies (s.calls ++ [c]) j issuer r := by
      intro r hr hwaits
      refine hr.calls_congr fun f => ?_
      rw [List.countP_append]
      simp [hwaits]
    rcases getElem?_set_cases hq with ⟨rfl, rfl, -⟩ | ⟨hne, hq⟩
    · dsimp only
      rw [shard_setShard]
      split
      · next heq =>
          subst heq
          have hwaits : c.waitsAt j c.cmd.issuer := by
            simp [VerifyCall.waitsAt, hphase, hpod]
          rw [← htrim.pendingJtis] at hfresh
          exact ((hinv.shards j p c.cmd.issuer hp).trimmed htrim).hold hwaits hfresh hbounded
      · next hne =>
          refine helsewhere _ (hinv.shards j p issuer hp) ?_
          simp [VerifyCall.waitsAt, Ne.symm hne]
    · refine helsewhere _ (hinv.shards j q issuer hq) ?_
      have hpod' : c.pod ≠ j := fun h => hne (h.symm.trans hpod)
      simp [VerifyCall.waitsAt, hpod']
  denied j q issuer key t hq ht := by
    rcases getElem?_set_cases hq with ⟨rfl, rfl, -⟩ | ⟨-, hq⟩
    · have htrimmed := (hinv.trim hp htrim).denied j _ issuer key t
        (List.getElem?_set_self (List.getElem?_eq_some_iff.1 hp).1) ht
      rw [isDenied_eq, shard_setShard] at htrimmed ⊢
      split at htrimmed
      · next heq =>
          rw [if_pos heq]
          exact htrimmed
      · next hne =>
          rw [if_neg hne]
          exact htrimmed
    · exact hinv.denied j q issuer key t hq ht

/-- A call that waited ends, and its pod's map is told. -/
theorem endCall {c' : VerifyCall} {p' : Pod} (hc : s.calls[k]? = some c)
    (hcmd : c'.cmd = c.cmd)
    (hended : ∀ pod issuer, c'.waitsAt pod issuer = false)
    (hp : s.pods[c.pod]? = some p)
    (hshard : ∀ issuer, issuer ≠ c.cmd.issuer →
      p'.denyMap.shard issuer = p.denyMap.shard issuer)
    (hinv' : ShardInv policies (s.calls.set k c') c.pod c.cmd.issuer
      (p'.denyMap.shard c.cmd.issuer))
    (hdenied : ∀ (issuer : String) (key : PublicKey) (t : Int), (∀ x ∈ p'.given, x ≤ t) →
      (p'.denyMap.isDenied issuer key t ↔ ∃ u, (issuer, key, u) ∈ p'.entered ∧ t < u)) :
    DenyInv policies ((s.setPod c.pod p').setCall k c') where
  shards j q issuer hq := by
    have helsewhere : ∀ r : IssuerShard, ShardInv policies s.calls j issuer r →
        c.waitsAt j issuer = false → ShardInv policies (s.calls.set k c') j issuer r :=
      fun r hr hwaits => hr.calls_congr
        (countP_set_call hc hcmd ((hended j issuer).trans hwaits.symm))
    rcases getElem?_set_cases hq with ⟨rfl, rfl, -⟩ | ⟨hne, hq⟩
    · by_cases hissuer : issuer = c.cmd.issuer
      · subst hissuer
        exact hinv'
      · rw [hshard issuer hissuer]
        refine helsewhere _ (hinv.shards c.pod p issuer hp) ?_
        simp [VerifyCall.waitsAt, Ne.symm hissuer]
    · refine helsewhere _ (hinv.shards j q issuer hq) ?_
      simp [VerifyCall.waitsAt, Ne.symm hne]
  denied j q issuer key t hq ht := by
    rcases getElem?_set_cases hq with ⟨rfl, rfl, -⟩ | ⟨-, hq⟩
    · exact hdenied issuer key t ht
    · exact hinv.denied j q issuer key t hq ht

theorem finish {phase : CallPhase} (hc : s.calls[k]? = some c)
    (hphase : c.phase = .awaiting) (hended : phase ≠ .awaiting) :
    DenyInv policies (s.finish k c phase) := by
  have hended' : ∀ pod issuer,
      ({ c with phase } : VerifyCall).waitsAt pod issuer = false := by
    intro pod issuer
    simp [VerifyCall.waitsAt, hended]
  have hwaits : c.waitsAt c.pod c.cmd.issuer := by simp [VerifyCall.waitsAt, hphase]
  cases hp : s.pods[c.pod]? with
  | none =>
      have hpods : s.finish k c phase = s.setCall k { c with phase } := by
        simp only [Cluster.finish, Cluster.commitSlot, Cluster.releaseSlot, hp, ite_self]
      rw [hpods]
      refine ⟨fun j q issuer hq => ?_, hinv.denied⟩
      have hq : s.pods[j]? = some q := hq
      have hne : c.pod ≠ j := by
        rintro rfl
        rw [hp] at hq
        cases hq
      have hnot : c.waitsAt j issuer = false := by simp [VerifyCall.waitsAt, hne]
      have hcount := countP_set_call (e := { c with phase }) hc rfl
        ((hended' j issuer).trans hnot.symm)
      exact (hinv.shards j q issuer hq).calls_congr hcount
  | some p =>
      have hshard := hinv.shards c.pod p c.cmd.issuer hp
      obtain ⟨hjti, -⟩ := hshard.slots hc hwaits
      by_cases hok : phase = .ok
      · subst hok
        simp only [Cluster.finish, Cluster.commitSlot, hp, if_true]
        refine hinv.endCall hc rfl hended' hp (fun issuer hne => ?_) ?_ ?_
        · dsimp only
          rw [shard_commit hjti, if_neg hne]
        · dsimp only
          rw [shard_commit hjti, if_pos rfl]
          exact hshard.commit hc hwaits (hended' _ _) _ _
        · intro issuer key t ht
          dsimp only at ht ⊢
          rw [isDenied_eq, shard_commit hjti]
          split
          · next heq =>
              subst heq
              have hbefore := hinv.shard_denied hp c.cmd.issuer key ht
              show (((p.denyMap.shard c.cmd.issuer).release _ _).mergeUntil _ _).isDenied key t ↔ _
              rw [IssuerShard.mergeUntil_isDenied, IssuerShard.release_isDenied, Bool.or_eq_true,
                hbefore, entered_snoc, Bool.and_eq_true, decide_eq_true_eq, decide_eq_true_eq]
          · next hne =>
              rw [← isDenied_eq, hinv.denied c.pod p issuer key t hp ht]
              simp [hne]
      · simp only [Cluster.finish, Cluster.releaseSlot, hp, hok, if_false]
        refine hinv.endCall hc rfl hended' hp (fun issuer hne => ?_) ?_ ?_
        · dsimp only
          rw [shard_release hjti, if_neg hne]
        · dsimp only
          rw [shard_release hjti, if_pos rfl]
          exact hshard.release hc hwaits (hended' _ _)
        · intro issuer key t ht
          dsimp only at ht ⊢
          rw [isDenied_eq, shard_release hjti,
            ← hinv.denied c.pod p issuer key t hp ht, isDenied_eq]
          split
          · next heq => subst heq; rfl
          · rfl

end

end DenyInv

end Buzz.Auth
