import Buzz.Proofs.CommandSlots

/-!
# A disconnect command acts at most once

The shared claim outlives every pod's willingness to accept the command: it
lasts for the rest of the command's validity as the claiming pod sees it, plus
the skew, and no clock is further behind than that. The assumption on clocks is
`ClocksAgree`; that a call reads its clock when the store takes its claim is
`Simultaneous`, a condition on the run.
-/

namespace Buzz.Auth

open Buzz.Lib Cluster NipFiDenyMap

/-- No two clocks differ by more than any issuer's skew. -/
def Deployment.ClocksAgree (d : Deployment) : Prop :=
  ∀ o ∈ d.offsets, ∀ o' ∈ d.offsets, ∀ issuer pol, d.policies.lookup issuer = some pol →
    o - o' ≤ seconds pol.1.skewSeconds

/-- The store takes the claim of a waiting call when the call reads its clock. -/
def Simultaneous (s : Cluster) : ClusterMove → Bool
  | .apply i => (s.calls[i]?).all fun c => c.phase ≠ .awaiting || c.readAt = s.time
  | _ => true

/-! ## The lifetime of a claim -/

variable {effectiveExpiry now : Int}

/-- For a command that has not expired, the rounding is up. -/
theorem claimTtlSecs_eq (h : now < effectiveExpiry) (skewSeconds : Nat) :
    claimTtlSecs effectiveExpiry now skewSeconds =
      ((effectiveExpiry - now + 999999999) / 1000000000).toNat + skewSeconds := by
  have hpos : 0 ≤ effectiveExpiry - now := by omega
  unfold claimTtlSecs
  dsimp only
  rw [Int.tdiv_eq_ediv_of_nonneg hpos, Int.tmod_eq_emod_of_nonneg hpos]
  by_cases hrest : 0 < (effectiveExpiry - now) % nanosPerSec
  · rw [if_pos hrest]
    simp only [nanosPerSec] at hrest ⊢
    omega
  · rw [if_neg hrest]
    simp only [nanosPerSec] at hrest ⊢
    omega

theorem claimTtlSecs_covers (h : now < effectiveExpiry) (skewSeconds : Nat) :
    effectiveExpiry - now + seconds skewSeconds ≤
      seconds (claimTtlSecs effectiveExpiry now skewSeconds) := by
  rw [claimTtlSecs_eq h]
  simp only [seconds, nanosPerSec]
  omega

theorem claimTtlSecs_le {n : Nat} (h : effectiveExpiry - now ≤ seconds n)
    (hnow : now < effectiveExpiry) (skewSeconds : Nat) :
    claimTtlSecs effectiveExpiry now skewSeconds ≤ n + skewSeconds := by
  rw [claimTtlSecs_eq hnow]
  simp only [seconds, nanosPerSec] at h
  omega

variable {policies : CommandPolicies} {c : VerifyCall}

/-- The guard's ceiling never cuts a claim short. -/
theorem claimTtl_covers (h : Authentic policies c.cmd c.now) :
    c.cmd.effectiveExpiry - c.now + seconds c.cmd.skewSeconds ≤
      seconds (claimTtl c) := by
  obtain ⟨pol, -, hskew, hlife⟩ := h.policy
  have hcovers := claimTtlSecs_covers h.unexpired c.cmd.skewSeconds
  have hsum : c.cmd.effectiveExpiry - c.now ≤
      seconds (pol.1.skewSeconds + pol.2.maximumCommandAgeSeconds) := by
    simp only [seconds, nanosPerSec] at hlife ⊢
    omega
  have hle := claimTtlSecs_le hsum h.unexpired c.cmd.skewSeconds
  have hskew_le := pol.1.skew_le
  have hage_le := pol.2.age_le
  have hshort : claimTtlSecs c.cmd.effectiveExpiry c.now c.cmd.skewSeconds ≤
      claimTtl c := by
    unfold claimTtl maxReplayTtlSecs
    omega
  have hmono : seconds (claimTtlSecs c.cmd.effectiveExpiry c.now c.cmd.skewSeconds) ≤
      seconds (claimTtl c) := by
    simp only [seconds, nanosPerSec]
    omega
  omega

/-! ## Claims -/

/-- What the shared store and the calls have to do with each other: a claim that
was taken is in the store until it runs out, so no two calls took one key within
its lifetime. -/
structure ClaimInv (d : Deployment) (s : Cluster) : Prop where
  offsets : ∀ (i : Nat) (p : Pod), s.pods[i]? = some p → p.offset ∈ d.offsets
  reading : ∀ (i : Nat) (c : VerifyCall), s.calls[i]? = some c →
    Authentic d.policies c.cmd c.now ∧ ∃ o ∈ d.offsets, c.now = c.readAt + o
  claimed : ∀ (i : Nat) (c : VerifyCall) (t : Int), s.calls[i]? = some c →
    c.applied = some (t, true) →
    s.claims.lookup (c.cmd.issuer, c.cmd.jti) = some (t + seconds (claimTtl c)) ∨
      t + seconds (claimTtl c) ≤ s.time
  apart : ∀ (i j : Nat) (c c' : VerifyCall) (t t' : Int), s.calls[i]? = some c →
    s.calls[j]? = some c' → i ≠ j → c.applied = some (t, true) → c'.applied = some (t', true) →
    c.cmd.issuer = c'.cmd.issuer → c.cmd.jti = c'.cmd.jti →
    t + seconds (claimTtl c) ≤ t' ∨ t' + seconds (claimTtl c') ≤ t
  timely : ∀ (i : Nat) (c : VerifyCall) (t : Int) (b : Bool), s.calls[i]? = some c →
    c.applied = some (t, b) → c.phase = .awaiting ∨ c.phase = .ok → t = c.readAt
  answered : ∀ (i : Nat) (c : VerifyCall), s.calls[i]? = some c → c.phase = .ok →
    ∃ t, c.applied = some (t, true)

/-- The call `c'` is a whole claim lifetime later than `c`, and found the
command of `c` expired by its own clock. -/
def VerifyCall.After (c c' : VerifyCall) : Prop :=
  c.readAt + seconds (claimTtl c) ≤ c'.readAt ∧
    c.cmd.effectiveExpiry ≤ c'.now

variable {i : Nat} {c' : VerifyCall}

/-- Two acceptances under one `jti` are further apart than the earlier command
lives. -/
theorem ClaimInv.accepted_apart {d : Deployment} {s : Cluster}
    (h : ClaimInv d s) (hclocks : d.ClocksAgree) {j : Nat}
    (hc : s.calls[i]? = some c) (hc' : s.calls[j]? = some c')
    (hok : c.phase = .ok) (hok' : c'.phase = .ok)
    (hissuer : c.cmd.issuer = c'.cmd.issuer) (hjti : c.cmd.jti = c'.cmd.jti)
    (hne : i ≠ j) : c.After c' ∨ c'.After c := by
  -- The later call read its clock after the earlier claim ran out, and no clock
  -- is further behind than the skew that the claim covers.
  have hlate : ∀ (a b : Nat) (e e' : VerifyCall), s.calls[a]? = some e →
      s.calls[b]? = some e' →
      e.readAt + seconds (claimTtl e) ≤ e'.readAt → e.After e' := by
    intro a b e e' he he' hle
    refine ⟨hle, ?_⟩
    obtain ⟨hauth, o, ho, hnow⟩ := h.reading a e he
    obtain ⟨-, o', ho', hnow'⟩ := h.reading b e' he'
    have hcovers := claimTtl_covers hauth
    obtain ⟨pol, hpol, hskew, -⟩ := hauth.policy
    have hoffset := hclocks o ho o' ho' e.cmd.issuer pol hpol
    rw [← hskew] at hoffset
    omega
  obtain ⟨t, ht⟩ := h.answered i c hc hok
  obtain ⟨t', ht'⟩ := h.answered j c' hc' hok'
  have hread := h.timely i c t true hc ht (.inr hok)
  have hread' := h.timely j c' t' true hc' ht' (.inr hok')
  rcases h.apart i j c c' t t' hc hc' hne ht ht' hissuer hjti with hle | hle
  · rw [hread, hread'] at hle
    exact .inl (hlate i j c c' hc hc' hle)
  · rw [hread, hread'] at hle
    exact .inr (hlate j i c' c hc' hc hle)

/-- So one signed command, which has one expiry, is accepted by one call. -/
theorem ClaimInv.accepted_once {d : Deployment} {s : Cluster} (h : ClaimInv d s)
    (hclocks : d.ClocksAgree) {j : Nat} (hc : s.calls[i]? = some c)
    (hc' : s.calls[j]? = some c') (hok : c.phase = .ok) (hok' : c'.phase = .ok)
    (hissuer : c.cmd.issuer = c'.cmd.issuer) (hjti : c.cmd.jti = c'.cmd.jti)
    (hexpiry : c.cmd.effectiveExpiry = c'.cmd.effectiveExpiry) : i = j := by
  have hlive := (h.reading i c hc).1.unexpired
  have hlive' := (h.reading j c' hc').1.unexpired
  by_contra hne
  rcases h.accepted_apart hclocks hc hc' hok hok' hissuer hjti hne with
    ⟨-, hle⟩ | ⟨-, hle⟩
  · omega
  · omega

namespace ClaimInv

variable {d : Deployment} {s s' : Cluster} {c : VerifyCall} {k : Nat}

section

variable (h : ClaimInv d s)
include h

/-- Only pods change, or time passes. -/
theorem mono (hcalls : s'.calls = s.calls) (hclaims : s'.claims = s.claims)
    (htime : s.time ≤ s'.time)
    (hoffsets : ∀ (i : Nat) (p : Pod), s'.pods[i]? = some p → p.offset ∈ d.offsets) :
    ClaimInv d s' where
  offsets := hoffsets
  reading i c hc := h.reading i c (hcalls ▸ hc)
  claimed i c t hc ht := by
    rw [hcalls] at hc
    rw [hclaims]
    exact (h.claimed i c t hc ht).imp_right fun hle => hle.trans htime
  apart i j c c' t t' hc hc' := h.apart i j c c' t t' (hcalls ▸ hc) (hcalls ▸ hc')
  timely i c t b hc := h.timely i c t b (hcalls ▸ hc)
  answered i c hc := h.answered i c (hcalls ▸ hc)

theorem setPod {i : Nat} {p p' : Pod} (hp : s.pods[i]? = some p)
    (hoffset : p'.offset = p.offset) : ClaimInv d (s.setPod i p') := by
  refine h.mono rfl rfl (Int.le_refl _) fun j q hq => ?_
  rcases getElem?_set_cases hq with ⟨-, rfl, -⟩ | ⟨-, hq⟩
  · rw [hoffset]
    exact h.offsets i p hp
  · exact h.offsets j q hq

/-- A call begins. -/
theorem newCall (hauth : Authentic d.policies c.cmd c.now)
    (hnow : ∃ o ∈ d.offsets, c.now = c.readAt + o)
    (hphase : c.phase = .awaiting) (happlied : c.applied = none) :
    ClaimInv d { s with calls := s.calls ++ [c] } where
  offsets := h.offsets
  reading j e he := by
    rcases getElem?_snoc_cases he with ⟨-, rfl⟩ | ⟨-, he⟩
    · exact ⟨hauth, hnow⟩
    · exact h.reading j e he
  claimed j e t he ht := by
    rcases getElem?_snoc_cases he with ⟨-, rfl⟩ | ⟨-, he⟩
    · rw [happlied] at ht
      cases ht
    · exact h.claimed j e t he ht
  apart i j e e' t t' he he' hne ht ht' := by
    rcases getElem?_snoc_cases he with ⟨-, rfl⟩ | ⟨-, he⟩
    · rw [happlied] at ht
      cases ht
    · rcases getElem?_snoc_cases he' with ⟨-, rfl⟩ | ⟨-, he'⟩
      · rw [happlied] at ht'
        cases ht'
      · exact h.apart i j e e' t t' he he' hne ht ht'
  timely j e t b he ht := by
    rcases getElem?_snoc_cases he with ⟨-, rfl⟩ | ⟨-, he⟩
    · rw [happlied] at ht
      cases ht
    · exact h.timely j e t b he ht
  answered j e he hok := by
    rcases getElem?_snoc_cases he with ⟨-, rfl⟩ | ⟨-, he⟩
    · rw [hphase] at hok
      cases hok
    · exact h.answered j e he hok

/-- A waiting call ends: with its claim, or unaccepted. -/
theorem endCall {phase : CallPhase} (hc : s.calls[k]? = some c)
    (hphase : c.phase = .awaiting)
    (hok : phase = .ok → ∃ t, c.applied = some (t, true)) :
    ClaimInv d { s with calls := s.calls.set k { c with phase } } where
  offsets := h.offsets
  reading j e he := by
    rcases getElem?_set_cases he with ⟨-, rfl, -⟩ | ⟨-, he⟩
    · exact h.reading k c hc
    · exact h.reading j e he
  claimed j e t he ht := by
    rcases getElem?_set_cases he with ⟨-, rfl, -⟩ | ⟨-, he⟩
    · exact h.claimed k c t hc ht
    · exact h.claimed j e t he ht
  apart i j e e' t t' he he' hne ht ht' := by
    rcases getElem?_set_cases he with ⟨rfl, rfl, -⟩ | ⟨-, hold⟩
    · rcases getElem?_set_cases he' with ⟨rfl, -, -⟩ | ⟨-, hold'⟩
      · exact absurd rfl hne
      · exact h.apart i j c e' t t' hc hold' hne ht ht'
    · rcases getElem?_set_cases he' with ⟨rfl, rfl, -⟩ | ⟨-, hold'⟩
      · exact h.apart i j e c t t' hold hc hne ht ht'
      · exact h.apart i j e e' t t' hold hold' hne ht ht'
  timely j e t b he ht hlive := by
    rcases getElem?_set_cases he with ⟨-, rfl, -⟩ | ⟨-, he⟩
    · exact h.timely k c t b hc ht (.inl hphase)
    · exact h.timely j e t b he ht hlive
  answered j e he hok' := by
    rcases getElem?_set_cases he with ⟨-, rfl, -⟩ | ⟨-, he⟩
    · exact hok hok'
    · exact h.answered j e he hok'

theorem not_ok (hc : s.calls[k]? = some c) (hfirst : c.applied = none) :
    c.phase ≠ .ok := by
  intro hok
  obtain ⟨t, ht⟩ := h.answered k c hc hok
  rw [hfirst] at ht
  cases ht

/-- A call that waits for its first answer is answered at the instant it read. -/
theorem first_timely (hc : s.calls[k]? = some c) (hfirst : c.applied = none)
    (hsame : c.phase = .awaiting → c.readAt = s.time)
    (hlive : c.phase = .awaiting ∨ c.phase = .ok) : s.time = c.readAt := by
  rcases hlive with hwaits | hok
  · exact (hsame hwaits).symm
  · exact absurd hok (h.not_ok hc hfirst)

/-- The store refuses a claim. -/
theorem replayed (hc : s.calls[k]? = some c) (hfirst : c.applied = none)
    (hsame : c.phase = .awaiting → c.readAt = s.time) :
    ClaimInv d { s with calls := s.calls.set k { c with applied := some (s.time, false) } } where
  offsets := h.offsets
  reading j e he := by
    rcases getElem?_set_cases he with ⟨-, rfl, -⟩ | ⟨-, he⟩
    · exact h.reading k c hc
    · exact h.reading j e he
  claimed j e t he ht := by
    rcases getElem?_set_cases he with ⟨-, rfl, -⟩ | ⟨-, he⟩
    · cases ht
    · exact h.claimed j e t he ht
  apart i j e e' t t' he he' hne ht ht' := by
    rcases getElem?_set_cases he with ⟨-, rfl, -⟩ | ⟨-, he⟩
    · cases ht
    · rcases getElem?_set_cases he' with ⟨-, rfl, -⟩ | ⟨-, he'⟩
      · cases ht'
      · exact h.apart i j e e' t t' he he' hne ht ht'
  timely j e t b he ht hlive := by
    rcases getElem?_set_cases he with ⟨-, rfl, -⟩ | ⟨-, he⟩
    · cases ht
      exact h.first_timely (c := c) hc hfirst hsame hlive
    · exact h.timely j e t b he ht hlive
  answered j e he hok := by
    rcases getElem?_set_cases he with ⟨-, rfl, -⟩ | ⟨-, he⟩
    · exact absurd hok (h.not_ok (c := c) hc hfirst)
    · exact h.answered j e he hok

/-- Claims on a key that has run out are over. -/
theorem expired {j : Nat} {e : VerifyCall} {t : Int} (he : s.calls[j]? = some e)
    (ht : e.applied = some (t, true))
    (hfree : ∀ x, s.claims.lookup (e.cmd.issuer, e.cmd.jti) = some x → x ≤ s.time) :
    t + seconds (claimTtl e) ≤ s.time := by
  rcases h.claimed j e t he ht with hkey | hle
  · exact hfree _ hkey
  · exact hle

/-- The store takes a claim. -/
theorem newClaim (hc : s.calls[k]? = some c) (hfirst : c.applied = none)
    (hsame : c.phase = .awaiting → c.readAt = s.time)
    (hfree : ∀ e, s.claims.lookup (c.cmd.issuer, c.cmd.jti) = some e → e ≤ s.time) :
    ClaimInv d { s with
      claims := s.claims.insert (c.cmd.issuer, c.cmd.jti)
        (s.time + seconds (claimTtl c))
      calls := s.calls.set k { c with applied := some (s.time, true) } } where
  offsets := h.offsets
  reading j e he := by
    rcases getElem?_set_cases he with ⟨-, rfl, -⟩ | ⟨-, he⟩
    · exact h.reading k c hc
    · exact h.reading j e he
  claimed j e t he ht := by
    rcases getElem?_set_cases he with ⟨-, rfl, -⟩ | ⟨-, he⟩
    · cases ht
      exact .inl (AList.lookup_insert _)
    · by_cases hkey : (e.cmd.issuer, e.cmd.jti) = (c.cmd.issuer, c.cmd.jti)
      · exact .inr (h.expired he ht (hkey ▸ hfree))
      · show (s.claims.insert _ _).lookup _ = _ ∨ _
        rw [HMap.lookup_insert_ite, if_neg hkey]
        exact h.claimed j e t he ht
  apart i j e e' t t' he he' hne ht ht' hissuer hjti := by
    rcases getElem?_set_cases he with ⟨rfl, rfl, -⟩ | ⟨-, hold⟩
    · cases ht
      rcases getElem?_set_cases he' with ⟨rfl, -, -⟩ | ⟨-, hold'⟩
      · exact absurd rfl hne
      · refine .inr (h.expired hold' ht' ?_)
        rw [← show c.cmd.issuer = e'.cmd.issuer from hissuer,
          ← show c.cmd.jti = e'.cmd.jti from hjti]
        exact hfree
    · rcases getElem?_set_cases he' with ⟨rfl, rfl, -⟩ | ⟨-, hold'⟩
      · cases ht'
        refine .inl (h.expired hold ht ?_)
        rw [show e.cmd.issuer = c.cmd.issuer from hissuer,
          show e.cmd.jti = c.cmd.jti from hjti]
        exact hfree
      · exact h.apart i j e e' t t' hold hold' hne ht ht' hissuer hjti
  timely j e t b he ht hlive := by
    rcases getElem?_set_cases he with ⟨-, rfl, -⟩ | ⟨-, he⟩
    · cases ht
      exact h.first_timely (c := c) hc hfirst hsame hlive
    · exact h.timely j e t b he ht hlive
  answered j e he hok := by
    rcases getElem?_set_cases he with ⟨-, rfl, -⟩ | ⟨-, he⟩
    · exact ⟨s.time, rfl⟩
    · exact h.answered j e he hok

/-- Ending a call changes its pod and its phase. -/
theorem finish {phase : CallPhase} (hc : s.calls[k]? = some c)
    (hphase : c.phase = .awaiting)
    (hok : phase = .ok → ∃ t, c.applied = some (t, true)) :
    ClaimInv d (s.finish k c phase) := by
  cases hp : s.pods[c.pod]? with
  | none =>
      have hpods : s.finish k c phase =
          { s with calls := s.calls.set k { c with phase } } := by
        simp only [Cluster.finish, Cluster.commitSlot, Cluster.releaseSlot, hp, ite_self]
        rfl
      rw [hpods]
      exact h.endCall hc hphase hok
  | some p =>
      unfold Cluster.finish
      split
      · simp only [commitSlot, hp]
        refine ClaimInv.endCall (s := s.setPod c.pod _) ?_ hc hphase hok
        exact h.setPod hp rfl
      · simp only [releaseSlot, hp]
        refine ClaimInv.endCall (s := s.setPod c.pod _) ?_ hc hphase hok
        exact h.setPod hp rfl

theorem step {m : ClusterMove} (hsame : Simultaneous s m)
    (hstep : ClusterStep d.policies s m s') : ClaimInv d s' := by
  -- What the condition says of the call a claim is for.
  have hread : ∀ (i : Nat) (c : VerifyCall), m = .apply i → s.calls[i]? = some c →
      c.phase = .awaiting → c.readAt = s.time := by
    intro i c hm hc hphase
    subst hm
    simpa [Simultaneous, hc, hphase] using hsame
  cases hstep with
  | skip => exact h
  | tick nanos =>
      refine h.mono rfl rfl ?_ h.offsets
      show s.time ≤ s.time + nanos
      omega
  | trimVerify hp => exact h.setPod hp rfl
  | @hold i p claims request cmd sh hp _ hauth _ _ _ =>
      let c : VerifyCall := { pod := i, cmd, now := s.time + p.offset, readAt := s.time }
      refine ClaimInv.newCall (s := s.setPod i _) (c := c) ?_ hauth ?_ rfl rfl
      · exact h.setPod hp rfl
      · exact ⟨p.offset, h.offsets i p hp, rfl⟩
  | @claimed i c hc hfirst hfree => exact h.newClaim hc hfirst (hread i c rfl hc) hfree
  | @replayed i c hc hfirst => exact h.replayed hc hfirst (hread i c rfl hc)
  | accept hc hphase happlied =>
      exact h.finish hc hphase (fun _ => ⟨_, happlied⟩)
  | fail _ hc hphase hok _ => exact h.finish hc hphase (fun h => absurd h hok)
  | unknown hp => exact h.setPod hp rfl
  | trimMerge hp => exact h.setPod hp rfl
  | merge hp => exact h.setPod hp rfl

end

end ClaimInv

variable {m : ClusterMove}

theorem DenyInv.step {s s' : Cluster} (h : DenyInv policies s)
    (hstep : ClusterStep policies s m s') : DenyInv policies s' := by
  cases hstep with
  | skip => exact h
  | tick => exact ⟨h.shards, h.denied⟩
  | trimVerify hp htrim => exact h.trim hp htrim
  | @hold i p claims request cmd sh hp _ _ htrim hfresh hbounded =>
      exact h.hold (c := { pod := i, cmd, now := s.time + p.offset, readAt := s.time }) hp rfl
        rfl htrim hfresh hbounded
  | @claimed i c hc =>
      exact h.setCall (e := { c with applied := some (s.time, true) }) hc rfl
        (fun _ _ => rfl) _
  | @replayed i c hc =>
      exact h.setCall (e := { c with applied := some (s.time, false) }) hc rfl
        (fun _ _ => rfl) _
  | accept hc hphase => exact h.finish hc hphase (fun hne => by cases hne)
  | fail _ hc hphase _ hended => exact h.finish hc hphase hended
  | unknown hp => exact h.given hp _
  | trimMerge hp htrim => exact h.trim hp htrim
  | merge hp htrim hbounded => exact h.merge hp htrim hbounded

/-! ## The start -/

/-- The shard an issuer gets, from a list of capacities. -/
theorem new_lookup (capacities : List (String × Nat)) (m : HMap String IssuerShard)
    (issuer : String) :
    (∃ capacity, (issuer, capacity) ∈ capacities ∧
        (capacities.foldl (fun m ic => m.insert ic.1 (.new ic.2)) m).lookup issuer =
          some (.new capacity)) ∨
      ((∀ capacity, (issuer, capacity) ∉ capacities) ∧
        (capacities.foldl (fun m ic => m.insert ic.1 (.new ic.2)) m).lookup issuer =
          m.lookup issuer) := by
  induction capacities generalizing m with
  | nil => exact .inr ⟨fun _ => List.not_mem_nil, rfl⟩
  | cons ic rest ih =>
      rcases ih (m.insert ic.1 (.new ic.2)) with ⟨capacity, hmem, hlookup⟩ | ⟨hnone, hlookup⟩
      · exact .inl ⟨capacity, List.mem_cons_of_mem _ hmem, hlookup⟩
      · rw [HMap.lookup_insert_ite] at hlookup
        by_cases hissuer : issuer = ic.1
        · rw [if_pos hissuer] at hlookup
          exact .inl ⟨ic.2, by simp [hissuer], hlookup⟩
        · rw [if_neg hissuer] at hlookup
          refine .inr ⟨fun capacity hmem => ?_, hlookup⟩
          rcases List.mem_cons.1 hmem with heq | hmem
          · exact hissuer (congrArg Prod.fst heq)
          · exact hnone capacity hmem

theorem foldl_max_ge (capacities : List (String × Nat)) (n : Nat) :
    n ≤ capacities.foldl (fun m ic => max m ic.2) n := by
  induction capacities generalizing n with
  | nil => exact Nat.le_refl n
  | cons ic rest ih => exact (Nat.le_max_left n ic.2).trans (ih _)

/-- At the start every shard is empty, and a configured issuer's has the
capacity its policy says. -/
theorem Deployment.denyMap_shard (d : Deployment) (issuer : String) :
    ∃ capacity, 0 < capacity ∧ d.denyMap.shard issuer = .new capacity ∧
      ∀ pol, d.policies.lookup issuer = some pol → capacity = pol.2.denySetCapacity := by
  let capacities := d.policies.entries.map fun e => (e.1, e.2.2.denySetCapacity)
  rcases new_lookup capacities ∅ issuer with ⟨capacity, hmem, hlookup⟩ | ⟨hnone, hlookup⟩
  · obtain ⟨e, he, heq⟩ := List.mem_map.1 hmem
    cases heq
    have hpol : d.policies.lookup e.1 = some e.2 := HMap.mem_entries_iff.1 he
    refine ⟨e.2.2.denySetCapacity, e.2.2.capacity_pos, ?_, ?_⟩
    · unfold Deployment.denyMap shard new
      rw [hlookup]
      rfl
    · intro pol hpol'
      rw [hpol] at hpol'
      cases hpol'
      rfl
  · refine ⟨capacities.foldl (fun m ic => max m ic.2) defaultDenySetCapacity,
      Nat.lt_of_lt_of_le (by decide) (foldl_max_ge capacities _), ?_, ?_⟩
    · unfold Deployment.denyMap shard new
      rw [hlookup]
      rfl
    · intro pol hpol
      have hmem : (⟨issuer, pol⟩ : (_ : String) × (IssuerPolicy × CommandIssuerPolicy)) ∈
          d.policies.entries := HMap.mem_entries_iff.2 hpol
      exact absurd (List.mem_map.2 ⟨_, hmem, rfl⟩) (hnone pol.2.denySetCapacity)

variable {p : Pod}

theorem Deployment.init_pod {d : Deployment} (h : d.init.pods[i]? = some p) :
    p.denyMap = d.denyMap ∧ p.offset ∈ d.offsets ∧ p.given = [] ∧ p.entered = [] := by
  have h : (d.offsets.map fun offset => ({ denyMap := d.denyMap, offset } : Pod))[i]? = some p :=
    h
  rw [List.getElem?_map] at h
  obtain ⟨offset, hoffset, rfl⟩ := Option.map_eq_some_iff.1 h
  exact ⟨rfl, List.mem_of_getElem? hoffset, rfl, rfl⟩

theorem Deployment.init_denyInv (d : Deployment) : DenyInv d.policies d.init where
  shards i p issuer hp := by
    obtain ⟨capacity, hpos, hshard, hpol⟩ := d.denyMap_shard issuer
    rw [(init_pod hp).1, hshard]
    refine ⟨IssuerShard.new_bounded capacity, ?_, ?_, ?_, IssuerShard.new_maxJtiCount hpos, hpol⟩
    · intro k hk
      cases hk
    · intro j
      rfl
    · intro key
      rfl
  denied i p issuer key t hp _ := by
    obtain ⟨capacity, -, hshard, -⟩ := d.denyMap_shard issuer
    obtain ⟨hmap, -, -, hentered⟩ := init_pod hp
    rw [hmap, hentered, isDenied_eq, hshard]
    constructor
    · intro h
      cases h
    · rintro ⟨u, hu, -⟩
      cases hu

theorem Deployment.init_claimInv (d : Deployment) : ClaimInv d d.init where
  offsets i p hp := (init_pod hp).2.1
  reading i c hc := by cases hc
  claimed i c t hc := by cases hc
  apart i j c c' t t' hc := by cases hc
  timely i c t b hc := by cases hc
  answered i c hc := by cases hc

/-! ## What holds of every run -/

/-- Whether the move is about the issuer. -/
def ClusterMove.concerns (s : Cluster) (issuer : String) : ClusterMove → Bool
  | .verify _ (.ok claims) _ => claims.iss = issuer
  | .verify _ (.error _) _ => false
  | .reply i | .claimError i | .drop i => (s.calls[i]?).any (·.cmd.issuer = issuer)
  | .merge _ issuer' _ _ _ => issuer' = issuer
  | .apply _ => false
  | .tick _ => false

/-- What the verifier and the deny map of every pod keep to: acceptances, the
cost of a refusal and of a failure, the slots in use, the answers of `is_denied`
and the budgets of each issuer. -/
structure CommandsSafe (d : Deployment) (s : Cluster) : Prop where
  /-- Two acceptances under one `jti` are a claim lifetime apart, the later
  one after the earlier command has expired. -/
  apart : ∀ (i j : Nat) (c c' : VerifyCall), s.calls[i]? = some c →
    s.calls[j]? = some c' → i ≠ j → c.phase = .ok → c'.phase = .ok →
    c.cmd.issuer = c'.cmd.issuer → c.cmd.jti = c'.cmd.jti →
    c.After c' ∨ c'.After c
  /-- One signed command is accepted by one call. -/
  once : ∀ (i j : Nat) (c c' : VerifyCall), s.calls[i]? = some c → s.calls[j]? = some c' →
    c.phase = .ok → c'.phase = .ok → c.cmd.issuer = c'.cmd.issuer → c.cmd.jti = c'.cmd.jti →
    c.cmd.effectiveExpiry = c'.cmd.effectiveExpiry → i = j
  /-- A call refused at once claims nothing and at most evicts. -/
  refused : ∀ (i : Nat) (p p' : Pod) (evidence : Except CommandError CommandClaims)
    (request : CommandRequest) (e : CommandError), s.pods[i]? = some p →
    begin d.policies p evidence request (s.time + p.offset) = (p', .refused e) →
    (s.step d.policies (.verify i evidence request)).claims = s.claims ∧
      (∀ issuer, IssuerShard.Trimmed (p.denyMap.shard issuer) (p'.denyMap.shard issuer)
        (s.time + p.offset)) ∧
      ∀ issuer key t, (∀ x ∈ p'.given, x ≤ t) →
        p'.denyMap.isDenied issuer key t = p.denyMap.isDenied issuer key t
  /-- A call that fails after it waited writes nothing. -/
  failed : ∀ (m : ClusterMove) (k : Nat) (c c' : VerifyCall), s.calls[k]? = some c →
    c.phase = .awaiting → (s.step d.policies m).calls[k]? = some c' →
    c'.phase ≠ .awaiting → c'.phase ≠ .ok →
    (s.step d.policies m).claims = s.claims ∧
      ∀ (i : Nat) (p p' : Pod) (issuer : String), s.pods[i]? = some p →
        (s.step d.policies m).pods[i]? = some p' →
        (p'.denyMap.shard issuer).entries = (p.denyMap.shard issuer).entries ∧
          (p'.denyMap.shard issuer).jtis = (p.denyMap.shard issuer).jtis
  /-- The slots held are those of the calls that wait. -/
  slots : ∀ (i : Nat) (p : Pod) (issuer : String), s.pods[i]? = some p →
    (∀ j, j ∈ (p.denyMap.shard issuer).pendingJtis ↔
      ∃ c ∈ s.calls, c.waitsAt i issuer ∧ c.cmd.jti = j) ∧
    ∀ key, (p.denyMap.shard issuer).held key =
      s.calls.countP fun c => c.waitsAt i issuer && c.cmd.targetPubkey = key
  denied : ∀ (i : Nat) (p : Pod) (issuer : String) (key : PublicKey) (t : Int),
    s.pods[i]? = some p → (∀ x ∈ p.given, x ≤ t) →
    (p.denyMap.isDenied issuer key t ↔ ∃ u, (issuer, key, u) ∈ p.entered ∧ t < u)
  bounded : ∀ (i : Nat) (p : Pod) (issuer : String) (pol : IssuerPolicy × CommandIssuerPolicy),
    s.pods[i]? = some p → d.policies.lookup issuer = some pol →
    (p.denyMap.shard issuer).entrySlots ≤ pol.2.denySetCapacity ∧
      (p.denyMap.shard issuer).jtiKeys.card ≤ 2 * pol.2.denySetCapacity
  /-- No issuer's shard feels another issuer's commands. -/
  isolated : ∀ (m : ClusterMove) (i : Nat) (p p' : Pod) (issuer : String),
    s.pods[i]? = some p → (s.step d.policies m).pods[i]? = some p' →
    m.concerns s issuer = false → p'.denyMap.shard issuer = p.denyMap.shard issuer
  /-- Nor is a command refused for another issuer's shard. -/
  own : ∀ (p q : Pod) (claims : CommandClaims) (request : CommandRequest) (now : Int),
    p.denyMap.shard claims.iss = q.denyMap.shard claims.iss →
    (begin d.policies p (.ok claims) request now).2 =
      (begin d.policies q (.ok claims) request now).2

theorem begin_own {q : Pod} {claims : CommandClaims}
    (h : p.denyMap.shard claims.iss = q.denyMap.shard claims.iss)
    (request : CommandRequest) (now : Int) :
    (begin policies p (.ok claims) request now).2 =
      (begin policies q (.ok claims) request now).2 := by
  unfold begin
  cases hcmd : (Except.ok claims).bind (authenticateAt policies · request now) with
  | error e => rfl
  | ok cmd =>
      obtain ⟨-, hissuer⟩ := authenticateAt_authentic hcmd
      have hsame : (p.denyMap.reserve cmd.issuer cmd.jti cmd.targetPubkey now).2 =
          (q.denyMap.reserve cmd.issuer cmd.jti cmd.targetPubkey now).2 := by
        unfold reserve
        rw [hissuer, h]
      dsimp only
      rw [hsame]
      rcases (q.denyMap.reserve cmd.issuer cmd.jti cmd.targetPubkey now).2 with
        _ | ⟨_ | _⟩ <;> rfl

theorem begin_refused {p' : Pod} {evidence : Except CommandError CommandClaims}
    {e : CommandError} (h : Begins policies p evidence now (p', .refused e)) :
    (∀ issuer, IssuerShard.Trimmed (p.denyMap.shard issuer) (p'.denyMap.shard issuer) now) ∧
      ((∃ x ∈ p'.given, x = now) ∨ p' = p) := by
  cases h with
  | unauthentic => exact ⟨fun issuer => .refl _ now, .inr rfl⟩
  | refused e hclaims htrim =>
      refine ⟨fun issuer => ?_, .inl ⟨now, by simp, rfl⟩⟩
      rw [shard_setShard]
      split
      · next heq => exact heq ▸ htrim
      · exact .refl _ now

theorem Cluster.finish_calls (s : Cluster) (i : Nat) (c : VerifyCall) (phase : CallPhase) :
    (s.finish i c phase).calls = s.calls.set i { c with phase } := by
  unfold finish setCall commitSlot releaseSlot
  split
  · split <;> rfl
  · split <;> rfl

/-- A waiting call that comes to an end other than `Ok`. -/
theorem ClusterStep.fail_cases {s s' : Cluster}
    (hstep : ClusterStep policies s m s') {k : Nat} (hc : s.calls[k]? = some c)
    (hwaits : c.phase = .awaiting) (hc' : s'.calls[k]? = some c')
    (hended : c'.phase ≠ .awaiting) (hok : c'.phase ≠ .ok) :
    ∃ i e phase, s.calls[i]? = some e ∧ e.phase = .awaiting ∧ phase ≠ .ok ∧
      s' = s.finish i e phase := by
  have hsame : s'.calls[k]? ≠ some c := by
    intro hsame
    rw [hc'] at hsame
    cases hsame
    exact hended hwaits
  cases hstep with
  | skip => exact absurd hc hsame
  | tick => exact absurd hc hsame
  | trimVerify => exact absurd hc hsame
  | hold =>
      refine absurd ?_ hsame
      exact (List.getElem?_append_left (List.getElem?_eq_some_iff.1 hc).1).trans hc
  | claimed hi =>
      rcases getElem?_set_before hi hc hc' with ⟨rfl, rfl⟩ | rfl
      · exact absurd hwaits hended
      · exact absurd hwaits hended
  | replayed hi =>
      rcases getElem?_set_before hi hc hc' with ⟨rfl, rfl⟩ | rfl
      · exact absurd hwaits hended
      · exact absurd hwaits hended
  | accept hi =>
      rw [finish_calls] at hc'
      rcases getElem?_set_before hi hc hc' with ⟨rfl, rfl⟩ | rfl
      · exact absurd rfl hok
      · exact absurd hwaits hended
  | fail _ hi hwaits' hok' _ => exact ⟨_, _, _, hi, hwaits', hok', rfl⟩
  | unknown => exact absurd hc hsame
  | trimMerge => exact absurd hc hsame
  | merge => exact absurd hc hsame

/-- What a call leaves behind that ends without its commit. -/
theorem finish_failed {s : Cluster} (hinv : DenyInv policies s) {k : Nat}
    {phase : CallPhase} (hc : s.calls[k]? = some c)
    (hwaits : c.phase = .awaiting) (hok : phase ≠ .ok) :
    (s.finish k c phase).claims = s.claims ∧
      ∀ (i : Nat) (p p' : Pod) (issuer : String), s.pods[i]? = some p →
        (s.finish k c phase).pods[i]? = some p' →
        (p'.denyMap.shard issuer).entries = (p.denyMap.shard issuer).entries ∧
          (p'.denyMap.shard issuer).jtis = (p.denyMap.shard issuer).jtis := by
  have hrelease : s.finish k c phase = (s.releaseSlot c).setCall k { c with phase } := by
    unfold finish
    rw [if_neg hok]
  rw [hrelease]
  cases hpod : s.pods[c.pod]? with
  | none =>
      simp only [releaseSlot, hpod]
      refine ⟨rfl, fun i p p' issuer hp hp' => ?_⟩
      have hp' : s.pods[i]? = some p' := hp'
      rw [hp] at hp'
      cases hp'
      exact ⟨rfl, rfl⟩
  | some q =>
      simp only [releaseSlot, hpod]
      refine ⟨rfl, fun i p p' issuer hp hp' => ?_⟩
      rcases getElem?_set_before hpod hp hp' with ⟨rfl, rfl⟩ | rfl
      · have hslots := (hinv.shards c.pod p c.cmd.issuer hpod).slots hc
          (by simp [VerifyCall.waitsAt, hwaits])
        rw [shard_release hslots.1]
        split
        · next heq => exact heq ▸ ⟨rfl, rfl⟩
        · exact ⟨rfl, rfl⟩
      · exact ⟨rfl, rfl⟩

/-- A shard changes by moves of its own issuer only. -/
theorem ClusterStep.isolated {s s' : Cluster} (hinv : DenyInv policies s)
    (hstep : ClusterStep policies s m s') {p' : Pod} {issuer : String}
    (hp : s.pods[i]? = some p) (hp' : s'.pods[i]? = some p')
    (hm : m.concerns s issuer = false) :
    p'.denyMap.shard issuer = p.denyMap.shard issuer := by
  have hkept : s'.pods = s.pods → p'.denyMap.shard issuer = p.denyMap.shard issuer := by
    intro hpods
    rw [hpods, hp] at hp'
    cases hp'
    rfl
  -- A pod whose shard of another issuer was written.
  have hother : ∀ (j : Nat) (q q' : Pod) (issuer' : String) (sh : IssuerShard),
      s.pods[j]? = some q → issuer ≠ issuer' → q'.denyMap = q.denyMap.setShard issuer' sh →
      (s.pods.set j q')[i]? = some p' →
      p'.denyMap.shard issuer = p.denyMap.shard issuer := by
    intro j q q' issuer' sh hq hne hmap hset
    rcases getElem?_set_before hq hp hset with ⟨rfl, rfl⟩ | rfl
    · rw [hmap, shard_setShard, if_neg hne]
    · rfl
  have hfinish : ∀ (k : Nat) (c : VerifyCall) (phase : CallPhase), s.calls[k]? = some c →
      c.phase = .awaiting → issuer ≠ c.cmd.issuer →
      (s.finish k c phase).pods[i]? = some p' →
      p'.denyMap.shard issuer = p.denyMap.shard issuer := by
    intro k c phase hc hwaits hne hset
    cases hq : s.pods[c.pod]? with
    | none =>
        simp only [finish, commitSlot, releaseSlot, hq, ite_self] at hset
        have hset : s.pods[i]? = some p' := hset
        rw [hp] at hset
        cases hset
        rfl
    | some q =>
        obtain ⟨hjti, -⟩ := (hinv.shards c.pod q c.cmd.issuer hq).slots hc
          (by simp [VerifyCall.waitsAt, hwaits])
        have hlookup := lookup_of_pending hjti
        by_cases hok : phase = .ok
        · simp only [finish, commitSlot, hq, hok, if_true,
            commit, hlookup] at hset
          exact hother c.pod q _ c.cmd.issuer _ hq hne rfl hset
        · simp only [finish, releaseSlot, hq, hok, if_false,
            release, hlookup] at hset
          exact hother c.pod q _ c.cmd.issuer _ hq hne rfl hset
  cases hstep with
  | skip => exact hkept rfl
  | tick => exact hkept rfl
  | trimVerify hq =>
      exact hother _ _ _ _ _ hq (by simpa [eq_comm, ClusterMove.concerns] using hm) rfl hp'
  | hold hq hissuer =>
      refine hother _ _ _ _ _ hq ?_ rfl hp'
      rw [hissuer]
      simpa [eq_comm, ClusterMove.concerns] using hm
  | claimed => exact hkept rfl
  | replayed => exact hkept rfl
  | accept hc hwaits _ =>
      refine hfinish _ _ _ hc hwaits ?_ hp'
      simpa [eq_comm, ClusterMove.concerns, hc] using hm
  | fail hmove hc hwaits _ _ =>
      refine hfinish _ _ _ hc hwaits ?_ hp'
      rcases hmove with rfl | rfl | rfl <;>
        simpa [eq_comm, ClusterMove.concerns, hc] using hm
  | unknown hq =>
      rcases getElem?_set_before hq hp hp' with ⟨rfl, rfl⟩ | rfl <;> rfl
  | trimMerge hq =>
      exact hother _ _ _ _ _ hq (by simpa [eq_comm, ClusterMove.concerns] using hm) rfl hp'
  | merge hq =>
      exact hother _ _ _ _ _ hq (by simpa [eq_comm, ClusterMove.concerns] using hm) rfl hp'

theorem commandsSafe_of_inv {d : Deployment} {s : Cluster} (hclocks : d.ClocksAgree)
    (hdeny : DenyInv d.policies s) (hclaims : ClaimInv d s) : CommandsSafe d s where
  apart i j c c' hc hc' hne hok hok' hissuer hjti :=
    hclaims.accepted_apart hclocks hc hc' hok hok' hissuer hjti hne
  once i j c c' hc hc' hok hok' hissuer hjti hexpiry :=
    hclaims.accepted_once hclocks hc hc' hok hok' hissuer hjti hexpiry
  refused i p p' evidence request e hp hbegin := by
    have hspec : Begins d.policies p evidence (s.time + p.offset) _ :=
      begin_spec (fun issuer => (hdeny.shards i p issuer hp).bounded) evidence request
        (s.time + p.offset)
    rw [hbegin] at hspec
    obtain ⟨htrim, hgiven⟩ := begin_refused hspec
    refine ⟨?_, htrim, fun issuer key t ht => ?_⟩
    · simp only [step, hp, hbegin]
      rfl
    · rcases hgiven with ⟨x, hx, rfl⟩ | rfl
      · rw [isDenied_eq, isDenied_eq]
        exact (htrim issuer).isDenied (ht _ hx) key
      · rfl
  failed m k c c' hc hwaits hc' hended hok := by
    obtain ⟨i, e, phase, he, hwaits', hok', heq⟩ :=
      (step_spec hdeny m).fail_cases hc hwaits hc' hended hok
    rw [heq]
    exact finish_failed hdeny he hwaits' hok'
  slots i p issuer hp := by
    have hshard := hdeny.shards i p issuer hp
    refine ⟨fun j => ?_, hshard.held⟩
    have hcount := hshard.jtis j
    constructor
    · intro hj
      rw [if_pos hj] at hcount
      obtain ⟨c, hc, hwaits⟩ := List.one_le_countP_iff.1 hcount.ge
      simp only [Bool.and_eq_true, decide_eq_true_eq] at hwaits
      exact ⟨c, hc, hwaits⟩
    · rintro ⟨c, hc, hwaits, hjti⟩
      by_contra hj
      rw [if_neg hj, List.countP_eq_zero] at hcount
      exact hcount c hc (by simp [hwaits, hjti])
  denied := hdeny.denied
  bounded i p issuer pol hp hpol := by
    have hshard := hdeny.shards i p issuer hp
    have hcap := hshard.capacity pol hpol
    rw [IssuerShard.entrySlots_eq, ← hcap]
    exact ⟨hshard.bounded.entries, hshard.bounded.jtis.trans hshard.jtiBudget⟩
  isolated m i p p' issuer hp hp' hm :=
    (step_spec hdeny m).isolated hdeny hp hp' hm
  own p q claims request now h := begin_own h request now

/-- In every run, however calls, lost replies, dropped futures and merges
interleave over the pods. -/
theorem commands_act_at_most_once (d : Deployment) (hclocks : d.ClocksAgree)
    (ms : List ClusterMove)
    (hms : d.machine.Meets (fun s m => Simultaneous s m) d.init ms) :
    CommandsSafe d (d.machine.run ms) := by
  have hinv : DenyInv d.policies (d.machine.run ms) ∧ ClaimInv d (d.machine.run ms) := by
    refine d.machine.inv_run (I := fun s => DenyInv d.policies s ∧ ClaimInv d s)
      ⟨d.init_denyInv, d.init_claimInv⟩ (fun s m h hsame => ?_) hms
    have hstep := step_spec h.1 m
    exact ⟨h.1.step hstep, h.2.step hsame hstep⟩
  exact commandsSafe_of_inv hclocks hinv.1 hinv.2

/-! ## A deployment with one slot -/

/-- One issuer with room for one entry, and two pods a second apart. -/
def oneSlot : Deployment where
  policies := (∅ : CommandPolicies).insert "idp"
    ({ commandAudiences := ["relay"], skewSeconds := 30, maximumAssertionAgeSeconds := 3600
       skew_le := by decide, age_pos := by decide, age_le := by decide },
     { maximumCommandAgeSeconds := 60, authorizedPrincipals := ["operator"]
       denySetCapacity := 1
       age_pos := by decide, age_le := by decide, capacity_pos := by decide })
  offsets := [0, seconds 1]

theorem oneSlot_clocksAgree : oneSlot.ClocksAgree := by
  intro o ho o' ho' issuer pol hpol
  rcases HMap.lookup_insert_cases hpol with ⟨-, rfl⟩ | ⟨-, hnone⟩
  · simp only [oneSlot, List.mem_cons, List.not_mem_nil, or_false] at ho ho'
    rcases ho with rfl | rfl <;> rcases ho' with rfl | rfl <;> decide
  · cases hnone

/-- Deny the key for five seconds, in a token issued `iat` seconds in. -/
def disconnect (jti : String) (key : PublicKey) (iat : Nat) : CommandClaims where
  iss := "idp"
  aud := ["relay"]
  iat := some (seconds iat)
  exp := some (seconds (iat + 60))
  method := some "POST"
  path := some "/disconnect"
  cmd := some "disconnect"
  targetPubkey := some key
  deniedUntil := some (seconds (iat + 5))
  jti := some jti
  sub := some "operator"

def disconnectAt (pod : Nat) (jti : String) (key : PublicKey) (iat : Nat) : ClusterMove :=
  .verify pod (.ok (disconnect jti key iat))
    { method := "POST", path := "/disconnect", bodyPubkey := key }

/-- One token at both pods: accepted by the first, refused by the second. -/
theorem commands_act_at_most_once_twice_sent :
    let ms := [disconnectAt 0 "a" (.ofByte 1) 0, .apply 0, .reply 0,
      disconnectAt 1 "a" (.ofByte 1) 0, .apply 1, .reply 1]
    (oneSlot.machine.run ms).calls.map (·.phase) = [.ok, .failed .authorizationDenied] ∧
      CommandsSafe oneSlot (oneSlot.machine.run ms) :=
  ⟨by decide +kernel,
    commands_act_at_most_once oneSlot oneSlot_clocksAgree _ (by decide +kernel)⟩

def Cluster.Begun.error : Begun → Option CommandError
  | .refused e => some e
  | .held _ => none

/-- Two commands for one key, accepted by the first pod. -/
def twoAccepted : List ClusterMove :=
  [disconnectAt 0 "a" (.ofByte 1) 0, .apply 0, .reply 0,
    disconnectAt 0 "b" (.ofByte 1) 0, .apply 1, .reply 1]

/-- A token under the `jti` of one that was accepted two minutes before. -/
def usedAgain : List ClusterMove :=
  [disconnectAt 0 "a" (.ofByte 1) 0, .apply 0, .reply 0, .tick 120000000000,
    disconnectAt 0 "a" (.ofByte 1) 120, .apply 1, .reply 1]

/-- A refused call takes the expired entry with it; an expired `jti` that is
held again counts twice, so that three exceed the budget of two; and a `jti` is
accepted again when its claim has run out. -/
theorem refusal_evicts_and_jti_returns :
    oneSlot.ClocksAgree ∧
    (let ms := twoAccepted ++ [.tick 10000000000]
     let refused := disconnectAt 0 "c" (.ofByte 2) 10
     oneSlot.machine.Meets (fun s m => Simultaneous s m) oneSlot.init (ms ++ [refused]) ∧
       (oneSlot.machine.run ms).pods.head?.map (fun p =>
         (begin oneSlot.policies p (.ok (disconnect "c" (.ofByte 2) 10))
           { method := "POST", path := "/disconnect", bodyPubkey := .ofByte 2 }
           ((oneSlot.machine.run ms).time + p.offset)).2.error) =
         some (some .denySetFull) ∧
       (oneSlot.machine.run ms).pods.head?.map (fun p => (p.denyMap.shard "idp").entrySlots) =
         some 1 ∧
       (oneSlot.machine.run (ms ++ [refused])).pods.head?.map
         (fun p => (p.denyMap.shard "idp").entrySlots) = some 0) ∧
    (let ms := twoAccepted ++ [.tick 61000000000, disconnectAt 0 "a" (.ofByte 1) 61]
     oneSlot.machine.Meets (fun s m => Simultaneous s m) oneSlot.init ms ∧
       (oneSlot.machine.run ms).pods.head?.map (fun p =>
         ((p.denyMap.shard "idp").jtis.keys.length,
           (p.denyMap.shard "idp").pendingJtis.card)) = some (2, 1)) ∧
    (oneSlot.machine.Meets (fun s m => Simultaneous s m) oneSlot.init usedAgain ∧
      (oneSlot.machine.run usedAgain).calls.map
        (fun c => (c.phase, c.cmd.issuer, c.cmd.jti)) =
        [(.ok, "idp", "a"), (.ok, "idp", "a")]) := by
  refine ⟨oneSlot_clocksAgree, ?_, ?_, ?_⟩
  · decide +kernel
  · decide +kernel
  · decide +kernel

end Buzz.Auth
