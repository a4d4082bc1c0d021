import Buzz.Proofs.CommandSlots
import Buzz.Relay.Admission

/-!
# Revoked sockets are closed

A revocation that an admission has not seen is one whose disconnect has yet to
reach the socket. `Milestone` lists what an admission has settled once it is past
a step, each with the disconnects that are still pending against it; `PodGrows` says
that whatever else happens on the pod keeps these promises, or closes the socket.
When no disconnect is left, nothing is owed.
-/

namespace Buzz.Relay

open Buzz.Auth Buzz.Lib AccessPod

/-! ## Pending disconnects -/

/-- The scan has yet to test the entry. Where the entry's key decides, the scan
has not read it, or has read it as the target. -/
def Scan.Awaits (scan : Scan) (byKey : Bool) (i : Nat) : Prop :=
  i < scan.registered ∧ i ∉ scan.visited ∧ (byKey → ∀ b, scan.reading = some (i, b) → b = true)

def Revoker.Pends (r : Revoker) (d : Disconnect) (byKey : Bool) (i : Nat) : Prop :=
  d ∈ r.queue ∨ ∃ scan, r.scan = some scan ∧ scan.disconnect = d ∧ scan.Awaits byKey i

def AccessPod.Pending (s : AccessPod) (d : Disconnect) (byKey : Bool) (i : Nat) : Prop :=
  ∃ r ∈ s.revokers, r.Pends d byKey i

/-- The disconnect closes the socket when it tests it, by the socket's key or by
its owner. -/
def Disconnect.Reaches (byKey : Bool) (c : Socket) : Disconnect → Prop
  | .pubkey target unownedOnly =>
      if byKey then
        c.authenticatedPubkey = some target ∧ (unownedOnly → c.admittedOwner = none)
      else c.admittedOwner = some target ∧ unownedOnly = false
  | .nipFi issuer target =>
      ∃ proven session, c.authenticatedPubkey = some proven ∧ c.nipFi = some session ∧
        session.reaches issuer proven target

theorem reachesOwned_of_reaches {c : Socket} {byKey b unownedOnly : Bool} {target : PublicKey}
    (h : (Disconnect.pubkey target unownedOnly).Reaches byKey c) (hb : byKey → b = true) :
    reachesOwned b target unownedOnly c.admittedOwner = true := by
  unfold reachesOwned
  cases byKey with
  | true =>
      obtain ⟨-, hunowned⟩ : _ ∧ _ := h
      rw [hb rfl]
      cases howner : c.admittedOwner with
      | none => rfl
      | some owner =>
          cases unownedOnly with
          | false => rfl
          | true =>
              rw [hunowned rfl] at howner
              cases howner
  | false =>
      obtain ⟨howner, rfl⟩ : c.admittedOwner = some target ∧ unownedOnly = false := h
      rw [howner]
      simp

section Pending

variable {s : AccessPod} {d : Disconnect} {byKey : Bool} {i : Nat}

theorem AccessPod.Pending.spawn (h : s.Pending d byKey i) (r : Revoker) :
    (s.spawn r).Pending d byKey i := by
  obtain ⟨q, hq, hpends⟩ := h
  exact ⟨q, List.mem_append_left _ hq, hpends⟩

theorem AccessPod.pending_spawn {r : Revoker} (h : d ∈ r.queue) :
    (s.spawn r).Pending d byKey i :=
  ⟨r, List.mem_append_right _ (List.mem_singleton_self r), .inl h⟩

/-- One revoker moves. -/
theorem AccessPod.Pending.setRevoker {p : Nat} {r r' : Revoker} (h : s.Pending d byKey i)
    (hr : s.revokers[p]? = some r) (hkeep : r.Pends d byKey i → r'.Pends d byKey i) :
    (s.setRevoker p r').Pending d byKey i := by
  obtain ⟨q, hq, hpends⟩ := h
  obtain ⟨j, hj⟩ := List.getElem?_of_mem hq
  have hlt : p < s.revokers.length := (List.getElem?_eq_some_iff.1 hr).1
  rcases Nat.decEq j p with hne | rfl
  · refine ⟨q, List.mem_of_getElem? (i := j) ?_, hpends⟩
    show (s.revokers.set p r')[j]? = some q
    rw [List.getElem?_set_ne (Ne.symm hne)]
    exact hj
  · rw [hr] at hj
    cases hj
    exact ⟨r', List.mem_set hlt r', hkeep hpends⟩

end Pending

/-! ## What an admission has settled -/

def AdmissionPhase.rank : AdmissionPhase → Nat
  | .pairing => 0
  | .banGate | .banGateOwner _ | .allowlistGate | .membership | .membershipOwner _ => 1
  | .permit => 2
  | .linkRead | .linkWrite | .linkReread => 3
  | .bindOwner => 5
  | .bindKey => 6
  | .readOwner => 7
  | .recordOwner _ => 8
  | .finalBan => 9
  | .finalBanOwner _ => 10
  | .finalMember => 11
  | .finalMemberOwner _ => 12
  | .checkCancel => 13
  | .authenticate => 14
  | .denySet => 15
  | .done => 16

/-- The owner whose membership it is asking for. -/
def AdmissionPhase.asked : AdmissionPhase → Option PublicKey
  | .membershipOwner owner | .finalMemberOwner owner => some owner
  | _ => none

/-- What an admission has behind it, in the order in which it is reached. -/
inductive Milestone where
  | paired
  | granted
  | linked
  | bound
  | recorded
  | unbanned
  | decided
  | undenied

/-- The rank of the last step before it. -/
def Milestone.rank : Milestone → Nat
  | .paired => 0
  | .granted => 1
  | .linked => 4
  | .bound => 6
  | .recorded => 8
  | .unbanned => 9
  | .decided => 12
  | .undenied => 15

/-- The admission is past the milestone, and was not refused. -/
def Socket.Past (c : Socket) (m : Milestone) : Prop :=
  m.rank < c.phase.rank ∧ (c.phase = .done → c.auth = .authenticated)

/-- What holds of a socket past the milestone. A revocation that came too late
for the check is pending against the socket, unless it is closed. -/
def Socket.Reached (s : AccessPod) (i : Nat) (c : Socket) : Milestone → Prop
  | .paired => c.frame.paired
  | .granted =>
      (∀ owner, c.frame.tokenOwner = some owner → c.nipOaOwner = some owner) ∧
        (s.config.requireRelayMembership = false → c.nipOaOwner = c.frame.banOwner)
  | .linked => ∀ owner, c.nipOaOwner = some owner → s.storedOwner c.frame.pubkey = some owner
  | .bound => c.authenticatedPubkey = some c.frame.pubkey ∧ c.nipFi = c.frame.session
  | .recorded =>
      c.cancelled = false → ∀ owner, s.storedOwner c.frame.pubkey = some owner →
        c.admittedOwner = some owner ∨
          (c.admittedOwner = none ∧ s.Pending (.pubkey c.frame.pubkey true) true i)
  | .unbanned =>
      c.cancelled = false → ∀ t, s.now ≤ t →
        (s.tables.banned c.frame.pubkey t → s.Pending (.pubkey c.frame.pubkey false) true i) ∧
          ∀ owner, c.admittedOwner = some owner → s.tables.banned owner t →
            s.Pending (.pubkey owner false) false i
  | .decided =>
      match c.decision with
      | some .openRelay => s.config.requireRelayMembership = false
      | some .member =>
          c.cancelled = false → c.frame.pubkey ∉ s.tables.members →
            s.Pending (.pubkey c.frame.pubkey false) true i
      | some (.viaOwner owner) => c.frame.delegate s.config = some owner
      | none => False
  | .undenied =>
      c.cancelled = false → ∀ a, c.frame.assertion = some a →
        ∀ key, a.assertedKey = some key ∨ a.owner = some key → ∀ t, s.now ≤ t →
          s.denyMap.isDenied a.issuer key t → s.Pending (.nipFi a.issuer key) true i

/-- What holds of one socket: it is not authenticated before the last check, its
owner is the stored one, and each milestone behind it was reached. -/
structure SocketOk (s : AccessPod) (i : Nat) (c : Socket) : Prop where
  early : c.phase.rank < AdmissionPhase.denySet.rank → c.auth ≠ .authenticated
  owner : ∀ owner, c.admittedOwner = some owner → s.storedOwner c.frame.pubkey = some owner
  reading : ∀ owner, c.phase = .recordOwner owner → s.storedOwner c.frame.pubkey = some owner
  deciding : ∀ owner, c.phase.asked = some owner →
    s.config.requireRelayMembership ∧ c.frame.delegate s.config = some owner
  reached : ∀ m, c.Past m → c.Reached s i m

theorem Socket.Past.of_le {c : Socket} {m m' : Milestone} (h : c.Past m) (hle : m'.rank ≤ m.rank) :
    c.Past m' :=
  ⟨Nat.lt_of_le_of_lt hle h.1, h.2⟩

/-- The rest of the pod goes on: what is revoked from now on is pending, and
what is pending stays so or closes its socket. -/
structure PodGrows (s s' : AccessPod) : Prop where
  config : s'.config = s.config
  now : s.now ≤ s'.now
  owners : ∀ agent owner, s.storedOwner agent = some owner → s'.storedOwner agent = some owner
  recorded : ∀ agent owner, s.storedOwner agent = none → s'.storedOwner agent = some owner →
    ∀ i, s'.Pending (.pubkey agent true) true i
  banned : ∀ key t, s'.now ≤ t → s'.tables.banned key t →
    s.tables.banned key t ∨ ∀ byKey i, s'.Pending (.pubkey key false) byKey i
  members : ∀ key, key ∉ s'.tables.members →
    key ∉ s.tables.members ∨ ∀ i, s'.Pending (.pubkey key false) true i
  denied : ∀ issuer key t, s'.now ≤ t → s'.denyMap.isDenied issuer key t →
    s.denyMap.isDenied issuer key t ∨ ∀ i, s'.Pending (.nipFi issuer key) true i
  pending : ∀ (d : Disconnect) (byKey : Bool) (i : Nat) (c : Socket), s.sockets[i]? = some c →
    d.Reaches byKey c → s.Pending d byKey i →
      s'.Pending d byKey i ∨ ∃ c', s'.sockets[i]? = some c' ∧ c'.cancelled = true

/-- What is kept of a socket that somebody else may have closed. -/
def Socket.Kept (c c' : Socket) : Prop := c' = c ∨ c' = { c with cancelled := true }

section PodGrows

variable {s s' : AccessPod} {i : Nat} {c c' : Socket}

/-- A pending disconnect that reaches the socket, after the step. -/
theorem PodGrows.pending_live (h : PodGrows s s') (hc : s.sockets[i]? = some c)
    (hc' : s'.sockets[i]? = some c') (hlive : c'.cancelled = false) {d : Disconnect}
    {byKey : Bool} (hreach : d.Reaches byKey c) (hp : s.Pending d byKey i) :
    s'.Pending d byKey i := by
  rcases h.pending d byKey i c hc hreach hp with hp | ⟨c'', hc'', hcancelled⟩
  · exact hp
  · rw [hc'] at hc''
    cases hc''
    rw [hlive] at hcancelled
    cases hcancelled

theorem Socket.kept_or (c : Socket) (b : Bool) :
    c.Kept { c with cancelled := c.cancelled || b } := by
  cases b with
  | true =>
      refine .inr ?_
      rw [Bool.or_true]
  | false =>
      refine .inl ?_
      rw [Bool.or_false]

/-- A NIP-FI disconnect of one of the assertion's keys reaches the bound
socket. -/
theorem reaches_nipFi {a : Assertion} {key : PublicKey} (hpaired : c.frame.paired)
    (hbound : c.authenticatedPubkey = some c.frame.pubkey ∧ c.nipFi = c.frame.session)
    (ha : c.frame.assertion = some a) (hkey : a.assertedKey = some key ∨ a.owner = some key) :
    (Disconnect.nipFi a.issuer key).Reaches true c := by
  refine ⟨c.frame.pubkey, ⟨a.issuer, a.owner⟩, hbound.1, ?_, ?_⟩
  · rw [hbound.2, AuthFrame.session, ha]
    rfl
  · simp only [AuthFrame.paired, ha, Option.all_some, beq_iff_eq] at hpaired
    simp only [NipFiSession.reaches, beq_self_eq_true, Bool.true_and, Bool.or_eq_true, beq_iff_eq]
    rcases hkey with hkey | hkey
    · rw [hpaired] at hkey
      exact .inl (Option.some.inj hkey)
    · exact .inr hkey

/-- The milestones of a live socket, whatever the rest of the pod does. -/
theorem SocketOk.reached_grow (h : SocketOk s i c) (hg : PodGrows s s')
    (hc : s.sockets[i]? = some c) (hc' : s'.sockets[i]? = some c) {m : Milestone}
    (hm : c.Past m) : c.Reached s' i m := by
  have hreached := h.reached m hm
  -- Past the bind, the socket's key is in the registry.
  have hbound : Milestone.bound.rank ≤ m.rank →
      c.authenticatedPubkey = some c.frame.pubkey ∧ c.nipFi = c.frame.session :=
    fun hle => h.reached .bound (hm.of_le hle)
  cases m with
  | paired => exact hreached
  | granted => exact ⟨hreached.1, fun hopen => hreached.2 (hg.config ▸ hopen)⟩
  | linked => exact fun owner howner => hg.owners _ _ (hreached owner howner)
  | bound => exact hreached
  | recorded =>
      intro hlive owner howner
      cases hstored : s.storedOwner c.frame.pubkey with
      | some stored =>
          have hsame := hg.owners _ _ hstored
          rw [howner] at hsame
          cases hsame
          refine (hreached hlive owner hstored).imp_right fun ⟨hnone, hp⟩ => ⟨hnone, ?_⟩
          exact hg.pending_live hc hc' hlive ⟨(hbound (by decide)).1, fun _ => hnone⟩ hp
      | none =>
          refine .inr ⟨?_, hg.recorded _ _ hstored howner i⟩
          cases hslot : c.admittedOwner with
          | none => rfl
          | some o =>
              rw [h.owner o hslot] at hstored
              cases hstored
  | unbanned =>
      intro hlive t ht
      have hthen := hreached hlive t (Int.le_trans hg.now ht)
      refine ⟨fun hbanned => ?_, fun owner howner hbanned => ?_⟩
      · rcases hg.banned _ t ht hbanned with hbanned | hp
        · exact hg.pending_live hc hc' hlive
            ⟨(hbound (by decide)).1, fun h => by cases h⟩ (hthen.1 hbanned)
        · exact hp true i
      · rcases hg.banned _ t ht hbanned with hbanned | hp
        · exact hg.pending_live hc hc' hlive ⟨howner, rfl⟩ (hthen.2 owner howner hbanned)
        · exact hp false i
  | decided =>
      simp only [Socket.Reached, hg.config] at hreached ⊢
      split
      · next heq => rwa [heq] at hreached
      · next heq =>
          rw [heq] at hreached
          intro hlive hmember
          rcases hg.members _ hmember with hmember | hp
          · exact hg.pending_live hc hc' hlive
              ⟨(hbound (by decide)).1, fun h => by cases h⟩ (hreached hlive hmember)
          · exact hp i
      · next heq => rwa [heq] at hreached
      · next heq => rwa [heq] at hreached
  | undenied =>
      intro hlive a ha key hkey t ht hdenied
      rcases hg.denied _ _ t ht hdenied with hdenied | hp
      · refine hg.pending_live hc hc' hlive ?_
          (hreached hlive a ha key hkey t (Int.le_trans hg.now ht) hdenied)
        exact reaches_nipFi (h.reached .paired (hm.of_le (by decide))) (hbound (by decide)) ha hkey
      · exact hp i

/-- Closing a socket settles what was pending against it. -/
theorem SocketOk.reached_closed (h : SocketOk s i c) (hg : PodGrows s s') {m : Milestone}
    (hm : c.Past m) : ({ c with cancelled := true } : Socket).Reached s' i m := by
  have hreached := h.reached m hm
  cases m with
  | paired => exact hreached
  | granted => exact ⟨hreached.1, fun hopen => hreached.2 (hg.config ▸ hopen)⟩
  | linked => exact fun owner howner => hg.owners _ _ (hreached owner howner)
  | bound => exact hreached
  | recorded | unbanned | undenied =>
      intro hlive
      cases hlive
  | decided =>
      simp only [Socket.Reached, hg.config] at hreached ⊢
      split
      · next heq => rwa [heq] at hreached
      · intro hlive
        cases hlive
      · next heq => rwa [heq] at hreached
      · next heq => rwa [heq] at hreached

theorem SocketOk.grow (h : SocketOk s i c) (hg : PodGrows s s') (hc : s.sockets[i]? = some c)
    (hc' : s'.sockets[i]? = some c') (hkept : c.Kept c') : SocketOk s' i c' := by
  rcases hkept with rfl | rfl
  · exact ⟨h.early, fun owner howner => hg.owners _ _ (h.owner owner howner),
      fun owner hphase => hg.owners _ _ (h.reading owner hphase),
      fun owner hphase => hg.config ▸ h.deciding owner hphase, fun m hm =>
        h.reached_grow hg hc hc' hm⟩
  · exact ⟨h.early, fun owner howner => hg.owners _ _ (h.owner owner howner),
      fun owner hphase => hg.owners _ _ (h.reading owner hphase),
      fun owner hphase => hg.config ▸ h.deciding owner hphase, fun m hm =>
        h.reached_closed hg hm⟩

end PodGrows

/-! ## The rest of the pod -/

theorem PodGrows.refl (s : AccessPod) : PodGrows s s where
  config := rfl
  now := Int.le_refl _
  owners _ _ h := h
  recorded _ _ hnone hsome := by
    rw [hnone] at hsome
    cases hsome
  banned _ _ _ h := .inl h
  members _ h := .inl h
  denied _ _ _ _ h := .inl h
  pending _ _ _ _ _ _ h := .inl h

section Denied

variable {sh : IssuerShard} {m : NipFiDenyMap} {issuer issuer' : String} {key k : PublicKey}
  {t now : Int}

/-- Evicting denies nobody. -/
theorem isDenied_of_fullAfterEviction {full : IssuerShard → Bool}
    (h : (sh.fullAfterEviction now full).1.isDenied k t) : sh.isDenied k t := by
  unfold IssuerShard.fullAfterEviction at h
  split at h
  · have h : ((sh.entries.retain _).lookup k).any (t < ·) = true := h
    rw [HMap.lookup_retain] at h
    unfold IssuerShard.isDenied
    cases hentry : sh.entries.lookup k with
    | none =>
        rw [hentry] at h
        cases h
    | some deniedUntil =>
        obtain ⟨u, hu, hlt⟩ := (Option.any_eq_true _ _).1 h
        rw [hentry, Option.filter_eq_some_iff] at hu
        cases hu.1
        exact hlt
  · exact h

theorem isDenied_of_reserveEntry (h : (sh.reserveEntry key now).1.isDenied k t) :
    sh.isDenied k t := by
  unfold IssuerShard.reserveEntry at h
  split at h
  · exact h
  · split at h <;> next heq => exact isDenied_of_fullAfterEviction (by rw [heq]; exact h)

theorem isDenied_of_reserve {jti : String} (h : (sh.reserve jti key now).1.isDenied k t) :
    sh.isDenied k t := by
  have hjti : ∀ k, (sh.reserveJti jti now).1.isDenied k t → sh.isDenied k t := by
    intro k h
    unfold IssuerShard.reserveJti at h
    split at h
    · exact h
    · split at h
      · exact h
      · split at h <;> next heq => exact isDenied_of_fullAfterEviction (by rw [heq]; exact h)
  unfold IssuerShard.reserve at h
  split at h
  · next heq => exact hjti k (by rw [heq]; exact h)
  · next s₁ heq =>
      have h₁ : s₁.isDenied k t := by
        split at h <;> next heq₂ => exact isDenied_of_reserveEntry (by rw [heq₂]; exact h)
      exact hjti k (by rw [heq]; exact h₁)

/-- One shard changes. -/
theorem isDenied_setShard (h : (m.setShard issuer sh).isDenied issuer' k t) :
    m.isDenied issuer' k t ∨ (issuer' = issuer ∧ sh.isDenied k t) := by
  rw [NipFiDenyMap.isDenied_eq, NipFiDenyMap.shard_setShard] at h
  split at h
  · next hissuer => exact .inr ⟨hissuer, h⟩
  · rw [NipFiDenyMap.isDenied_eq]
    exact .inl h

theorem isDenied_of_commit {jti : String} {effectiveExpiry deniedUntil : Int}
    (h : (m.commit issuer jti effectiveExpiry key deniedUntil).isDenied issuer' k t) :
    m.isDenied issuer' k t ∨ (issuer' = issuer ∧ k = key) := by
  unfold NipFiDenyMap.commit at h
  split at h
  · exact .inl h
  · next sh hissuer =>
      refine (isDenied_setShard h).elim .inl fun ⟨hsame, hdenied⟩ => ?_
      have hdenied : ((sh.release jti key).mergeUntil key deniedUntil).isDenied k t := hdenied
      rw [IssuerShard.mergeUntil_isDenied, IssuerShard.release_isDenied, Bool.or_eq_true,
        Bool.and_eq_true, decide_eq_true_eq] at hdenied
      rcases hdenied with hdenied | ⟨hkey, -⟩
      · refine .inl ?_
        rw [hsame, NipFiDenyMap.isDenied, hissuer]
        exact hdenied
      · exact .inr ⟨hsame, hkey⟩

theorem isDenied_of_mergeCrossPodDeny {deniedUntil : Int}
    (h : (m.mergeCrossPodDeny issuer key deniedUntil now).1.isDenied issuer' k t) :
    m.isDenied issuer' k t ∨ (issuer' = issuer ∧ k = key) := by
  unfold NipFiDenyMap.mergeCrossPodDeny at h
  split at h
  · exact .inl h
  · next sh hissuer =>
      have hshard : ∀ sh' ok, sh.mergeEntry key deniedUntil now = (sh', ok) →
          sh'.isDenied k t → sh.isDenied k t ∨ k = key := by
        intro sh' ok hmerge hdenied
        unfold IssuerShard.mergeEntry at hmerge
        split at hmerge
        · next heq =>
            cases hmerge
            exact .inl (isDenied_of_reserveEntry (by rw [heq]; exact hdenied))
        · next heq =>
            cases hmerge
            rw [IssuerShard.mergeUntil_isDenied, Bool.or_eq_true, Bool.and_eq_true,
              decide_eq_true_eq] at hdenied
            rcases hdenied with hdenied | ⟨hkey, -⟩
            · exact .inl (isDenied_of_reserveEntry (by rw [heq]; exact hdenied))
            · exact .inr hkey
      have hmap : ∀ sh' ok, sh.mergeEntry key deniedUntil now = (sh', ok) →
          (m.setShard issuer sh').isDenied issuer' k t →
          m.isDenied issuer' k t ∨ (issuer' = issuer ∧ k = key) := by
        intro sh' ok hmerge hdenied
        rcases isDenied_setShard hdenied with hdenied | ⟨hsame, hdenied⟩
        · exact .inl hdenied
        · refine (hshard sh' ok hmerge hdenied).imp (fun hdenied => ?_) fun hkey => ⟨hsame, hkey⟩
          rw [hsame, NipFiDenyMap.isDenied, hissuer]
          exact hdenied
      split at h
      · next sh' heq => exact hmap sh' true heq h
      · next sh' heq => exact hmap sh' false heq h

end Denied

section Environment

variable {s : AccessPod} {s' : AccessPod}

/-- No owner is recorded. -/
theorem PodGrows.recorded_of_same (howners : s'.tables.owners = s.tables.owners)
    {agent owner : PublicKey} (hnone : s.storedOwner agent = none)
    (hsome : s'.storedOwner agent = some owner) {P : Prop} : P := by
  unfold storedOwner at hnone hsome
  rw [howners, hnone] at hsome
  cases hsome

/-- The clock goes on and somebody is forgiven, and nothing else happens. -/
theorem PodGrows.lenient (hconfig : s'.config = s.config)
    (hnow : s.now ≤ s'.now) (howners : s'.tables.owners = s.tables.owners)
    (hrevokers : s'.revokers = s.revokers)
    (hbanned : ∀ key t, s'.tables.banned key t → s.tables.banned key t)
    (hmembers : ∀ key, key ∈ s.tables.members → key ∈ s'.tables.members)
    (hdenied : ∀ issuer key t, s'.denyMap.isDenied issuer key t → s.denyMap.isDenied issuer key t) :
    PodGrows s s' where
  config := hconfig
  now := hnow
  owners agent owner h := by
    unfold storedOwner
    rw [howners]
    exact h
  recorded agent owner hnone hsome := recorded_of_same howners hnone hsome
  banned key t _ h := .inl (hbanned key t h)
  members key h := .inl fun hmem => h (hmembers key hmem)
  denied issuer key t _ h := .inl (hdenied issuer key t h)
  pending d byKey i c _ _ h := by
    unfold Pending
    rw [hrevokers]
    exact .inl h

/-- Somebody is revoked, and the disconnect is to come. -/
theorem PodGrows.revoke {r : Revoker} (hconfig : s'.config = s.config)
    (hnow : s'.now = s.now) (howners : s'.tables.owners = s.tables.owners)
    (hrevokers : s'.revokers = s.revokers)
    (hbanned : ∀ key t, s'.tables.banned key t →
      s.tables.banned key t ∨ .pubkey key false ∈ r.queue)
    (hmembers : ∀ key, key ∉ s'.tables.members →
      key ∉ s.tables.members ∨ .pubkey key false ∈ r.queue)
    (hdenied : ∀ issuer key t, s'.denyMap.isDenied issuer key t →
      s.denyMap.isDenied issuer key t ∨ .nipFi issuer key ∈ r.queue) :
    PodGrows s (s'.spawn r) where
  config := hconfig
  now := Int.le_of_eq hnow.symm
  owners agent owner h := by
    show s'.tables.owners.lookup agent = some owner
    rw [howners]
    exact h
  recorded agent owner hnone hsome :=
    have hsame : (s'.spawn r).tables.owners = s.tables.owners := howners
    recorded_of_same hsame hnone hsome
  banned key t _ h :=
    (hbanned key t h).imp_right fun hmem _ _ => pending_spawn hmem
  members key h := (hmembers key h).imp_right fun hmem _ => pending_spawn hmem
  denied issuer key t _ h :=
    (hdenied issuer key t h).imp_right fun hmem _ => pending_spawn hmem
  pending d byKey i c _ _ h := by
    have h : s'.Pending d byKey i := by
      unfold Pending
      rw [hrevokers]
      exact h
    exact .inl (h.spawn r)

theorem grows_ban (s : AccessPod) (target : PublicKey) (expires : Option Int) :
    PodGrows s ({ s with tables.bans := s.tables.bans.insert target expires }.spawn
      (revokeLiveAccess target)) := by
  refine .revoke rfl rfl rfl rfl (fun key t h => ?_) (fun _ h => .inl h) (fun _ _ _ h => .inl h)
  by_cases hkey : key = target
  · subst hkey
    exact .inr (List.mem_singleton_self _)
  · have h : ((s.tables.bans.insert target expires).lookup key).any _ = true := h
    rw [HMap.lookup_insert_ite, if_neg hkey] at h
    exact .inl h

theorem grows_removeMember (s : AccessPod) (target : PublicKey) :
    PodGrows s ({ s with tables.members := s.tables.members.erase target }.spawn
      (revokeLiveAccess target)) := by
  refine .revoke rfl rfl rfl rfl (fun _ _ h => .inl h) (fun key h => ?_) (fun _ _ _ h => .inl h)
  by_cases hkey : key = target
  · subst hkey
    exact .inr (List.mem_singleton_self _)
  · exact .inl fun hmem => h (Finset.mem_erase.2 ⟨hkey, hmem⟩)

/-- A deny entry is made. -/
theorem grows_deny {denyMap : NipFiDenyMap} {issuer : String} {target : PublicKey}
    (h : ∀ issuer' key t, denyMap.isDenied issuer' key t →
      s.denyMap.isDenied issuer' key t ∨ (issuer' = issuer ∧ key = target)) :
    PodGrows s ({ s with denyMap }.spawn (disconnectNipFi issuer target)) := by
  refine .revoke rfl rfl rfl rfl (fun _ _ h => .inl h) (fun _ h => .inl h)
    (fun issuer' key t hdenied => ?_)
  refine (h issuer' key t hdenied).imp_right fun ⟨hissuer, hkey⟩ => ?_
  subst hissuer
  subst hkey
  exact List.mem_singleton_self _

/-- An owner is recorded for the first time. -/
theorem grows_setAgentOwner {agent owner : PublicKey} (hnone : s.storedOwner agent = none) :
    PodGrows s (s.setAgentOwner agent owner) where
  config := rfl
  now := Int.le_refl _
  owners a o h := by
    show (s.tables.owners.insert agent owner).lookup a = some o
    have hne : a ≠ agent := by
      rintro rfl
      rw [hnone] at h
      cases h
    rw [HMap.lookup_insert_ite, if_neg hne]
    exact h
  recorded a o hnone' hsome i := by
    have hsome : (s.tables.owners.insert agent owner).lookup a = some o := hsome
    rcases HMap.lookup_insert_cases hsome with ⟨rfl, -⟩ | ⟨-, hold⟩
    · exact pending_spawn (List.mem_singleton_self _)
    · rw [storedOwner, hold] at hnone'
      cases hnone'
  banned _ _ _ h := .inl h
  members _ h := .inl h
  denied _ _ _ _ h := .inl h
  pending _ _ _ _ _ _ h := .inl (h.spawn _)

end Environment

/-! ## Scans -/

section Scans

variable {s : AccessPod} {p : Nat} {r : Revoker}

/-- Only a revoker moves, and sockets are closed. -/
theorem PodGrows.of_pending {s' : AccessPod} (hconfig : s'.config = s.config)
    (hnow : s'.now = s.now) (htables : s'.tables = s.tables) (hdeny : s'.denyMap = s.denyMap)
    (hpending : ∀ (d : Disconnect) (byKey : Bool) (i : Nat) (c : Socket),
      s.sockets[i]? = some c → d.Reaches byKey c → s.Pending d byKey i →
        s'.Pending d byKey i ∨ ∃ c', s'.sockets[i]? = some c' ∧ c'.cancelled = true) :
    PodGrows s s' where
  config := hconfig
  now := Int.le_of_eq hnow.symm
  owners agent owner h := by
    unfold storedOwner
    rw [htables]
    exact h
  recorded agent owner hnone hsome :=
    recorded_of_same (by rw [htables]) hnone hsome
  banned key t _ h := .inl (htables ▸ h)
  members key h := .inl (htables ▸ h)
  denied issuer key t _ h := .inl (hdeny ▸ h)
  pending := hpending

section

variable (hr : s.revokers[p]? = some r)
include hr

theorem grows_startScan : PodGrows s (s.startScan p r) := by
  unfold startScan
  split
  · next d' rest hscan hqueue =>
      refine .of_pending rfl rfl rfl rfl fun d byKey i c hc _ h => .inl (h.setRevoker hr ?_)
      rintro (hmem | ⟨scan, hsome, -⟩)
      · rw [hqueue] at hmem
        rcases List.mem_cons.1 hmem with rfl | hmem
        · have hlt : i < s.sockets.length := (List.getElem?_eq_some_iff.1 hc).1
          exact .inr ⟨_, rfl, rfl, hlt, List.not_mem_nil, fun _ b hb => by cases hb⟩
        · exact .inl hmem
      · rw [hscan] at hsome
        cases hsome
  · exact .refl s

theorem grows_endScan : PodGrows s (s.endScan p r) := by
  unfold endScan
  split
  · exact .refl s
  · next scan hscan =>
      split
      · next hdone =>
          rw [Bool.and_eq_true, List.all_eq_true] at hdone
          refine .of_pending rfl rfl rfl rfl fun d byKey i c _ _ h => .inl (h.setRevoker hr ?_)
          rintro (hmem | ⟨scan', hsome, -, hlt, hnot, -⟩)
          · exact .inl hmem
          · rw [hscan] at hsome
            cases hsome
            have hvisited := hdone.2 i (List.mem_range.2 hlt)
            exact absurd (List.contains_iff_mem.1 hvisited) hnot
      · exact .refl s

theorem grows_lookupAgents (found : Bool) :
    PodGrows s (s.lookupAgents p r found) := by
  unfold lookupAgents
  split
  · next owner hscan hqueue hsweep =>
      refine .of_pending rfl rfl rfl rfl fun d byKey i c _ _ h => .inl (h.setRevoker hr ?_)
      rintro (hmem | ⟨scan', hsome, -⟩)
      · rw [hqueue] at hmem
        cases hmem
      · rw [hscan] at hsome
        cases hsome
  · exact .refl s

omit hr in
/-- A revoker that has just tested an entry still pends against the others. -/
theorem Revoker.Pends.tested {scan : Scan} {i j : Nat} {d : Disconnect} {byKey : Bool}
    (hscan : r.scan = some scan) (h : r.Pends d byKey i) (hne : i ≠ j) :
    Revoker.Pends { r with
      scan := some { scan with visited := j :: scan.visited, reading := none } } d byKey i := by
  rcases h with hmem | ⟨scan', hsome, hd, hlt, hnot, -⟩
  · exact .inl hmem
  · rw [hscan] at hsome
    cases hsome
    refine .inr ⟨_, rfl, hd, hlt, ?_, fun _ b hb => by cases hb⟩
    exact fun hmem => (List.mem_cons.1 hmem).elim hne hnot

theorem grows_visit {j : Nat} {cj : Socket} (hcj : s.sockets[j]? = some cj) :
    PodGrows s (s.visit p r j cj) := by
  unfold visit
  split
  · exact .refl s
  · next scan hscan =>
      split
      · exact .refl s
      · next hfree =>
          rw [Bool.or_eq_true, not_or] at hfree
          have hreading : scan.reading = none := by simpa using hfree.1
          split
          · next target unownedOnly hd' =>
              refine .of_pending rfl rfl rfl rfl fun d byKey i c hc hreach h =>
                .inl (h.setRevoker hr ?_)
              rintro (hmem | ⟨scan', hsome, hd, hlt, hnot, -⟩)
              · exact .inl hmem
              · rw [hscan] at hsome
                cases hsome
                refine .inr ⟨_, rfl, hd, hlt, hnot, fun hkey b hb => ?_⟩
                -- The key it reads is the target.
                cases hb
                rw [hcj] at hc
                cases hc
                rw [← hd, hd', hkey] at hreach
                have hbound : cj.authenticatedPubkey = some target := hreach.1
                rw [hbound]
                exact beq_self_eq_true _
          · next issuer target hd' =>
              refine .of_pending rfl rfl rfl rfl fun d byKey i c hc hreach h => ?_
              rcases Nat.decEq i j with hne | rfl
              · refine .inl (Pending.setRevoker (s := s.setSocket j _) h hr fun hp => ?_)
                have htested := hp.tested hscan hne
                rw [← hreading] at htested
                exact htested
              · by_cases hsame : d = .nipFi issuer target
                · rw [hcj] at hc
                  cases hc
                  rw [hsame] at hreach
                  obtain ⟨proven, session, hproven, hsession, hmatch⟩ := hreach
                  refine .inr ⟨_, List.getElem?_set_self (List.getElem?_eq_some_iff.1 hcj).1, ?_⟩
                  show (cj.cancelled || _) = true
                  rw [hproven, hsession]
                  simp [hmatch]
                · -- Another disconnect of the same revoker is still in its queue.
                  refine .inl (Pending.setRevoker (s := s.setSocket i _) h hr ?_)
                  rintro (hmem | ⟨scan', hsome, hd, -⟩)
                  · exact .inl hmem
                  · rw [hscan] at hsome
                    cases hsome
                    exact absurd (hd.symm.trans hd') hsame

theorem grows_close : PodGrows s (s.close p r) := by
  unfold close
  split
  · exact .refl s
  · next scan hscan =>
      split
      · next j principal target unownedOnly hreading hd' =>
          unfold onSocket
          cases hcj : s.sockets[j]? with
          | none =>
              refine .of_pending rfl rfl rfl rfl fun d byKey i c hc _ h =>
                .inl (h.setRevoker hr fun hp => hp.tested hscan ?_)
              rintro rfl
              rw [hcj] at hc
              cases hc
          | some cj =>
              refine .of_pending rfl rfl rfl rfl fun d byKey i c hc hreach h => ?_
              rcases Nat.decEq i j with hne | rfl
              · exact .inl (Pending.setRevoker (s := s.setSocket j _) h hr
                  fun hp => hp.tested hscan hne)
              · rw [hcj] at hc
                cases hc
                by_cases hpends : r.Pends d byKey i → d ∈ r.queue
                · exact .inl (Pending.setRevoker (s := s.setSocket i _) h hr
                    fun hp => .inl (hpends hp))
                · -- It is this scan that pends, and so it closes the socket.
                  push Not at hpends
                  obtain ⟨hmem | ⟨scan', hsome, hd, -, -, hkey⟩, hqueue⟩ := hpends
                  · exact absurd hmem hqueue
                  · rw [hscan] at hsome
                    cases hsome
                    refine .inr ⟨_, List.getElem?_set_self (List.getElem?_eq_some_iff.1 hcj).1, ?_⟩
                    rw [← hd, hd'] at hreach
                    show (cj.cancelled || _) = true
                    rw [reachesOwned_of_reaches hreach fun hb => hkey hb principal hreading]
                    exact Bool.or_true _
      · exact .refl s

end

end Scans

/-! ## Admission steps -/

/-- A ban in force later is in force now. -/
theorem banned_mono {t : AccessTables} {key : PublicKey} {now later : Int} (hle : now ≤ later)
    (h : t.banned key later) : t.banned key now := by
  unfold AccessTables.banned at h ⊢
  obtain ⟨expires, hexpires, hall⟩ := (Option.any_eq_true _ _).1 h
  refine (Option.any_eq_true _ _).2 ⟨expires, hexpires, ?_⟩
  cases expires with
  | none => rfl
  | some u =>
      have hlt : later < u := of_decide_eq_true hall
      exact decide_eq_true (by omega)

theorem isDenied_mono {m : NipFiDenyMap} {issuer : String} {key : PublicKey} {now later : Int}
    (hle : now ≤ later) (h : m.isDenied issuer key later) : m.isDenied issuer key now := by
  rw [NipFiDenyMap.isDenied_eq] at h ⊢
  unfold IssuerShard.isDenied at h ⊢
  obtain ⟨u, hu, hlt⟩ := (Option.any_eq_true _ _).1 h
  have hlt : later < u := of_decide_eq_true hlt
  exact (Option.any_eq_true _ _).2 ⟨u, hu, decide_eq_true (by omega)⟩

namespace SocketOk

variable {s : AccessPod} {i : Nat} {c c' : Socket} {owner : PublicKey}

section

variable (h : SocketOk s i c)
include h

/-- An admission that ended without a login. -/
theorem refused (hframe : c'.frame = c.frame)
    (howner : c'.admittedOwner = c.admittedOwner) (hphase : c'.phase = .done)
    (hauth : c'.auth ≠ .authenticated) : SocketOk s i c' where
  early _ := hauth
  owner owner h' := by
    rw [howner] at h'
    rw [hframe]
    exact h.owner owner h'
  reading owner h' := by
    rw [hphase] at h'
    cases h'
  deciding owner h' := by
    rw [hphase] at h'
    cases h'
  reached m hm := absurd (hm.2 hphase) hauth

theorem deny (close : Bool) (a : Nat) (ha : c.phase.rank = a) (hlt : a < 15) :
    SocketOk s i (c.deny close) := by
  have hearly : c.phase.rank < 15 := by omega
  have hauth := h.early hearly
  unfold Socket.deny
  split
  · exact h.refused rfl rfl rfl (by simp)
  · exact h.refused rfl rfl rfl hauth

/-- The admission goes on. The milestones it has passed are kept, and the ones
it passes now are reached. -/
theorem onward (hframe : c'.frame = c.frame) (hdone : c.phase ≠ .done)
    (hearly : c'.phase.rank < AdmissionPhase.denySet.rank → c'.auth ≠ .authenticated)
    (howner : ∀ owner, c'.admittedOwner = some owner → s.storedOwner c.frame.pubkey = some owner)
    (hreading : ∀ owner, c'.phase = .recordOwner owner →
      s.storedOwner c.frame.pubkey = some owner)
    (hdeciding : ∀ owner, c'.phase.asked = some owner →
      s.config.requireRelayMembership ∧ c.frame.delegate s.config = some owner)
    (hold : ∀ m : Milestone, m.rank < c.phase.rank → c.Reached s i m → c'.Reached s i m)
    (hnew : ∀ m : Milestone, c.phase.rank ≤ m.rank → m.rank < c'.phase.rank →
      c'.Reached s i m) : SocketOk s i c' where
  early := hearly
  owner owner h' := hframe ▸ howner owner h'
  reading owner h' := hframe ▸ hreading owner h'
  deciding owner h' := hframe ▸ hdeciding owner h'
  reached m hm := by
    rcases Nat.lt_or_ge m.rank c.phase.rank with hlt | hge
    · exact hold m hlt (h.reached m ⟨hlt, fun h' => absurd h' hdone⟩)
    · exact hnew m hge hm.1

omit h in
theorem ne_done {a : Nat} (ha : c.phase.rank = a) (hlt : a < 16) : c.phase ≠ .done := by
  intro hdone
  rw [hdone] at ha
  have ha : 16 = a := ha
  omega

theorem goto {phase : AdmissionPhase} (a b : Nat) (ha : c.phase.rank = a)
    (hb : phase.rank = b) (hab : a ≤ b ∧ b < 15)
    (hreading : ∀ owner, phase = .recordOwner owner → s.storedOwner c.frame.pubkey = some owner)
    (hdeciding : ∀ owner, phase.asked = some owner →
      s.config.requireRelayMembership ∧ c.frame.delegate s.config = some owner)
    (hnew : ∀ m : Milestone, a ≤ m.rank → m.rank < b → c.Reached s i m) :
    SocketOk s i (c.goto phase) := by
  have hearly : c.phase.rank < 15 := by omega
  refine h.onward rfl (ne_done ha (by omega)) (fun _ => h.early hearly) h.owner hreading hdeciding
    (fun _ _ hreached => hreached) (fun m hle hlt => ?_)
  have hlt : m.rank < phase.rank := hlt
  exact hnew m (by omega) (by omega)

/-- A step between two of the early gates passes no milestone but the first. -/
theorem early_goto {phase : AdmissionPhase} (hrank : c.phase.rank = 1)
    (hphase : phase.rank = 1)
    (hdeciding : ∀ owner, phase.asked = some owner →
      s.config.requireRelayMembership ∧ c.frame.delegate s.config = some owner) :
    SocketOk s i (c.goto phase) := by
  refine h.goto 1 1 hrank hphase (by decide) (fun owner h' => ?_) hdeciding
    fun m hle hlt => by omega
  rw [h'] at hphase
  cases hphase

/-- The owner to link is known. -/
theorem early_permit (hrank : c.phase.rank = 1) {owner : Option PublicKey}
    (htoken : ∀ o, c.frame.tokenOwner = some o → owner = some o)
    (hopen : s.config.requireRelayMembership = false → owner = c.frame.banOwner) :
    SocketOk s i { c with phase := .permit, nipOaOwner := owner } := by
  refine h.onward rfl (ne_done hrank (by decide)) (fun _ => h.early (by rw [hrank]; decide)) h.owner
    (fun _ h' => by cases h') (fun _ h' => by cases h') (fun m hlt hreached => ?_)
    (fun m hle hlt => ?_)
  · cases m with
    | paired => exact hreached
    | _ =>
        rw [hrank] at hlt
        exact absurd hlt (by decide)
  · have hlt : m.rank < 2 := hlt
    rw [hrank] at hle
    cases m with
    | granted => exact ⟨htoken, hopen⟩
    | _ => simp [Milestone.rank] at hle hlt

theorem earlyGate (hearly : c.phase.rank ≤ 1) :
    SocketOk s i (s.earlyGate c) := by
  have hdeny : ∀ close, SocketOk s i (c.deny close) := fun close =>
    h.deny close _ rfl (Nat.lt_of_le_of_lt hearly (by decide))
  unfold AccessPod.earlyGate
  split
  · next hphase =>
      split
      · next hpaired =>
          refine h.goto 0 1 (by rw [hphase]; rfl) rfl (by decide) (fun _ h' => by cases h')
            (fun _ h' => by cases h') (fun m hle hlt => ?_)
          cases m with
          | paired => exact hpaired
          | _ => exact absurd hlt (by decide)
      · have hrefused := hdeny true
        have hdone : (c.deny true).phase = .done := by
          unfold Socket.deny
          split <;> rfl
        refine hrefused.refused rfl rfl hdone ?_
        show (c.deny true).auth ≠ _
        have hauth := h.early (Nat.lt_of_le_of_lt hearly (by decide))
        unfold Socket.deny
        split
        · simp
        · exact hauth
  · next hphase =>
      split
      · exact hdeny true
      · cases c.frame.banOwner with
        | none => exact h.early_goto (by rw [hphase]; rfl) rfl (fun _ h' => by cases h')
        | some owner => exact h.early_goto (by rw [hphase]; rfl) rfl (fun _ h' => by cases h')
  · next hphase =>
      split
      · exact hdeny true
      · exact h.early_goto (by rw [hphase]; rfl) rfl (fun _ h' => by cases h')
  · next hphase =>
      split
      · exact hdeny false
      · exact h.early_goto (by rw [hphase]; rfl) rfl (fun _ h' => by cases h')
  · next hphase =>
      split
      · refine h.early_permit (by rw [hphase]; rfl) (fun o htoken => ?_) (fun _ => rfl)
        rw [htoken]
        rfl
      · next hclosed =>
          have hclosed : s.config.requireRelayMembership = true := by simpa using hclosed
          split
          · refine h.early_permit (by rw [hphase]; rfl) (fun o htoken => htoken) (fun hopen => ?_)
            rw [hclosed] at hopen
            cases hopen
          · split
            · next owner hdelegate =>
                refine h.early_goto (by rw [hphase]; rfl) rfl (fun o ho => ?_)
                cases ho
                exact ⟨hclosed, hdelegate⟩
            · exact hdeny false
  · next owner hphase =>
      split
      · obtain ⟨hclosed, hdelegate⟩ := h.deciding owner (by rw [hphase]; rfl)
        refine h.early_permit (by rw [hphase]; rfl) (fun o htoken => ?_) (fun hopen => ?_)
        · rw [AuthFrame.delegate, htoken] at hdelegate
          exact hdelegate.symm
        · rw [hclosed] at hopen
          cases hopen
      · exact hdeny false
  · exact h

/-- A key that is not restricted now is not banned from now on, nor is its
stored owner. -/
theorem reached_unbanned (hfree : ¬ s.restricted c.frame.pubkey) :
    c.Reached s i .unbanned := by
  have hfree : ¬ (s.tables.banned c.frame.pubkey s.now ||
    (s.tables.owners.lookup c.frame.pubkey).any (s.tables.banned · s.now)) = true := hfree
  rw [Bool.or_eq_true, not_or] at hfree
  intro _ t ht
  refine ⟨fun hbanned => absurd (banned_mono ht hbanned) hfree.1, fun owner howner hbanned => ?_⟩
  refine absurd ((Option.any_eq_true _ _).2 ⟨owner, h.owner owner howner, ?_⟩) hfree.2
  exact banned_mono ht hbanned

/-- The final membership check has answered. -/
theorem final_decided {a : Nat} (ha : c.phase.rank = a) (hrank : 9 < a ∧ a < 15)
    {decision : MembershipDecision}
    (hdecided : Socket.Reached s i { c with phase := .checkCancel, decision := some decision }
      .decided) :
    SocketOk s i { c with phase := .checkCancel, decision := some decision } := by
  have hearly : c.phase.rank < 15 := by omega
  refine h.onward rfl (ne_done ha (by omega)) (fun _ => h.early hearly) h.owner
    (fun _ h' => by cases h') (fun _ h' => by cases h') (fun m hlt hreached => ?_)
    (fun m hle hlt => ?_)
  · cases m with
    | decided => exact hdecided
    | _ => exact hreached
  · have hlt : m.rank < 13 := hlt
    have hge : 9 < m.rank := by omega
    cases m with
    | decided => exact hdecided
    | _ => simp [Milestone.rank] at hge hlt

/-- The socket is let in, unless the deny set has one of its keys. -/
theorem denySet_done (hphase : c.phase = .denySet) {cancelled : Bool}
    (hcancelled : cancelled = true ∨
      (cancelled = c.cancelled ∧ ¬ c.frame.assertionDenied s.denyMap s.now)) :
    SocketOk s i { c with cancelled, phase := .done } := by
  -- A socket that is still open is as open as before.
  have hlive : cancelled = false → c.cancelled = false := by
    rintro rfl
    rcases hcancelled with h | ⟨h, -⟩
    · cases h
    · exact h.symm
  refine h.onward rfl (by rw [hphase]; simp)
    (fun h' => absurd h' (Nat.not_lt.2 (by decide : 15 ≤ 16)))
    h.owner (fun _ h' => by cases h') (fun _ h' => by cases h') (fun m _ hreached => ?_)
    (fun m hle hlt => ?_)
  · cases m with
    | paired | granted | linked | bound => exact hreached
    | recorded | unbanned | undenied => exact fun hopen => hreached (hlive hopen)
    | decided =>
        simp only [Socket.Reached] at hreached ⊢
        split
        · next heq => rwa [heq] at hreached
        · next heq =>
            rw [heq] at hreached
            exact fun hopen => hreached (hlive hopen)
        · next heq => rwa [heq] at hreached
        · next heq => rwa [heq] at hreached
  · rw [hphase] at hle
    cases m with
    | undenied =>
        intro hopen a ha key hkey t ht hdenied
        rcases hcancelled with rfl | ⟨-, hfree⟩
        · cases hopen
        · refine absurd ?_ hfree
          have hdenied := isDenied_mono ht hdenied
          simp only [AuthFrame.assertionDenied]
          have ha : c.frame.assertion = some a := ha
          rw [ha, Option.any_some, List.any_eq_true]
          refine ⟨key, ?_, hdenied⟩
          rcases hkey with hkey | hkey
          · exact List.mem_append_left _ (by rw [hkey]; exact List.mem_singleton_self _)
          · exact List.mem_append_right _ (by rw [hkey]; exact List.mem_singleton_self _)
    | _ => exact absurd hle (by decide)

theorem finalGate : SocketOk s i (s.finalGate c) := by
  unfold AccessPod.finalGate
  split
  · next hphase =>
      split
      · exact h.deny true 9 (by rw [hphase]; rfl) (by decide)
      · next hfree =>
          have hunbanned := h.reached_unbanned hfree
          cases c.frame.banOwner with
          | none =>
              refine h.goto 9 11 (by rw [hphase]; rfl) rfl (by decide) (fun _ h' => by cases h')
                (fun _ h' => by cases h') (fun m hle hlt => ?_)
              cases m with
              | unbanned => exact hunbanned
              | _ => simp [Milestone.rank] at hle hlt
          | some owner =>
              refine h.goto 9 10 (by rw [hphase]; rfl) rfl (by decide) (fun _ h' => by cases h')
                (fun _ h' => by cases h') (fun m hle hlt => ?_)
              cases m with
              | unbanned => exact hunbanned
              | _ => simp [Milestone.rank] at hle hlt
  · next owner hphase =>
      split
      · exact h.deny true 10 (by rw [hphase]; rfl) (by decide)
      · refine h.goto 10 11 (by rw [hphase]; rfl) rfl (by decide) (fun _ h' => by cases h')
          (fun _ h' => by cases h') (fun m hle hlt => ?_)
        cases m <;> simp [Milestone.rank] at hle hlt
  · next hphase =>
      have hrank : c.phase.rank = 11 := by rw [hphase]; rfl
      split
      · next hopen =>
          have hopen : s.config.requireRelayMembership = false := by simpa using hopen
          exact h.final_decided hrank (by decide) hopen
      · next hclosed =>
        split
        · next hmember => exact h.final_decided hrank (by decide) fun _ hnot => absurd hmember hnot
        · split
          · next owner hdelegate =>
              refine h.goto 11 12 (by rw [hphase]; rfl) rfl (by decide) (fun _ h' => by cases h')
                (fun o h' => ?_) (fun m hle hlt => ?_)
              · cases h'
                exact ⟨by simpa using hclosed, hdelegate⟩
              · cases m <;> simp [Milestone.rank] at hle hlt
          · exact h.deny true 11 (by rw [hphase]; rfl) (by decide)
  · next owner hphase =>
      split
      · have hrank : c.phase.rank = 12 := by rw [hphase]; rfl
        exact h.final_decided hrank (by decide) (h.deciding owner (by rw [hphase]; rfl)).2
      · exact h.deny true 12 (by rw [hphase]; rfl) (by decide)
  · next hphase =>
      split
      · exact h.deny true 13 (by rw [hphase]; rfl) (by decide)
      · refine h.goto 13 14 (by rw [hphase]; rfl) rfl (by decide) (fun _ h' => by cases h')
          (fun _ h' => by cases h') (fun m hle hlt => ?_)
        cases m <;> simp [Milestone.rank] at hle hlt
  · next hphase =>
      split
      · refine h.onward rfl (by rw [hphase]; simp) (fun h' => absurd h' (Nat.lt_irrefl 15)) h.owner
          (fun _ h' => by cases h') (fun _ h' => by cases h') (fun _ _ hreached => hreached)
          (fun m hle hlt => ?_)
        rw [hphase] at hle
        have hlt : m.rank < 15 := hlt
        cases m <;> simp [Milestone.rank, AdmissionPhase.rank] at hle hlt
      · exact h.refused rfl rfl rfl (h.early (by rw [hphase]; decide))
  · next hphase =>
      split
      · exact h.denySet_done hphase (.inl rfl)
      · next hfree => exact h.denySet_done hphase (.inr ⟨rfl, hfree⟩)
  · exact h

/-- The stored owner is the one to link. -/
theorem link (hrank : c.phase.rank = 3) (howner : c.nipOaOwner = some owner)
    (hstored : s.storedOwner c.frame.pubkey = some owner) :
    SocketOk s i (c.goto .bindOwner) := by
  refine h.goto 3 5 hrank rfl (by decide) (fun _ h' => by cases h') (fun _ h' => by cases h')
    (fun m hle hlt => ?_)
  cases m with
  | linked =>
      intro o ho
      rw [howner] at ho
      cases ho
      exact hstored
  | _ => simp [Milestone.rank] at hle hlt

theorem ownerLink (hrank : c.phase.rank = 3)
    (howner : c.nipOaOwner = some owner) {unset : Socket}
    (hunset : SocketOk s i unset) :
    SocketOk s i (s.ownerLink c owner unset) := by
  unfold AccessPod.ownerLink
  split
  · next stored hstored =>
      split
      · next heq =>
          subst heq
          exact h.link hrank howner hstored
      · exact h.deny true 3 hrank (by decide)
  · exact hunset

omit h in
/-- The slot holds what it held, or the owner it is given. -/
theorem setAdmittedOwner_eq {o : PublicKey}
    (h : (c.setAdmittedOwner owner).admittedOwner = some o) :
    c.admittedOwner = some o ∨ o = owner := by
  have h : c.admittedOwner.or (some owner) = some o := h
  cases hslot : c.admittedOwner with
  | none =>
      rw [hslot] at h
      exact .inr (Option.some.inj h).symm
  | some x =>
      rw [hslot] at h
      exact .inl h

theorem bindOwner (hphase : c.phase = .bindOwner)
    (howner : c.nipOaOwner = some owner) :
    SocketOk s i ((c.setAdmittedOwner owner).goto .bindKey) := by
  have hlinked : c.Reached s i .linked :=
    h.reached .linked ⟨by rw [hphase]; decide, fun h' => by rw [hphase] at h'; cases h'⟩
  refine h.onward rfl (by rw [hphase]; simp) (fun _ => h.early (by rw [hphase]; decide))
    (fun o ho => ?_) (fun _ h' => by cases h') (fun _ h' => by cases h')
    (fun m hlt hreached => ?_) (fun m hle hlt => ?_)
  · rcases setAdmittedOwner_eq ho with ho | rfl
    · exact h.owner o ho
    · exact hlinked o howner
  · rw [hphase] at hlt
    cases m with
    | paired | granted | linked => exact hreached
    | _ => exact absurd hlt (by decide)
  · rw [hphase] at hle
    have hlt : m.rank < 6 := hlt
    cases m <;> simp [Milestone.rank, AdmissionPhase.rank] at hle hlt

theorem bindKey (hphase : c.phase = .bindKey) :
    SocketOk s i (c.setAuthenticatedIdentity.goto .readOwner) := by
  refine h.onward rfl (by rw [hphase]; simp) (fun _ => h.early (by rw [hphase]; decide))
    h.owner (fun _ h' => by cases h') (fun _ h' => by cases h')
    (fun m hlt hreached => ?_) (fun m hle hlt => ?_)
  · rw [hphase] at hlt
    cases m with
    | paired | granted | linked => exact hreached
    | _ => exact absurd hlt (by decide)
  · rw [hphase] at hle
    have hlt : m.rank < 7 := hlt
    cases m with
    | bound => exact ⟨rfl, rfl⟩
    | _ => simp [Milestone.rank, AdmissionPhase.rank] at hle hlt

theorem readOwner (hphase : c.phase = .readOwner) :
    SocketOk s i (c.goto
      ((c.nipOaOwner.or (s.storedOwner c.frame.pubkey)).elim .finalBan .recordOwner)) := by
  have hlinked : c.Reached s i .linked :=
    h.reached .linked ⟨by rw [hphase]; decide, fun h' => by rw [hphase] at h'; cases h'⟩
  have hrank : c.phase.rank = 7 := by rw [hphase]; rfl
  cases howner : c.nipOaOwner.or (s.storedOwner c.frame.pubkey) with
  | some owner =>
      refine h.goto 7 8 hrank rfl (by decide) (fun o ho => ?_) (fun _ h' => by cases h')
        (fun m hle hlt => ?_)
      · cases ho
        cases hnip : c.nipOaOwner with
        | some x =>
            rw [hnip] at howner
            cases howner
            exact hlinked owner hnip
        | none =>
            rw [hnip] at howner
            exact howner
      · cases m <;> simp [Milestone.rank] at hle hlt
  | none =>
      rw [Option.or_eq_none_iff] at howner
      refine h.goto 7 9 hrank rfl (by decide) (fun _ h' => by cases h') (fun _ h' => by cases h')
        (fun m hle hlt => ?_)
      cases m with
      | recorded =>
          intro _ o ho
          rw [howner.2] at ho
          cases ho
      | _ => simp [Milestone.rank] at hle hlt

theorem recordOwner (hphase : c.phase = .recordOwner owner) :
    SocketOk s i ((c.setAdmittedOwner owner).goto .finalBan) := by
  have hstored := h.reading owner hphase
  have hslot : ∀ o, (c.setAdmittedOwner owner).admittedOwner = some o →
      s.storedOwner c.frame.pubkey = some o := by
    intro o ho
    rcases setAdmittedOwner_eq ho with ho | rfl
    · exact h.owner o ho
    · exact hstored
  have hrank : c.phase.rank = 8 := by rw [hphase]; rfl
  refine h.onward rfl (by rw [hphase]; simp) (fun _ => h.early (by rw [hrank]; decide)) hslot
    (fun _ h' => by cases h') (fun _ h' => by cases h')
    (fun m hlt hreached => ?_) (fun m hle hlt => ?_)
  · rw [hrank] at hlt
    cases m with
    | paired | granted | linked | bound => exact hreached
    | _ => exact absurd hlt (by decide)
  · rw [hrank] at hle
    have hlt : m.rank < 9 := hlt
    cases m with
    | recorded =>
        intro _ o ho
        obtain ⟨x, hx⟩ : ∃ x, (c.setAdmittedOwner owner).admittedOwner = some x := by
          show ∃ x, c.admittedOwner.or (some owner) = some x
          cases c.admittedOwner with
          | none => exact ⟨owner, rfl⟩
          | some x => exact ⟨x, rfl⟩
        have hsame := hslot x hx
        have ho : s.storedOwner c.frame.pubkey = some o := ho
        rw [ho] at hsame
        cases hsame
        exact .inl hx
    | _ => simp [Milestone.rank] at hle hlt

theorem fault : SocketOk s i (faultSocket c) := by
  have hdeny : ∀ close, c.phase.rank < 15 → SocketOk s i (c.deny close) :=
    fun close hlt => h.deny close _ rfl hlt
  unfold faultSocket
  split
  case h_6 hphase => exact h.refused rfl rfl rfl (h.early (by rw [hphase]; decide))
  case h_15 => exact h
  all_goals next hphase => exact hdeny _ (by rw [hphase]; simp [AdmissionPhase.rank])

end

end SocketOk

/-! ## Runs -/

def AccessPod.Ok (s : AccessPod) : Prop :=
  ∀ (i : Nat) (c : Socket), s.sockets[i]? = some c → SocketOk s i c

namespace AccessPod.Ok

variable {s s' : AccessPod} {i : Nat} {c : Socket}

/-- The rest of the pod moves. -/
theorem grow (h : s.Ok) (hg : PodGrows s s')
    (hkept : ∀ (i : Nat) (c' : Socket), s'.sockets[i]? = some c' →
      ∃ c, s.sockets[i]? = some c ∧ c.Kept c') : s'.Ok := by
  intro i c' hc'
  obtain ⟨c, hc, hsame⟩ := hkept i c' hc'
  exact (h i c hc).grow hg hc hc' hsame

theorem grow_same (h : s.Ok) (hg : PodGrows s s') (hsockets : s'.sockets = s.sockets) : s'.Ok := by
  refine h.grow hg fun i c' hc' => ⟨c', ?_, .inl rfl⟩
  rw [← hsockets]
  exact hc'

/-- One socket moves. -/
theorem setSocket (h : s.Ok) {c' : Socket} (hok : SocketOk s i c') :
    (s.setSocket i c').Ok := by
  intro j d hd
  rcases getElem?_set_cases hd with ⟨rfl, rfl, -⟩ | ⟨-, hd⟩
  · exact ⟨hok.early, hok.owner, hok.reading, hok.deciding, hok.reached⟩
  · have hold := h j d hd
    exact ⟨hold.early, hold.owner, hold.reading, hold.deciding, hold.reached⟩

theorem setAgentOwner (h : s.Ok) {agent owner : PublicKey} (hnone : s.storedOwner agent = none) :
    (s.setAgentOwner agent owner).Ok :=
  h.grow_same (grows_setAgentOwner hnone) rfl

theorem advance (h : s.Ok) (hc : s.sockets[i]? = some c) :
    (s.advance i c).Ok := by
  have hok := h i c hc
  unfold AccessPod.advance
  split
  · next hphase =>
      have hrank : c.phase.rank = 2 := by rw [hphase]; rfl
      refine h.setSocket ?_
      split
      · refine hok.goto 2 3 hrank rfl (by decide) (fun _ h' => by cases h')
          (fun _ h' => by cases h') (fun m hle hlt => ?_)
        cases m <;> simp [Milestone.rank] at hle hlt
      · next hnone =>
          refine hok.goto 2 6 hrank rfl (by decide) (fun _ h' => by cases h')
            (fun _ h' => by cases h') (fun m hle hlt => ?_)
          cases m with
          | linked =>
              intro owner howner
              rw [howner] at hnone
              exact absurd rfl hnone
          | _ => simp [Milestone.rank] at hle hlt
  · next hphase =>
      split
      · next owner howner =>
          refine h.setSocket (hok.ownerLink (by rw [hphase]; rfl) howner ?_)
          refine hok.goto 3 3 (by rw [hphase]; rfl) rfl (by decide) (fun _ h' => by cases h')
            (fun _ h' => by cases h') (fun m hle hlt => by omega)
      · exact h
  · next hphase =>
      split
      · next owner howner hnone =>
          have hrecorded : (s.setAgentOwner c.frame.pubkey owner).Ok := h.setAgentOwner hnone
          refine hrecorded.setSocket ((hrecorded i c hc).link (by rw [hphase]; rfl) howner ?_)
          show (s.tables.owners.insert c.frame.pubkey owner).lookup c.frame.pubkey = some owner
          rw [HMap.lookup_insert_ite, if_pos rfl]
      · refine h.setSocket (hok.goto 3 3 (by rw [hphase]; rfl) rfl (by decide)
          (fun _ h' => by cases h') (fun _ h' => by cases h') (fun m hle hlt => by omega))
      · exact h
  · next hphase =>
      split
      · next owner howner =>
          refine h.setSocket (hok.ownerLink (by rw [hphase]; rfl) howner ?_)
          exact hok.deny true 3 (by rw [hphase]; rfl) (by decide)
      · exact h
  · next hphase =>
      split
      · next owner howner => exact h.setSocket (hok.bindOwner hphase howner)
      · exact h
  · next hphase => exact h.setSocket (hok.bindKey hphase)
  · next hphase => exact h.setSocket (hok.readOwner hphase)
  · next hphase => exact h.setSocket (hok.recordOwner hphase)
  all_goals first
    | next hphase => exact h.setSocket (hok.earlyGate (by rw [hphase]; simp [AdmissionPhase.rank]))
    | exact h.setSocket hok.finalGate
    | exact h

/-- A scan closes sockets, and changes nothing else about them. -/
theorem kept_setSocket (hc : s.sockets[i]? = some c) (b : Bool) (j : Nat)
    (c' : Socket)
    (hc' : (s.sockets.set i { c with cancelled := c.cancelled || b })[j]? = some c') :
    ∃ c, s.sockets[j]? = some c ∧ c.Kept c' := by
  rcases getElem?_set_cases hc' with ⟨rfl, rfl, -⟩ | ⟨-, hc'⟩
  · exact ⟨c, hc, c.kept_or b⟩
  · exact ⟨c', hc', .inl rfl⟩

theorem kept_visit {p : Nat} {r : Revoker} (hc : s.sockets[i]? = some c)
    (j : Nat) (c' : Socket) (hc' : (s.visit p r i c).sockets[j]? = some c') :
    ∃ c, s.sockets[j]? = some c ∧ c.Kept c' := by
  unfold visit at hc'
  split at hc'
  · exact ⟨c', hc', .inl rfl⟩
  · split at hc'
    · exact ⟨c', hc', .inl rfl⟩
    · split at hc'
      · exact ⟨c', hc', .inl rfl⟩
      · exact kept_setSocket hc _ j c' hc'

theorem kept_close {p : Nat} {r : Revoker} (j : Nat) (c' : Socket)
    (hc' : (s.close p r).sockets[j]? = some c') : ∃ c, s.sockets[j]? = some c ∧ c.Kept c' := by
  unfold close at hc'
  split at hc'
  · exact ⟨c', hc', .inl rfl⟩
  · split at hc'
    · next i _ _ _ _ _ =>
        unfold onSocket at hc'
        cases hc : s.sockets[i]? with
        | none =>
            rw [hc] at hc'
            exact ⟨c', hc', .inl rfl⟩
        | some c =>
            rw [hc] at hc'
            exact kept_setSocket hc _ j c' hc'
    · exact ⟨c', hc', .inl rfl⟩

theorem onSocket (h : s.Ok) {f : Socket → AccessPod}
    (hf : ∀ c, s.sockets[i]? = some c → (f c).Ok) : (s.onSocket i f).Ok := by
  unfold AccessPod.onSocket
  split
  · next c hc => exact hf c hc
  · exact h

theorem onRevoker (h : s.Ok) {p : Nat} {f : Revoker → AccessPod}
    (hf : ∀ r, s.revokers[p]? = some r → (f r).Ok) : (s.onRevoker p f).Ok := by
  unfold AccessPod.onRevoker
  split
  · next r hr => exact hf r hr
  · exact h

theorem startScan_sockets (p : Nat) (r : Revoker) : (s.startScan p r).sockets = s.sockets := by
  unfold startScan
  split <;> rfl

theorem endScan_sockets (p : Nat) (r : Revoker) : (s.endScan p r).sockets = s.sockets := by
  unfold endScan
  split
  · rfl
  · split <;> rfl

theorem lookupAgents_sockets (p : Nat) (r : Revoker) (found : Bool) :
    (s.lookupAgents p r found).sockets = s.sockets := by
  unfold lookupAgents
  split <;> rfl

/-- The handler of a closed socket is dropped. -/
theorem abort (h : s.Ok) (hc : s.sockets[i]? = some c)
    (hcancelled : c.cancelled) : (s.setSocket i (c.goto .done)).Ok := by
  have hok := h i c hc
  refine h.setSocket ⟨fun h' => absurd h' (Nat.not_lt.2 (by decide : 15 ≤ 16)), hok.owner,
    (fun _ h' => by cases h'), (fun _ h' => by cases h'), fun m hm => ?_⟩
  have hauth : c.auth = .authenticated := hm.2 rfl
  -- Only an admission past the login is authenticated.
  have hlate : 15 ≤ c.phase.rank := Nat.not_lt.1 fun hlt => hok.early hlt hauth
  have hpast : m.rank < 15 → c.Reached s i m := fun hlt =>
    hok.reached m ⟨Nat.lt_of_lt_of_le hlt hlate, fun _ => hauth⟩
  cases m with
  | undenied =>
      intro hlive
      have hlive : c.cancelled = false := hlive
      rw [hcancelled] at hlive
      cases hlive
  | _ => exact hpast (by decide)

theorem expireAuth (h : s.Ok) (hc : s.sockets[i]? = some c) :
    (s.setSocket i { c with auth := .failed }).Ok := by
  have hok := h i c hc
  refine h.setSocket ⟨fun _ => by simp, hok.owner, hok.reading, hok.deciding, fun m hm => ?_⟩
  refine hok.reached m ⟨hm.1, fun hdone => ?_⟩
  cases hm.2 hdone

theorem cancel (h : s.Ok) (hc : s.sockets[i]? = some c) :
    (s.setSocket i { c with cancelled := true }).Ok := by
  have hok := h i c hc
  exact h.setSocket ⟨hok.early, hok.owner, hok.reading, hok.deciding,
    fun m hm => hok.reached_closed (.refl s) hm⟩

theorem connect (h : s.Ok) (frame : AuthFrame) :
    Ok { s with sockets := s.sockets ++ [{ frame }] } := by
  intro i c hc
  rcases getElem?_snoc_cases hc with ⟨-, rfl⟩ | ⟨-, hc⟩
  · exact ⟨fun _ => by simp, (fun _ h' => by cases h'), (fun _ h' => by cases h'),
      (fun _ h' => by cases h'), fun m hm => absurd hm.1 (Nat.not_lt_zero _)⟩
  · have hok := h i c hc
    exact ⟨hok.early, hok.owner, hok.reading, hok.deciding, hok.reached⟩

theorem step (h : s.Ok) (m : AccessMove) : (s.step m).Ok := by
  cases m with
  | tick d =>
      refine h.grow_same (.lenient rfl ?_ rfl rfl (fun _ _ h => h) (fun _ h => h)
        (fun _ _ _ h => h)) rfl
      show s.now ≤ s.now + d
      omega
  | connect frame => exact h.connect frame
  | advance i => exact h.onSocket fun c hc => h.advance hc
  | fault i => exact h.onSocket fun c hc => h.setSocket (h i c hc).fault
  | abort i =>
      refine h.onSocket fun c hc => ?_
      split
      · next hcancelled => exact h.abort hc hcancelled
      · exact h
  | expireAuth i =>
      refine h.onSocket fun c hc => ?_
      split
      · exact h.expireAuth hc
      · exact h
  | cancel i => exact h.onSocket fun c hc => h.cancel hc
  | ban target expires => exact h.grow_same (grows_ban s target expires) rfl
  | unban target =>
      refine h.grow_same (.lenient rfl (Int.le_refl _) rfl rfl (fun key t hbanned => ?_)
        (fun _ h => h) (fun _ _ _ h => h)) rfl
      have hbanned : ((s.tables.bans.erase target).lookup key).any _ = true := hbanned
      rw [HMap.lookup_erase_ite] at hbanned
      split at hbanned
      · cases hbanned
      · exact hbanned
  | addMember target =>
      exact h.grow_same (.lenient rfl (Int.le_refl _) rfl rfl (fun _ _ h => h)
        (fun _ hmem => Finset.mem_insert_of_mem hmem) (fun _ _ _ h => h)) rfl
  | removeMember target => exact h.grow_same (grows_removeMember s target) rfl
  | recordAgentOwner agent owner =>
      unfold AccessPod.step
      dsimp only
      split
      · next hnone => exact h.setAgentOwner hnone
      · exact h
  | denyReserve issuer jti target =>
      refine h.grow_same (.lenient rfl (Int.le_refl _) rfl rfl (fun _ _ h => h) (fun _ h => h)
        (fun issuer' key t hdenied => ?_)) rfl
      rcases isDenied_setShard hdenied with hdenied | ⟨rfl, hdenied⟩
      · exact hdenied
      · rw [NipFiDenyMap.isDenied_eq]
        exact isDenied_of_reserve hdenied
  | denyCommit issuer jti effectiveExpiry target deniedUntil =>
      exact h.grow_same (grows_deny fun _ _ _ hdenied => isDenied_of_commit hdenied) rfl
  | denyMerge issuer target deniedUntil =>
      exact h.grow_same (grows_deny fun _ _ _ hdenied => isDenied_of_mergeCrossPodDeny hdenied) rfl
  | startScan p =>
      exact h.onRevoker fun r hr => h.grow_same (grows_startScan hr) (startScan_sockets p r)
  | visit p i =>
      refine h.onRevoker fun r hr => h.onSocket fun c hc => ?_
      exact h.grow (grows_visit hr hc) (kept_visit hc)
  | close p => exact h.onRevoker fun r hr => h.grow (grows_close hr) kept_close
  | endScan p =>
      exact h.onRevoker fun r hr => h.grow_same (grows_endScan hr) (endScan_sockets p r)
  | lookupAgents p =>
      exact h.onRevoker fun r hr =>
        h.grow_same (grows_lookupAgents hr true) (lookupAgents_sockets p r true)
  | failLookup p =>
      exact h.onRevoker fun r hr =>
        h.grow_same (grows_lookupAgents hr false) (lookupAgents_sockets p r false)

end AccessPod.Ok

/-! ## Revocations -/

/-- Every disconnect has finished. -/
def AccessPod.Settled (s : AccessPod) : Prop := ∀ r ∈ s.revokers, r.finished

theorem AccessPod.Settled.not_pending {s : AccessPod} (h : s.Settled) (d : Disconnect)
    (byKey : Bool) (i : Nat) : ¬ s.Pending d byKey i := by
  rintro ⟨r, hr, hpends⟩
  have hfinished := h r hr
  simp only [Revoker.finished, Bool.and_eq_true, List.isEmpty_iff, Option.isNone_iff_eq_none]
    at hfinished
  rcases hpends with hmem | ⟨scan, hscan, -⟩
  · rw [hfinished.1.1] at hmem
    cases hmem
  · rw [hfinished.1.2] at hscan
    cases hscan

/-- The owners whose ban revokes the socket: its token owner, its stored owner,
and the NIP-OA owner it is linked to, on an open relay any that it proves. -/
def AccessPod.OwnedBy (s : AccessPod) (c : Socket) (owner : PublicKey) : Prop :=
  c.frame.tokenOwner = some owner ∨ s.storedOwner c.frame.pubkey = some owner ∨
    c.nipOaOwner = some owner ∨
    (s.config.requireRelayMembership = false ∧ c.frame.banOwner = some owner)

/-- What revokes an admitted socket: a ban of its key or of such an owner, being
off the roster unless the final check admitted it through a member, and a deny
entry. -/
inductive AccessPod.Revoked (s : AccessPod) (c : Socket) : Prop where
  | key : s.banned c.frame.pubkey → Revoked s c
  | owner (owner : PublicKey) : s.OwnedBy c owner → s.banned owner → Revoked s c
  | removed : s.config.requireRelayMembership → c.frame.pubkey ∉ s.tables.members →
      (∀ owner, c.frame.delegate s.config = some owner →
        c.decision ≠ some (.viaOwner owner)) → Revoked s c
  | denied : c.frame.assertionDenied s.denyMap s.now → Revoked s c

theorem AccessDeployment.ok_run (d : AccessDeployment) (ms : List AccessMove) :
    (d.machine.run ms).Ok := by
  refine d.machine.stable_runFrom (I := Ok) (fun s m h => h.step m) ?_ ms
  intro i c hc
  cases hc

/-- Once its admission and all disconnects have finished, a revoked socket is not
authenticated or it is closed. -/
theorem revoked_sockets_closed (d : AccessDeployment) (ms : List AccessMove)
    (hsettled : (d.machine.run ms).Settled) (c : Socket) (hc : c ∈ (d.machine.run ms).sockets)
    (hdone : c.phase = .done) (hrevoked : (d.machine.run ms).Revoked c) :
    c.auth ≠ .authenticated ∨ c.cancelled = true := by
  by_contra hopen
  rw [not_or, not_not, Bool.not_eq_true] at hopen
  obtain ⟨hauth, hlive⟩ := hopen
  obtain ⟨i, hi⟩ := List.getElem?_of_mem hc
  have hok := d.ok_run ms i c hi
  generalize d.machine.run ms = s at hsettled hrevoked hok
  have hreached : ∀ m, c.Reached s i m := fun m => by
    refine hok.reached m ⟨?_, fun _ => hauth⟩
    rw [hdone]
    cases m <;> decide
  -- The owner of the key is the owner of the socket.
  have hslot : ∀ owner, s.storedOwner c.frame.pubkey = some owner →
      c.admittedOwner = some owner := by
    intro owner howner
    rcases hreached .recorded hlive owner howner with hslot | ⟨-, hp⟩
    · exact hslot
    · exact absurd hp (hsettled.not_pending _ _ _)
  obtain ⟨hkey, howner⟩ := hreached .unbanned hlive s.now (Int.le_refl _)
  cases hrevoked with
  | key hbanned => exact hsettled.not_pending _ _ _ (hkey hbanned)
  | owner owner howned hbanned =>
      have hlinked : ∀ o, c.nipOaOwner = some o → s.storedOwner c.frame.pubkey = some o :=
        hreached .linked
      have hgranted := hreached .granted
      have hstored : s.storedOwner c.frame.pubkey = some owner := by
        rcases howned with htoken | hstored | hnip | ⟨hopen, hproven⟩
        · exact hlinked owner (hgranted.1 owner htoken)
        · exact hstored
        · exact hlinked owner hnip
        · exact hlinked owner ((hgranted.2 hopen).trans hproven)
      exact hsettled.not_pending _ _ _ (howner owner (hslot owner hstored) hbanned)
  | removed hrequired hmember hdelegate =>
      have hdecided := hreached .decided
      simp only [Socket.Reached] at hdecided
      split at hdecided
      · rw [hrequired] at hdecided
        cases hdecided
      · exact hsettled.not_pending _ _ _ (hdecided hlive hmember)
      · next owner hvia => exact hdelegate owner hdecided hvia
      · exact hdecided
  | denied hdenied =>
      unfold AuthFrame.assertionDenied at hdenied
      obtain ⟨a, ha, hany⟩ := (Option.any_eq_true _ _).1 hdenied
      obtain ⟨key, hmem, hdenied⟩ := List.any_eq_true.1 hany
      have hkeys : a.assertedKey = some key ∨ a.owner = some key := by
        rcases List.mem_append.1 hmem with hmem | hmem
        · exact .inl (Option.mem_toList.1 hmem)
        · exact .inr (Option.mem_toList.1 hmem)
      exact hsettled.not_pending _ _ _
        (hreached .undenied hlive a ha key hkeys s.now (Int.le_refl _) hdenied)

/-! ## Two owners -/

instance (s : AccessPod) : Decidable s.Settled :=
  inferInstanceAs (Decidable (∀ r ∈ s.revokers, r.finished))

/-- An agent's key with the NIP-OA tag of its owner. -/
def agentFrame : AuthFrame := { pubkey := .ofByte 1, nipOaOwner := some (.ofByte 2) }

/-- A relay with the agent and its owner on the roster. -/
def agentRelay (requireRelayMembership : Bool) : AccessDeployment where
  config := { requireRelayMembership, allowNipOaAuth := true, pubkeyAllowlistEnabled := false }
  now := 0
  tables := { members := {.ofByte 1, .ofByte 2} }
  denyMap := .new 1 []

/-- A whole `revoke_live_access`, of a target that stores no agent. -/
def revokeAll (p : Nat) : List AccessMove :=
  [.startScan p, .visit p 0, .close p, .endScan p, .lookupAgents p]

/-- The owner of an agent on an open relay is banned between the final ban check
and the login. -/
theorem revoked_sockets_closed_owner_banned :
    let ms := .connect agentFrame :: List.replicate 13 (.advance 0) ++
      [.startScan 0, .visit 0 0, .close 0, .endScan 0, .ban (.ofByte 2) none] ++
      [.startScan 1, .visit 1 0, .close 1, .endScan 1, .lookupAgents 1, .startScan 1, .visit 1 0,
        .close 1, .endScan 1] ++ List.replicate 4 (.advance 0)
    ∃ c ∈ ((agentRelay false).machine.run ms).sockets,
      ((agentRelay false).machine.run ms).Revoked c ∧
        (c.auth ≠ .authenticated ∨ c.cancelled = true) := by
  intro ms
  obtain ⟨c, hc, hdone, hproven, hbanned⟩ :
      ∃ c ∈ ((agentRelay false).machine.run ms).sockets, c.phase = .done ∧
        c.frame.banOwner = some (.ofByte 2) ∧
        ((agentRelay false).machine.run ms).banned (.ofByte 2) := by
    decide +kernel
  have hrevoked : ((agentRelay false).machine.run ms).Revoked c :=
    .owner _ (.inr (.inr (.inr ⟨by decide +kernel, hproven⟩))) hbanned
  exact ⟨c, hc, hrevoked,
    revoked_sockets_closed (agentRelay false) ms (by decide +kernel) c hc hdone hrevoked⟩

/-- The plain reading: any owner the socket proves counts, and so does being off
the roster. -/
def AccessPod.plainlyRevoked (s : AccessPod) (c : Socket) : Bool :=
  s.banned c.frame.pubkey || c.frame.banOwner.any s.banned ||
    (s.storedOwner c.frame.pubkey).any s.banned ||
    (s.config.requireRelayMembership && c.frame.pubkey ∉ s.tables.members) ||
    c.frame.assertionDenied s.denyMap s.now

/-- An agent that is taken off the roster while it logs in is admitted through
its owner, and an agent admitted in its own right stays when the owner it proves
is banned. -/
theorem plainly_revoked_sockets_stay :
    let removed := .connect agentFrame :: List.replicate 6 (.advance 0) ++
      [.removeMember (.ofByte 1)] ++ revokeAll 0 ++ List.replicate 9 (.advance 0)
    let ownerBanned := .connect agentFrame :: List.replicate 14 (.advance 0) ++
      [.ban (.ofByte 2) none] ++ revokeAll 0
    (((agentRelay true).machine.run removed).Settled ∧
      ¬ ∀ c ∈ ((agentRelay true).machine.run removed).sockets, c.phase = .done →
        ((agentRelay true).machine.run removed).plainlyRevoked c →
          c.auth ≠ .authenticated ∨ c.cancelled = true) ∧
    (((agentRelay true).machine.run ownerBanned).Settled ∧
      ¬ ∀ c ∈ ((agentRelay true).machine.run ownerBanned).sockets, c.phase = .done →
        ((agentRelay true).machine.run ownerBanned).plainlyRevoked c →
          c.auth ≠ .authenticated ∨ c.cancelled = true) := by
  decide +kernel

end Buzz.Relay
