import Buzz.Auth.DenyMap
import Buzz.Lib.Machine

/-!
# Admission and revocation

The success path of `handle_auth`, one await or one write to the connection
registry a step, beside the revocations that meet it on the same pod. A
revocation commits its row or its deny entry, and then a disconnect goes over
the registry entry by entry; first recording an agent's owner does the same with
the `unowned_only` disconnect.

The tables are those of one community, and all sockets here are of it. What
`verify_auth_event` has verified comes with the socket: the key, the owner a
valid NIP-OA tag proves, and the NIP-FI assertion. `observer_owner_cache` holds
links that are stored, so a hit answers what the read would. The disconnect after
an admission's own owner recording is a process like the others, and may come
later than in the source. A point in time is a number of nanoseconds.

Frames, metrics, the connection class and what follows the last check are not
modelled.
-/

namespace Buzz.Relay

open Buzz.Auth Buzz.Lib

/-! ## The tables -/

structure AccessTables where
  /-- `community_bans`: who is banned, and until when. -/
  bans : HMap PublicKey (Option Int) := ∅
  /-- `relay_members`. -/
  members : Finset PublicKey := ∅
  /-- `users.agent_owner_pubkey`. -/
  owners : HMap PublicKey PublicKey := ∅
  allowlist : Finset PublicKey := ∅

namespace AccessTables

/-- `banned AND (ban_expires_at IS NULL OR ban_expires_at > now())`. -/
def banned (t : AccessTables) (key : PublicKey) (now : Int) : Bool :=
  (t.bans.lookup key).any fun expires => expires.all (now < ·)

/-- `moderation_restriction_state(..).banned`: the key's own row, or its stored
owner's. -/
def restricted (t : AccessTables) (key : PublicKey) (now : Int) : Bool :=
  t.banned key now || (t.owners.lookup key).any (t.banned · now)

/-- `list_agents_for_owner`. -/
def agentsOf (t : AccessTables) (owner : PublicKey) : List PublicKey :=
  t.owners.keys.filter fun agent => t.owners.lookup agent = some owner

end AccessTables

structure AccessConfig where
  requireRelayMembership : Bool
  allowNipOaAuth : Bool
  pubkeyAllowlistEnabled : Bool
deriving DecidableEq

/-! ## Sockets -/

/-- `VerifiedAssertion`, as far as admission reads it. -/
structure Assertion where
  issuer : String
  assertedKey : Option PublicKey
  owner : Option PublicKey
deriving DecidableEq

structure NipFiSession where
  issuer : String
  owner : Option PublicKey
deriving DecidableEq

/-- `NipFiSession::matches`. -/
def NipFiSession.reaches (s : NipFiSession) (issuer : String) (proven target : PublicKey) : Bool :=
  s.issuer == issuer && (proven == target || s.owner == some target)

structure AuthFrame where
  pubkey : PublicKey
  /-- `extract_nip_oa_owner`. -/
  nipOaOwner : Option PublicKey := none
  assertion : Option Assertion := none
deriving DecidableEq

namespace AuthFrame

variable (f : AuthFrame)

def tokenOwner : Option PublicKey := f.assertion.bind (·.owner)

/-- `enforce_nip_fi_key_pairing`. -/
def paired : Bool := f.assertion.all (·.assertedKey == some f.pubkey)

/-- The owner whose ban the verdict asks for after the key's own. -/
def banOwner : Option PublicKey := f.tokenOwner.or f.nipOaOwner

/-- The owner through whom a key that is no member can be admitted. -/
def delegate (config : AccessConfig) : Option PublicKey :=
  f.tokenOwner.or (if config.allowNipOaAuth then f.nipOaOwner else none)

/-- `NipFiSession::from_assertion`. -/
def session : Option NipFiSession :=
  f.assertion.map fun a => ⟨a.issuer, a.owner⟩

/-- `assertion_denied`. -/
def assertionDenied (m : NipFiDenyMap) (now : Int) : Bool :=
  f.assertion.any fun a =>
    (a.assertedKey.toList ++ a.owner.toList).any fun key => m.isDenied a.issuer key now

end AuthFrame

inductive MembershipDecision where
  | openRelay
  | member
  | viaOwner (owner : PublicKey)
deriving DecidableEq

inductive AuthState where
  | pending
  | authenticated
  | failed
deriving DecidableEq

/-- The next thing `handle_auth` does. -/
inductive AdmissionPhase where
  | pairing
  | banGate
  | banGateOwner (owner : PublicKey)
  | allowlistGate
  | membership
  | membershipOwner (owner : PublicKey)
  /-- `acquire_effect`. -/
  | permit
  /-- `link_agent_owner`: the read, the first-write-wins update, and the read
  after an update that came second. -/
  | linkRead
  | linkWrite
  | linkReread
  | bindOwner
  | bindKey
  /-- `admitted_owner`, and the write of what it returned. -/
  | readOwner
  | recordOwner (owner : PublicKey)
  /-- `final_admission_denial`. -/
  | finalBan
  | finalBanOwner (owner : PublicKey)
  | finalMember
  | finalMemberOwner (owner : PublicKey)
  | checkCancel
  | authenticate
  | denySet
  | done
deriving DecidableEq

/-- A connection with its registry entry and its AUTH. -/
structure Socket where
  frame : AuthFrame
  phase : AdmissionPhase := .pairing
  auth : AuthState := .pending
  /-- `nip_oa_owner`: the owner to link. -/
  nipOaOwner : Option PublicKey := none
  /-- What the final membership check answered. -/
  decision : Option MembershipDecision := none
  authenticatedPubkey : Option PublicKey := none
  nipFi : Option NipFiSession := none
  admittedOwner : Option PublicKey := none
  cancelled : Bool := false
deriving DecidableEq

namespace Socket

def goto (c : Socket) (phase : AdmissionPhase) : Socket := { c with phase }

/-- Refuse the AUTH. Two of the early gates leave an off-mode socket open. -/
def deny (c : Socket) (close : Bool) : Socket :=
  match c.auth with
  | .pending =>
      { c with
          auth := .failed
          phase := .done
          cancelled := c.cancelled || close || c.frame.assertion.isSome }
  | _ => { c with phase := .done }

/-- `OnceLock::set`. -/
def setAdmittedOwner (c : Socket) (owner : PublicKey) : Socket :=
  { c with admittedOwner := c.admittedOwner.or (some owner) }

def setAuthenticatedIdentity (c : Socket) : Socket :=
  { c with authenticatedPubkey := some c.frame.pubkey, nipFi := c.frame.session }

end Socket

/-! ## Disconnects -/

inductive Disconnect where
  | pubkey (target : PublicKey) (unownedOnly : Bool)
  | nipFi (issuer : String) (target : PublicKey)
deriving DecidableEq

/-- The rest of the test of `disconnect_pubkey` once `principal` is read. -/
def reachesOwned (principal : Bool) (target : PublicKey) (unownedOnly : Bool)
    (admittedOwner : Option PublicKey) : Bool :=
  match admittedOwner with
  | some owner => !unownedOnly && (principal || owner == target)
  | none => principal

/-- The loop over the registry. It sees every entry that was there when it
began, and may see later ones. -/
structure Scan where
  disconnect : Disconnect
  registered : Nat
  visited : List Nat := []
  /-- The entry it is at, and whether its key is the target. -/
  reading : Option (Nat × Bool) := none
deriving DecidableEq

/-- What is left of a revocation after its commit. -/
structure Revoker where
  queue : List Disconnect
  scan : Option Scan := none
  /-- Whose stored agents `disconnect_owned_agents` has yet to look up. -/
  sweep : Option PublicKey := none
deriving DecidableEq

def Revoker.finished (r : Revoker) : Bool := r.queue.isEmpty && r.scan.isNone && r.sweep.isNone

/-- `revoke_live_access`. -/
def revokeLiveAccess (target : PublicKey) : Revoker :=
  { queue := [.pubkey target false], sweep := some target }

/-- `disconnect_unowned_agent_clusterwide`, on this pod. -/
def disconnectUnowned (agent : PublicKey) : Revoker := { queue := [.pubkey agent true] }

def disconnectNipFi (issuer : String) (target : PublicKey) : Revoker :=
  { queue := [.nipFi issuer target] }

/-! ## The pod -/

structure AccessPod where
  config : AccessConfig
  now : Int
  tables : AccessTables
  denyMap : NipFiDenyMap
  sockets : List Socket := []
  revokers : List Revoker := []

inductive AccessMove where
  | tick (nanos : Nat)
  | connect (frame : AuthFrame)
  | advance (socket : Nat)
  /-- The read or write the handler waits for fails. -/
  | fault (socket : Nat)
  /-- The handler is dropped when the socket is cancelled. -/
  | abort (socket : Nat)
  | expireAuth (socket : Nat)
  /-- Anything else that closes the socket. -/
  | cancel (socket : Nat)
  | ban (target : PublicKey) (expires : Option Int)
  | unban (target : PublicKey)
  | addMember (target : PublicKey)
  | removeMember (target : PublicKey)
  /-- A first recording elsewhere: an HTTP request or an invite. -/
  | recordAgentOwner (agent owner : PublicKey)
  | denyReserve (issuer jti : String) (target : PublicKey)
  | denyCommit (issuer jti : String) (effectiveExpiry : Int) (target : PublicKey)
      (deniedUntil : Int)
  | denyMerge (issuer : String) (target : PublicKey) (deniedUntil : Int)
  | startScan (revoker : Nat)
  | visit (revoker : Nat) (socket : Nat)
  /-- The owner is read, and the socket closed if it is one to close. -/
  | close (revoker : Nat)
  | endScan (revoker : Nat)
  | lookupAgents (revoker : Nat)
  | failLookup (revoker : Nat)

namespace AccessPod

variable (s : AccessPod)

def setSocket (i : Nat) (c : Socket) : AccessPod :=
  { s with sockets := s.sockets.set i c }

def setRevoker (p : Nat) (r : Revoker) : AccessPod :=
  { s with revokers := s.revokers.set p r }

def spawn (r : Revoker) : AccessPod := { s with revokers := s.revokers ++ [r] }

def banned (key : PublicKey) : Bool := s.tables.banned key s.now

def restricted (key : PublicKey) : Bool := s.tables.restricted key s.now

def storedOwner (agent : PublicKey) : Option PublicKey :=
  s.tables.owners.lookup agent

/-- `set_agent_owner` where none is stored, with the disconnect after it. -/
def setAgentOwner (agent owner : PublicKey) : AccessPod :=
  { s with tables.owners := s.tables.owners.insert agent owner }.spawn (disconnectUnowned agent)

/-! ## Admission -/

/-- The gates before the effect permit. -/
def earlyGate (c : Socket) : Socket :=
  match c.phase with
  | .pairing =>
      if c.frame.paired then c.goto .banGate else { c.deny true with cancelled := true }
  | .banGate =>
      if s.restricted c.frame.pubkey then c.deny true
      else c.goto (c.frame.banOwner.elim .allowlistGate .banGateOwner)
  | .banGateOwner owner => if s.restricted owner then c.deny true else c.goto .allowlistGate
  | .allowlistGate =>
      if s.config.pubkeyAllowlistEnabled && c.frame.pubkey ∉ s.tables.allowlist then c.deny false
      else c.goto .membership
  | .membership =>
      if !s.config.requireRelayMembership then
        { c with phase := .permit, nipOaOwner := c.frame.tokenOwner.or c.frame.nipOaOwner }
      else if c.frame.pubkey ∈ s.tables.members then
        { c with phase := .permit, nipOaOwner := c.frame.tokenOwner }
      else
        match c.frame.delegate s.config with
        | some owner => c.goto (.membershipOwner owner)
        | none => c.deny false
  | .membershipOwner owner =>
      if owner ∈ s.tables.members then { c with phase := .permit, nipOaOwner := some owner }
      else c.deny false
  | _ => c

/-- `stored_owner_link`, with where to go on when no owner is stored. -/
def ownerLink (c : Socket) (owner : PublicKey) (unset : Socket) : Socket :=
  match s.storedOwner c.frame.pubkey with
  | some stored => if stored = owner then c.goto .bindOwner else c.deny true
  | none => unset

/-- The final ban and membership verdict, and `authenticate`. -/
def finalGate (c : Socket) : Socket :=
  match c.phase with
  | .finalBan =>
      if s.restricted c.frame.pubkey then c.deny true
      else c.goto (c.frame.banOwner.elim .finalMember .finalBanOwner)
  | .finalBanOwner owner => if s.restricted owner then c.deny true else c.goto .finalMember
  | .finalMember =>
      if !s.config.requireRelayMembership then
        { c with phase := .checkCancel, decision := some .openRelay }
      else if c.frame.pubkey ∈ s.tables.members then
        { c with phase := .checkCancel, decision := some .member }
      else
        match c.frame.delegate s.config with
        | some owner => c.goto (.finalMemberOwner owner)
        | none => c.deny true
  | .finalMemberOwner owner =>
      if owner ∈ s.tables.members then
        { c with phase := .checkCancel, decision := some (.viaOwner owner) }
      else c.deny true
  | .checkCancel => if c.cancelled then c.deny true else c.goto .authenticate
  | .authenticate =>
      if c.auth = .pending then { c with auth := .authenticated, phase := .denySet }
      else c.goto .done
  | .denySet =>
      if c.frame.assertionDenied s.denyMap s.now then { c with cancelled := true, phase := .done }
      else c.goto .done
  | _ => c

/-- One step of `handle_auth`. -/
def advance (i : Nat) (c : Socket) : AccessPod :=
  match c.phase with
  | .permit => s.setSocket i (c.goto (if c.nipOaOwner.isSome then .linkRead else .bindKey))
  | .linkRead =>
      match c.nipOaOwner with
      | some owner => s.setSocket i (s.ownerLink c owner (c.goto .linkWrite))
      | none => s
  | .linkWrite =>
      match c.nipOaOwner, s.storedOwner c.frame.pubkey with
      | some owner, none =>
          (s.setAgentOwner c.frame.pubkey owner).setSocket i (c.goto .bindOwner)
      | some _, some _ => s.setSocket i (c.goto .linkReread)
      | none, _ => s
  | .linkReread =>
      match c.nipOaOwner with
      | some owner => s.setSocket i (s.ownerLink c owner (c.deny true))
      | none => s
  | .bindOwner =>
      match c.nipOaOwner with
      | some owner => s.setSocket i ((c.setAdmittedOwner owner).goto .bindKey)
      | none => s
  | .bindKey => s.setSocket i (c.setAuthenticatedIdentity.goto .readOwner)
  | .readOwner =>
      let owner := c.nipOaOwner.or (s.storedOwner c.frame.pubkey)
      s.setSocket i (c.goto (owner.elim .finalBan .recordOwner))
  | .recordOwner owner => s.setSocket i ((c.setAdmittedOwner owner).goto .finalBan)
  | .pairing | .banGate | .banGateOwner _ | .allowlistGate | .membership | .membershipOwner _ =>
      s.setSocket i (s.earlyGate c)
  | .finalBan | .finalBanOwner _ | .finalMember | .finalMemberOwner _ | .checkCancel
  | .authenticate | .denySet => s.setSocket i (s.finalGate c)
  | .done => s

/-- Every await but the permit's fails closed; an expired session just ends
the handler. -/
def faultSocket (c : Socket) : Socket :=
  match c.phase with
  | .banGate | .banGateOwner _ => c.deny true
  | .allowlistGate | .membership | .membershipOwner _ => c.deny false
  | .permit => c.goto .done
  | .linkRead | .linkWrite | .linkReread | .readOwner => c.deny true
  | .finalBan | .finalBanOwner _ | .finalMember | .finalMemberOwner _ => c.deny true
  | _ => c

def onSocket (i : Nat) (f : Socket → AccessPod) : AccessPod :=
  match s.sockets[i]? with
  | some c => f c
  | none => s

/-! ## Revocation -/

def onRevoker (p : Nat) (f : Revoker → AccessPod) : AccessPod :=
  match s.revokers[p]? with
  | some r => f r
  | none => s

def startScan (p : Nat) (r : Revoker) : AccessPod :=
  match r.scan, r.queue with
  | none, d :: rest =>
      let scan : Scan := { disconnect := d, registered := s.sockets.length }
      s.setRevoker p { r with queue := rest, scan := some scan }
  | _, _ => s

/-- Look at an entry. A NIP-FI disconnect tests it under the key's lock; the
other one reads the key first. -/
def visit (p : Nat) (r : Revoker) (i : Nat) (c : Socket) : AccessPod :=
  match r.scan with
  | none => s
  | some scan =>
      if scan.reading.isSome || scan.visited.contains i then s
      else
        match scan.disconnect with
        | .pubkey target _ =>
            let principal := c.authenticatedPubkey == some target
            s.setRevoker p { r with scan := some { scan with reading := some (i, principal) } }
        | .nipFi issuer target =>
            let reached := c.authenticatedPubkey.any fun proven =>
              c.nipFi.any (·.reaches issuer proven target)
            let scan' := { scan with visited := i :: scan.visited }
            (s.setSocket i { c with cancelled := c.cancelled || reached }).setRevoker p
              { r with scan := some scan' }

def close (p : Nat) (r : Revoker) : AccessPod :=
  match r.scan with
  | none => s
  | some scan =>
      match scan.reading, scan.disconnect with
      | some (i, principal), .pubkey target unownedOnly =>
          let scan' := { scan with visited := i :: scan.visited, reading := none }
          (s.onSocket i fun c =>
            let reached := reachesOwned principal target unownedOnly c.admittedOwner
            s.setSocket i { c with cancelled := c.cancelled || reached }).setRevoker p
              { r with scan := some scan' }
      | _, _ => s

def endScan (p : Nat) (r : Revoker) : AccessPod :=
  match r.scan with
  | none => s
  | some scan =>
      if scan.reading.isNone && (List.range scan.registered).all (scan.visited.contains ·) then
        s.setRevoker p { r with scan := none }
      else s

/-- `disconnect_owned_agents`. -/
def lookupAgents (p : Nat) (r : Revoker) (found : Bool) : AccessPod :=
  match r.scan, r.queue, r.sweep with
  | none, [], some owner =>
      let agents := if found then s.tables.agentsOf owner else []
      s.setRevoker p { r with queue := agents.map (.pubkey · false), sweep := none }
  | _, _, _ => s

def step : AccessMove → AccessPod
  | .tick d => { s with now := s.now + d }
  | .connect frame => { s with sockets := s.sockets ++ [{ frame }] }
  | .advance i => s.onSocket i (s.advance i)
  | .fault i => s.onSocket i fun c => s.setSocket i (faultSocket c)
  | .abort i => s.onSocket i fun c => if c.cancelled then s.setSocket i (c.goto .done) else s
  | .expireAuth i =>
      s.onSocket i fun c =>
        if c.auth = .pending then s.setSocket i { c with auth := .failed } else s
  | .cancel i => s.onSocket i fun c => s.setSocket i { c with cancelled := true }
  | .ban target expires =>
      { s with tables.bans := s.tables.bans.insert target expires }.spawn
        (revokeLiveAccess target)
  | .unban target => { s with tables.bans := s.tables.bans.erase target }
  | .addMember target => { s with tables.members := insert target s.tables.members }
  | .removeMember target =>
      { s with tables.members := s.tables.members.erase target }.spawn (revokeLiveAccess target)
  | .recordAgentOwner agent owner =>
      match s.storedOwner agent with
      | none => s.setAgentOwner agent owner
      | some _ => s
  | .denyReserve issuer jti target =>
      { s with denyMap := (s.denyMap.reserve issuer jti target s.now).1 }
  | .denyCommit issuer jti effectiveExpiry target deniedUntil =>
      { s with
          denyMap := s.denyMap.commit issuer jti effectiveExpiry target deniedUntil }.spawn
        (disconnectNipFi issuer target)
  | .denyMerge issuer target deniedUntil =>
      { s with
          denyMap := (s.denyMap.mergeCrossPodDeny issuer target deniedUntil s.now).1 }.spawn
        (disconnectNipFi issuer target)
  | .startScan p => s.onRevoker p (s.startScan p)
  | .visit p i => s.onRevoker p fun r => s.onSocket i (s.visit p r i)
  | .close p => s.onRevoker p (s.close p)
  | .endScan p => s.onRevoker p (s.endScan p)
  | .lookupAgents p => s.onRevoker p (s.lookupAgents p · true)
  | .failLookup p => s.onRevoker p (s.lookupAgents p · false)

end AccessPod

/-- A pod as it starts: its configuration, clock, tables and deny map. -/
structure AccessDeployment where
  config : AccessConfig
  now : Int
  tables : AccessTables
  denyMap : NipFiDenyMap

def AccessDeployment.init (d : AccessDeployment) : AccessPod where
  config := d.config
  now := d.now
  tables := d.tables
  denyMap := d.denyMap

def AccessDeployment.machine (d : AccessDeployment) : Machine AccessPod AccessMove where
  init := d.init
  step := AccessPod.step

end Buzz.Relay
