import Buzz.Db.PushWake
import Buzz.Lib.Machine

/-!
# Push delivery workers

`delivery_worker_loop` claims up to sixteen wakes at once and runs
`deliver_one` on them one after another. Every database call and the call to
the gateway is a move of its own, so a claim can run out, a lease can change or
another worker can step in between any two of them.

A move says how the call was answered. A read that is not answered is a
database error; a write that is not applied was refused, failed or never
reached. `claim` and the retry times read the relay's own clock, which need not
agree with the database's. Leases, events, members and the community's state
change by moves of their own; a lease may change to anything, which covers
replacement, revocation and expiry cleanup alike.
-/

namespace Buzz.Relay

open Buzz.Db Buzz.Lib

/-- `CLAIM_SECS`, in microseconds. -/
def claimMicros : Int := 30000000

/-- `MAX_ATTEMPTS`. -/
def maxPushAttempts : Nat := 8

def claimBatch : Nat := 16

/-- `DeliveryResponse`. -/
inductive DeliveryResponse where
  | accepted
  | invalidEndpoint (generation : Int)
  | retry (retryAfterSeconds : Option Int)
deriving DecidableEq

/-- What comes back from the gateway: a status with the decoded body where the
code reads one, a failed send, or a serving lease lost in the meantime. -/
inductive GatewayReply where
  | success (body : Option DeliveryResponse)
  | gone (body : Option DeliveryResponse)
  | unavailable (body : Option DeliveryResponse)
  | tooManyRequests
  | notFound
  | otherStatus
  | timeoutOrConnect
  | otherError
  | leaseLost
deriving DecidableEq

/-- Where a `deliver_one` call is. -/
inductive DeliverPhase where
  | idle
  | revalidate (wake : ClaimedWake)
  | membership (wake : ClaimedWake)
  | finalCheck (wake : ClaimedWake)
  | acquire (wake : ClaimedWake)
  | prepare (wake : ClaimedWake)
  | send (wake : ClaimedWake)
  | disable (wake : ClaimedWake)
  | complete (wake : ClaimedWake)
  | fail (wake : ClaimedWake)
  /-- Back to the queue, after so many seconds. -/
  | retry (wake : ClaimedWake) (secs : Int)
deriving DecidableEq

/-- The wake the call is about. -/
def DeliverPhase.wake : DeliverPhase → Option ClaimedWake
  | .idle => none
  | .revalidate w | .membership w | .finalCheck w | .acquire w | .prepare w | .send w
  | .disable w | .complete w | .fail w | .retry w _ => some w

structure PushWorker where
  /-- The claimed wakes still to deliver, and the end of their claim. -/
  batch : List ClaimedWake := []
  claimUntil : Int := 0
  phase : DeliverPhase := .idle
  /-- How many `deliver_one` calls it has begun. -/
  calls : Nat := 0
  crashed : Bool := false

/-- `retry_or_fail`. -/
def retryOrFail (w : ClaimedWake) (delay : Int) : DeliverPhase :=
  if maxPushAttempts ≤ w.attempt then .fail w
  else .retry w (delay * 2 ^ min (w.attempt - 1) 6)

/-- What `deliver_one` does with the gateway's reply. -/
def deliverReply (w : ClaimedWake) : GatewayReply → DeliverPhase
  | .success (some .accepted) => .complete w
  | .success _ => .fail w
  | .gone (some (.invalidEndpoint generation)) =>
      if generation = w.leaseGeneration then .disable w else .fail w
  | .gone _ => .fail w
  | .unavailable (some (.retry after)) => retryOrFail w ((after.filter (0 < ·)).getD 2)
  | .unavailable _ => retryOrFail w 2
  | .tooManyRequests => retryOrFail w 2
  -- A later attempt's 404 is the replay of a request the gateway has seen.
  | .notFound => if 1 < w.attempt then .complete w else .fail w
  | .timeoutOrConnect => retryOrFail w 2
  | .otherStatus => .fail w
  | .otherError => .fail w
  | .leaseLost => .idle

structure PushState extends PushStore where
  workers : List PushWorker := []

inductive PushMove where
  | join
  | claim (i : Nat) (community : CommunityId) (ids : List Nat) (clock : Int)
  | next (i : Nat)
  | check (i : Nat) (answered : Bool)
  | member (i : Nat) (answered : Bool)
  | acquire (i : Nat) (answered : Bool)
  /-- The gateway's address, the body, the signature and the lease check. -/
  | prepare (i : Nat) (ready : Bool)
  | reply (i : Nat) (reply : GatewayReply)
  | write (i : Nat) (applied : Bool) (clock : Int)
  | crash (i : Nat)
  | tick (micros : Nat)
  | enqueue (community : CommunityId) (requests : List PushStore.WakeRequest)
  | setLease (key : LeaseKey) (row : PushLeaseRow)
  | storeEvent (key : CommunityId × EventId) (channelId : Option Uuid)
  | deleteEvent (key : CommunityId × EventId)
  | setMembers (members : List (CommunityId × Uuid × PublicKey))
  | setRefusing (communities : List CommunityId)

/-- One call of a `deliver_one`, as the answer has it. -/
def DeliverPhase.step (s : PushStore) : DeliverPhase → PushMove → Option DeliverPhase
  | .revalidate w, .check _ answered =>
      if answered then
        some (match s.revalidateWakeForSend w.community w.id w.claimId with
          | none => .fail w
          | some w' => .membership w')
      else some .idle
  -- An event without a channel has no members to ask about.
  | .membership w, .member _ answered =>
      some (match w.channelId with
        | none => .finalCheck w
        | some channel =>
            if answered then
              if s.isMember w.community channel w.author then .finalCheck w else .fail w
            else .retry w 2)
  | .finalCheck w, .check _ answered =>
      if answered then
        some (match s.revalidateWakeForSend w.community w.id w.claimId with
          | none => .fail w
          | some w' => .acquire w')
      else some .idle
  -- An unanswered acquisition is handled as a refused one.
  | .acquire w, .acquire _ answered =>
      some (if answered && s.admits w.community then .prepare w else .fail w)
  | .prepare w, .prepare _ ready => some (if ready then .send w else .idle)
  | .send w, .reply _ reply => some (deliverReply w reply)
  | _, _ => none

/-- The write that ends a call, or the one before it. -/
def DeliverPhase.write (s : PushStore) (clock : Int) :
    DeliverPhase → Option (PushStore × DeliverPhase)
  | .disable w =>
      some (s.disableEndpointGeneration w.community w.author w.installationId
        w.leaseGeneration, .fail w)
  | .complete w => some (s.completeWake w.community w.id w.claimId, .idle)
  | .fail w => some (s.failWake w.community w.id w.claimId, .idle)
  | .retry w secs =>
      some (s.retryWake w.community w.id w.claimId (clock + secs * 1000000), .idle)
  | _ => none

namespace PushState

/-- Run a live worker. -/
def onWorker (s : PushState) (i : Nat) (f : PushWorker → Option (PushStore × PushWorker)) :
    PushState :=
  match s.workers[i]? with
  | none => s
  | some w =>
      if w.crashed then s
      else
        match f w with
        | none => s
        | some (store, w') => ⟨store, s.workers.set i w'⟩

def step (s : PushState) : PushMove → PushState
  | .join => { s with workers := s.workers ++ [{}] }
  | .claim i community ids clock =>
      s.onWorker i fun w =>
        if w.phase = .idle ∧ w.batch = [] ∧ s.admits community then
          let claimUntil := clock + claimMicros
          let (store, claimed) := s.claimDueWakes community claimBatch claimUntil ids
          some (store, { w with batch := claimed, claimUntil })
        else none
  | .next i =>
      s.onWorker i fun w =>
        match w.phase, w.batch with
        | .idle, c :: rest =>
            some (s.toPushStore,
              { w with phase := .revalidate c, batch := rest, calls := w.calls + 1 })
        | _, _ => none
  | .write i applied clock =>
      s.onWorker i fun w =>
        (w.phase.write s.toPushStore clock).map fun (store, phase) =>
          (if applied && w.phase.wake.any (s.admits ·.community) then store
            else s.toPushStore, { w with phase := phase })
  | .crash i => s.onWorker i fun w => some (s.toPushStore, { w with crashed := true })
  | .tick micros => { s with now := s.now + micros }
  | .enqueue community requests =>
      if s.admits community then ⟨(s.enqueueWakes community requests).1, s.workers⟩ else s
  | .setLease key row => { s with leases := s.leases.insert key row }
  | .storeEvent key channelId =>
      if (s.events.lookup key).isSome then s
      else { s with events := s.events.insert key { channelId } }
  | .deleteEvent key =>
      match s.events.lookup key with
      | some e => { s with events := s.events.insert key { e with deleted := true } }
      | none => s
  | .setMembers members => { s with members }
  | .setRefusing communities => { s with refusing := communities }
  | m@(.check i _) | m@(.member i _) | m@(.acquire i _) | m@(.prepare i _) | m@(.reply i _) =>
      s.onWorker i fun w =>
        (w.phase.step s.toPushStore m).map fun phase => (s.toPushStore, { w with phase })

end PushState

def pushMachine : Machine PushState PushMove where
  init := {}
  step := PushState.step

end Buzz.Relay
