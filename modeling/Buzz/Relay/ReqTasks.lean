import Buzz.Relay.Lifecycle

/-!
# Request frames on one connection

`handle_text_message` takes a connection's frames one at a time. A `CLOSE`
is handled before the next frame is read; a `REQ` is handed to a task of its
own, and `handle_req` then runs through several database reads, each of which
lets other tasks run. What a task does to subscription state it does in the
critical sections of `Lifecycle`, so a run is a sequence of moves: a frame
arrives, or one task runs its next section.

A task's section is not fixed in advance. Whether a request is refused, which
channels it is authorized for and when its history ends depend on the
database, so the move carries the answer. Only the order of the sections and
the branch the filters select (live or one-shot) come from the code.
-/

namespace Buzz.Relay

open Buzz.Core Buzz.Lib

def kindHuddleLiveness : Nat := 48104

def filtersAreHuddleLivenessOnly (filters : List Filter) : Bool :=
  !filters.isEmpty && filters.all fun f =>
    f.kinds.any fun kinds =>
      kinds.len == 1 && kinds.elems.all (·.toNat == kindHuddleLiveness)

/-- Whether `handle_req` takes the huddle-liveness or the search branch,
which answer once and register nothing. -/
def isOneShot (filters : List Filter) : Bool :=
  filtersAreHuddleLivenessOnly filters || filters.any (·.search.isSome)

/-- How far `handle_req` has come. -/
inductive ReqPhase where
  /-- Spawned, nothing done. -/
  | start
  /-- Past the authentication and cap test, nothing claimed. -/
  | checked
  /-- Registered for fan-out, still sending history. -/
  | live (owner : Nat)
  /-- A claimed search or liveness request. -/
  | oneShot (owner : Nat)
  /-- History sent; the subscription stays. -/
  | served (owner : Nat)
  /-- Refused, closed by the relay, answered once, or dropped by a closing
  connection. -/
  | ended
deriving DecidableEq

structure ReqTask where
  sub : SubId
  filters : List Filter
  phase : ReqPhase
deriving DecidableEq

/-- A frame the connection has taken, in order of arrival. -/
inductive ClientFrame where
  | req (task : ReqTask)
  | close (sub : SubId)
deriving DecidableEq

/-- The next section of a request's task. -/
inductive ReqMove where
  | check (queued : Bool)
  | refuse (queued : Bool)
  | claimLive (channelIds : Option (BTreeSet Uuid))
  | claimSearch
  | send (frame : HistoryFrame) (queued : Bool)
  | close (closed queued : Bool)
  | finish

inductive ConnMove where
  | recvReq (sub : SubId) (filters : List Filter)
  /-- A `REQ` over quota or without a handler permit, refused on arrival. -/
  | refuseReq (sub : SubId) (filters : List Filter) (queued : Bool)
  | recvClose (sub : SubId) (queued : Bool)
  | task (i : Nat) (move : ReqMove)
  | evict (communityId : CommunityId) (channelId : Uuid) (queued : SubId → Bool)
  | cancel
  | release

/-- One connection: the relay's state and the frames it has taken. -/
structure ConnRun where
  app : AppState
  frames : List ClientFrame

namespace ReqTask

def isCancelled (app : AppState) (conn : ConnId) : Bool :=
  (app.connections.lookup conn).all (·.cancelled)

/-- Run one section. A move that does not fit the phase does nothing. -/
def step (conn : ConnId) (app : AppState) (t : ReqTask) :
    ReqMove → AppState × ReqTask
  | .check queued =>
      match t.phase with
      | .start =>
          let capped := (app.connections.lookup conn).any (AppState.atCap · t.sub)
          (app.checkCap conn t.sub queued,
            { t with phase := if capped then .ended else .checked })
      | _ => (app, t)
  | .refuse queued =>
      match t.phase with
      | .start | .checked =>
          (app.refuse conn t.sub queued, { t with phase := .ended })
      | _ => (app, t)
  | .claimLive channelIds =>
      match t.phase, isOneShot t.filters with
      | .checked, false =>
          (app.claimLiveSubscription conn t.sub t.filters channelIds,
            { t with
              phase := if isCancelled app conn then .ended
                else .live app.nextOwner })
      | _, _ => (app, t)
  | .claimSearch =>
      match t.phase, isOneShot t.filters with
      | .checked, true =>
          (app.claimSearchSubscription conn t.sub,
            { t with
              phase := if isCancelled app conn then .ended
                else .oneShot app.nextOwner })
      | _, _ => (app, t)
  | .send frame queued =>
      match t.phase with
      | .live owner | .oneShot owner =>
          (app.sendIfOwner conn t.sub owner frame queued, t)
      | _ => (app, t)
  | .close closed queued =>
      match t.phase with
      | .live owner | .oneShot owner =>
          (app.closeIfOwner conn t.sub owner closed queued, { t with phase := .ended })
      | _ => (app, t)
  | .finish =>
      match t.phase with
      | .live owner => (app, { t with phase := .served owner })
      | _ => (app, t)

end ReqTask

namespace ConnRun

/-- Frames are read until the connection is cancelled. -/
def step (conn : ConnId) (s : ConnRun) : ConnMove → ConnRun
  | .recvReq sub filters =>
      if ReqTask.isCancelled s.app conn then s
      else { s with frames := s.frames ++ [.req ⟨sub, filters, .start⟩] }
  | .refuseReq sub filters queued =>
      if ReqTask.isCancelled s.app conn then s
      else ⟨s.app.refuse conn sub queued, s.frames ++ [.req ⟨sub, filters, .ended⟩]⟩
  | .recvClose sub queued =>
      if ReqTask.isCancelled s.app conn then s
      else ⟨s.app.handleClose conn sub queued, s.frames ++ [.close sub]⟩
  | .task i move =>
      match s.frames[i]? with
      | some (.req t) =>
          let (app, t) := t.step conn s.app move
          ⟨app, s.frames.set i (.req t)⟩
      | _ => s
  | .evict c ch queued =>
      { s with app := s.app.evictConnChannelSubscriptions c ch conn queued }
  | .cancel => { s with app := s.app.cancelConn conn }
  | .release => { s with app := s.app.releaseConnectionSubscriptions conn }

/-- A fresh connection of a community. -/
def init (conn : ConnId) (communityId : CommunityId) : ConnRun :=
  ⟨({} : AppState).connect conn communityId, []⟩

def run (conn : ConnId) (s : ConnRun) (moves : List ConnMove) : ConnRun :=
  moves.foldl (step conn) s

end ConnRun

end Buzz.Relay
