import Buzz.Proofs.ReqCap

/-!
# Frames on one subscription id

A `CLOSE` is handled when it arrives; a `REQ` claims its id only after its
database reads. A request that is still reading when a later frame takes
effect therefore claims the id afterwards, and undoes what that frame did: a
closed id is registered again, or older filters replace newer ones.

This is the only way the order is lost. In a run where no request settles
after the newest frame already has, the newest frame decides what is
registered. The invariant carries the owner tokens: everything an older
request still does is guarded by its token, and its token is not the one that
holds the id.
-/

namespace Buzz.Relay

open Buzz.Core Buzz.Lib AppState

/-- The token of a request that has claimed its id. -/
def ReqPhase.owner? : ReqPhase → Option Nat
  | .live owner | .oneShot owner | .served owner => some owner
  | _ => none

def ReqPhase.pending : ReqPhase → Bool
  | .start | .checked => true
  | _ => false

/-- Whether a section is the one in which a request takes its id or is
refused it. -/
def ReqTask.settles (t : ReqTask) : ReqMove → Bool
  | .refuse _ => t.phase.pending
  | .claimLive _ => t.phase == .checked && !isOneShot t.filters
  | .claimSearch => t.phase == .checked && isOneShot t.filters
  | _ => false

def ClientFrame.sub : ClientFrame → SubId
  | .req t => t.sub
  | .close sub => sub

/-- Whether a frame has taken effect. -/
def ClientFrame.settled : ClientFrame → Bool
  | .req t => !t.phase.pending
  | .close _ => true

/-- A frame with this id, or a section of a request's task. -/
def ConnMove.concerns (sub : SubId) : ConnMove → Bool
  | .recvReq sub' _ | .refuseReq sub' _ _ | .recvClose sub' _ => sub' == sub
  | .task _ _ => true
  | _ => false

namespace AppState

variable {s : AppState} {conn : ConnId} {sub : SubId} {c : ConnectionState}

/-- What fan-out matches against for an id. -/
def filtersOf (s : AppState) (conn : ConnId) (sub : SubId) : Option (List Filter) :=
  (s.subRegistry.entry conn sub).map (·.filters)

theorem token_send {kind : FrameKind} {owner : Option Nat} {queued : Bool} :
    (s.send conn sub kind owner queued).token conn sub = s.token conn sub := by
  unfold token
  rw [connections_send]

theorem filtersOf_send {kind : FrameKind} {owner : Option Nat} {queued : Bool} :
    (s.send conn sub kind owner queued).filtersOf conn sub = s.filtersOf conn sub := by
  unfold filtersOf
  rw [subRegistry_send]

theorem checkCap_keeps (conn : ConnId) (sub : SubId) (queued : Bool) :
    (s.checkCap conn sub queued).token conn sub = s.token conn sub ∧
      (s.checkCap conn sub queued).filtersOf conn sub = s.filtersOf conn sub := by
  unfold checkCap
  split
  · exact ⟨rfl, rfl⟩
  · split
    · refine ⟨token_sendClosed, ?_⟩
      unfold filtersOf
      rw [subRegistry_sendClosed]
    · exact ⟨rfl, rfl⟩

theorem sendIfOwner_keeps (conn : ConnId) (sub : SubId) (owner : Nat)
    (frame : HistoryFrame) (queued : Bool) :
    (s.sendIfOwner conn sub owner frame queued).token conn sub = s.token conn sub ∧
      (s.sendIfOwner conn sub owner frame queued).filtersOf conn sub =
        s.filtersOf conn sub := by
  unfold sendIfOwner
  split
  · exact ⟨rfl, rfl⟩
  · split
    · exact ⟨token_send, filtersOf_send⟩
    · exact ⟨rfl, rfl⟩

/-- A close by a request that does not hold the id does nothing. -/
theorem closeIfOwner_eq_of_ne {owner : Nat} (h : s.token conn sub ≠ some owner)
    (closed queued : Bool) : s.closeIfOwner conn sub owner closed queued = s := by
  unfold closeIfOwner
  split
  · rfl
  · next c hc =>
      rw [token, hc, Option.bind_some] at h
      rw [if_pos h]

theorem token_handleClose (queued : Bool) :
    (s.handleClose conn sub queued).token conn sub = none := by
  unfold handleClose
  split
  · next hc => exact token_of_lookup_none hc
  · rw [token_send, token_retireLocked]

theorem claimLive_holds (hc : s.connections.lookup conn = some c)
    (hlive : c.cancelled = false) (sub : SubId) (filters : List Filter)
    (ids : Option (BTreeSet Uuid)) :
    (s.claimLiveSubscription conn sub filters ids).token conn sub = some s.nextOwner ∧
      (s.claimLiveSubscription conn sub filters ids).filtersOf conn sub = some filters := by
  constructor
  · rw [token, lookup_claimLive hc hlive, Option.bind_some]
    simp only [HMap.lookup_insert_ite, if_true]
  · unfold filtersOf claimLiveSubscription
    rw [hc]
    dsimp only
    rw [if_neg (by rw [hlive]; exact Bool.false_ne_true), subRegistry_releaseRemoved]
    have hentry : ∀ scope, Option.map SubEntry.filters
        ((s.subRegistry.registerWithScope c.communityId conn sub filters scope).1.entry
          conn sub) = some filters := by
      intro scope
      rw [SubscriptionRegistry.entry_registerWithScope, if_pos ⟨rfl, rfl⟩]
      rfl
    cases ids with
    | none => exact hentry .global
    | some ids => exact hentry (.channels ids.elems)

theorem nextOwner_claimLive (hc : s.connections.lookup conn = some c)
    (hlive : c.cancelled = false) (sub : SubId) (filters : List Filter)
    (ids : Option (BTreeSet Uuid)) :
    (s.claimLiveSubscription conn sub filters ids).nextOwner = s.nextOwner + 1 := by
  unfold claimLiveSubscription
  rw [hc]
  dsimp only
  rw [if_neg (by rw [hlive]; exact Bool.false_ne_true), nextOwner_releaseRemoved]
  rfl

theorem nextOwner_claimSearch (hc : s.connections.lookup conn = some c)
    (hlive : c.cancelled = false) (sub : SubId) :
    (s.claimSearchSubscription conn sub).nextOwner = s.nextOwner + 1 := by
  have hret : (s.retireLocked conn c sub).nextOwner = s.nextOwner := by
    rw [retireLocked_eq, unregister_eq]
    exact nextOwner_releaseRemoved _ _
  unfold claimSearchSubscription
  rw [hc]
  dsimp only
  rw [if_neg (by rw [hlive]; exact Bool.false_ne_true)]
  exact congrArg (· + 1) hret

end AppState

namespace ReqTask

variable {app : AppState} {conn : ConnId} {t : ReqTask}

/-- Everything one section of a request's task can do to its id. -/
inductive Outcome (conn : ConnId) (app : AppState) (t : ReqTask) (move : ReqMove)
    (app' : AppState) (t' : ReqTask) : Prop
  /-- The id is untouched. -/
  | kept (unsettled : t.settles move = false)
      (token : app'.token conn t.sub = app.token conn t.sub)
      (filters : app'.filtersOf conn t.sub = app.filtersOf conn t.sub)
      (phase : t'.phase = t.phase ∨ t'.phase.owner? = none ∨
        ∃ owner, t.phase = .live owner ∧ t'.phase = .served owner)
  /-- The request held the id and closes it. -/
  | closed (owner : Nat) (unsettled : t.settles move = false)
      (held : t.phase.owner? = some owner) (token : app.token conn t.sub = some owner)
      (phase : t'.phase = .ended)
  /-- Refused, or dropped by a closing connection. -/
  | refused (settled : t.settles move = true) (phase : t'.phase = .ended)
  | claimed (settled : t.settles move = true) (phase : t'.phase = .live app.nextOwner)
      (token : app'.token conn t.sub = some app.nextOwner)
      (filters : app'.filtersOf conn t.sub = some t.filters)
      (nextOwner : app'.nextOwner = app.nextOwner + 1)
  | searched (settled : t.settles move = true)
      (phase : t'.phase = .oneShot app.nextOwner)
      (nextOwner : app'.nextOwner = app.nextOwner + 1)

theorem step_outcome (conn : ConnId) (app : AppState) (t : ReqTask) (move : ReqMove) :
    Outcome conn app t move (t.step conn app move).1 (t.step conn app move).2 := by
  obtain ⟨sub, filters, phase⟩ := t
  cases move with
  | check queued =>
      cases phase with
      | start =>
          obtain ⟨htok, hfil⟩ := checkCap_keeps (s := app) conn sub queued
          refine .kept rfl htok hfil (.inr (.inl ?_))
          show ReqPhase.owner? (if _ then .ended else .checked) = none
          split
          · rfl
          · rfl
      | checked | live | oneShot | served | ended => exact .kept rfl rfl rfl (.inl rfl)
  | refuse queued =>
      cases phase with
      | start | checked => exact .refused rfl rfl
      | live | oneShot | served | ended => exact .kept rfl rfl rfl (.inl rfl)
  | claimLive ids =>
      cases phase with
      | checked =>
          cases hone : isOneShot filters with
          | true =>
              have hset : settles ⟨sub, filters, .checked⟩ (.claimLive ids) = false := by
                simp [settles, hone]
              refine .kept hset ?_ ?_ (.inl ?_)
              · simp only [step, hone]
              · simp only [step, hone]
              · simp only [step, hone]
          | false =>
              have hset : settles ⟨sub, filters, .checked⟩ (.claimLive ids) = true := by
                simp [settles, hone]
              cases hx : isCancelled app conn with
              | true => exact .refused hset (by simp [step, hone, hx])
              | false =>
                  obtain ⟨c, hc, hlive⟩ := not_isCancelled hx
                  obtain ⟨htok, hfil⟩ := claimLive_holds hc hlive sub filters ids
                  have hnext := nextOwner_claimLive hc hlive sub filters ids
                  refine .claimed hset (by simp [step, hone, hx]) ?_ ?_ ?_
                  · simpa only [step, hone] using htok
                  · simpa only [step, hone] using hfil
                  · simpa only [step, hone] using hnext
      | start | live | oneShot | served | ended => exact .kept rfl rfl rfl (.inl rfl)
  | claimSearch =>
      cases phase with
      | checked =>
          cases hone : isOneShot filters with
          | false =>
              have hset : settles ⟨sub, filters, .checked⟩ .claimSearch = false := by
                simp [settles, hone]
              refine .kept hset ?_ ?_ (.inl ?_)
              · simp only [step, hone]
              · simp only [step, hone]
              · simp only [step, hone]
          | true =>
              have hset : settles ⟨sub, filters, .checked⟩ .claimSearch = true := by
                simp [settles, hone]
              cases hx : isCancelled app conn with
              | true => exact .refused hset (by simp [step, hone, hx])
              | false =>
                  obtain ⟨c, hc, hlive⟩ := not_isCancelled hx
                  have hnext := nextOwner_claimSearch hc hlive sub
                  refine .searched hset (by simp [step, hone, hx]) ?_
                  simpa only [step, hone] using hnext
      | start | live | oneShot | served | ended => exact .kept rfl rfl rfl (.inl rfl)
  | send frame queued =>
      cases phase with
      | live owner | oneShot owner =>
          obtain ⟨htok, hfil⟩ :=
            sendIfOwner_keeps (s := app) conn sub owner frame queued
          exact .kept rfl htok hfil (.inl rfl)
      | start | checked | served | ended => exact .kept rfl rfl rfl (.inl rfl)
  | close closed queued =>
      cases phase with
      | live owner | oneShot owner =>
          by_cases htok : app.token conn sub = some owner
          · exact .closed owner rfl rfl htok rfl
          · have heq := closeIfOwner_eq_of_ne htok closed queued
            refine .kept rfl ?_ ?_ (.inr (.inl rfl))
            · exact congrArg (·.token conn sub) heq
            · exact congrArg (·.filtersOf conn sub) heq
      | start | checked | served | ended => exact .kept rfl rfl rfl (.inl rfl)
  | finish =>
      cases phase with
      | live owner => exact .kept rfl rfl rfl (.inr (.inr ⟨owner, rfl, rfl⟩))
      | start | checked | oneShot | served | ended => exact .kept rfl rfl rfl (.inl rfl)

/-- A section keeps a request's token, except that a claim issues the next
one. -/
theorem Outcome.owner {move : ReqMove} {app' : AppState} {t' : ReqTask}
    (h : Outcome conn app t move app' t') {owner : Nat}
    (ho : t'.phase.owner? = some owner) :
    t.phase.owner? = some owner ∨
      (owner = app.nextOwner ∧ app'.nextOwner = app.nextOwner + 1) := by
  cases h with
  | kept _ _ _ hphase =>
      rcases hphase with hp | hp | ⟨o, hp, hp'⟩
      · rw [hp] at ho; exact .inl ho
      · rw [hp] at ho; cases ho
      · rw [hp'] at ho; rw [hp]; exact .inl ho
  | closed _ _ _ _ hp | refused _ hp => rw [hp] at ho; cases ho
  | claimed _ hp _ _ hnext | searched _ hp hnext =>
      rw [hp] at ho
      exact .inr ⟨(Option.some.inj ho).symm, hnext⟩

theorem step_sub (conn : ConnId) (app : AppState) (t : ReqTask) (move : ReqMove) :
    (t.step conn app move).2.sub = t.sub ∧ (t.step conn app move).2.filters = t.filters := by
  cases move <;> unfold step <;> dsimp only <;> split <;> exact ⟨rfl, rfl⟩

end ReqTask

namespace ConnRun

variable {conn : ConnId} {sub : SubId} {s : ConnRun} {move : ReqMove}

/-- A request settles after the newest frame already has. -/
def overtakes (s : ConnRun) : ConnMove → Bool
  | .task i move =>
      match s.frames[i]? with
      | some (.req t) =>
          t.settles move && decide (i + 1 < s.frames.length) &&
            s.frames.getLast?.any (·.settled)
      | _ => false
  | _ => false

/-- No step of the run overtakes. -/
def inOrder (conn : ConnId) (s : ConnRun) : List ConnMove → Bool
  | [] => true
  | m :: moves => !s.overtakes m && inOrder conn (s.step conn m) moves

/-- Every step runs one critical section or none. -/
theorem app_step (conn : ConnId) (s : ConnRun) (m : ConnMove) :
    (s.step conn m).app = s.app ∨ ∃ sec, (s.step conn m).app = Section.apply s.app sec := by
  cases m with
  | recvReq sub filters =>
      simp only [step]
      split
      · exact .inl rfl
      · exact .inl rfl
  | refuseReq sub filters queued =>
      simp only [step]
      split
      · exact .inl rfl
      · exact .inr ⟨.refuse conn sub queued, rfl⟩
  | recvClose sub queued =>
      simp only [step]
      split
      · exact .inl rfl
      · exact .inr ⟨.close conn sub queued, rfl⟩
  | task i move =>
      simp only [step]
      split
      · next t ht =>
          cases move with
          | check queued =>
              simp only [ReqTask.step]
              split
              · exact .inr ⟨.checkCap conn t.sub queued, rfl⟩
              · exact .inl rfl
          | refuse queued =>
              simp only [ReqTask.step]
              split
              · exact .inr ⟨.refuse conn t.sub queued, rfl⟩
              · exact .inr ⟨.refuse conn t.sub queued, rfl⟩
              · exact .inl rfl
          | claimLive ids =>
              simp only [ReqTask.step]
              split
              · exact .inr ⟨.claimLive conn t.sub t.filters ids, rfl⟩
              · exact .inl rfl
          | claimSearch =>
              simp only [ReqTask.step]
              split
              · exact .inr ⟨.claimSearch conn t.sub, rfl⟩
              · exact .inl rfl
          | send frame queued =>
              simp only [ReqTask.step]
              split
              · exact .inr ⟨.sendIfOwner conn t.sub _ frame queued, rfl⟩
              · exact .inr ⟨.sendIfOwner conn t.sub _ frame queued, rfl⟩
              · exact .inl rfl
          | close closed queued =>
              simp only [ReqTask.step]
              split
              · exact .inr ⟨.closeIfOwner conn t.sub _ closed queued, rfl⟩
              · exact .inr ⟨.closeIfOwner conn t.sub _ closed queued, rfl⟩
              · exact .inl rfl
          | finish =>
              simp only [ReqTask.step]
              split
              · exact .inl rfl
              · exact .inl rfl
      · exact .inl rfl
  | evict c ch queued => exact .inr ⟨.evict c ch conn queued, rfl⟩
  | cancel => exact .inr ⟨.cancel conn, rfl⟩
  | release => exact .inr ⟨.release conn, rfl⟩

theorem coherent_step (conn : ConnId) (h : Coherent s.app) (m : ConnMove) :
    Coherent (s.step conn m).app := by
  rcases app_step conn s m with heq | ⟨sec, heq⟩
  · rw [heq]; exact h
  · rw [heq]; exact coherent_apply h sec

theorem nextOwner_step (conn : ConnId) (s : ConnRun) (m : ConnMove) :
    s.app.nextOwner ≤ (s.step conn m).app.nextOwner := by
  rcases app_step conn s m with heq | ⟨sec, heq⟩
  · rw [heq]
  · rw [heq]; exact (evolves_apply s.app sec).nextOwner

/-- What the newest frame has established. A `CLOSE` leaves the id unheld; a
request that holds the id is registered with its own filters, under a token
that no older request has. -/
def NewestHolds (conn : ConnId) (sub : SubId) (s : ConnRun) : Prop :=
  match s.frames.getLast? with
  | some (.close _) => s.app.token conn sub = none
  | some (.req t) => ∀ owner, t.phase = .live owner ∨ t.phase = .served owner →
      s.app.token conn sub = some owner ∧
      s.app.filtersOf conn sub = some t.filters ∧
      ∀ i t', i + 1 < s.frames.length → s.frames[i]? = some (.req t') →
        t'.phase.owner? ≠ some owner
  | none => True

/-- The frames of one id are settled in their order so far: the newest one
decides what is held. -/
structure InOrder (conn : ConnId) (sub : SubId) (s : ConnRun) : Prop where
  coherent : Coherent s.app
  sameSub : ∀ f ∈ s.frames, f.sub = sub
  issued : ∀ t owner, .req t ∈ s.frames → t.phase.owner? = some owner →
    owner < s.app.nextOwner
  newest : NewestHolds conn sub s

/-- What a frame has done by the time it is recorded. -/
def Arrived (conn : ConnId) (sub : SubId) (app : AppState) : ClientFrame → Prop
  | .close _ => app.token conn sub = none
  | .req t => t.phase.owner? = none

/-- A new frame keeps the invariant: whatever the older ones did, the newest
is the new one. -/
theorem InOrder.append {f : ClientFrame} {app : AppState} (h : InOrder conn sub s)
    (hcoh : Coherent app) (hle : s.app.nextOwner ≤ app.nextOwner) (hsub : f.sub = sub)
    (hf : Arrived conn sub app f) : InOrder conn sub ⟨app, s.frames ++ [f]⟩ where
  coherent := hcoh
  sameSub g hg := by
    rcases List.mem_append.1 hg with hg | hg
    · exact h.sameSub g hg
    · rw [List.mem_singleton.1 hg]; exact hsub
  issued t owner ht ho := by
    rcases List.mem_append.1 ht with ht | ht
    · exact Nat.lt_of_lt_of_le (h.issued t owner ht ho) hle
    · rw [← List.mem_singleton.1 ht] at hf
      rw [show t.phase.owner? = none from hf] at ho
      cases ho
  newest := by
    unfold NewestHolds
    simp only [List.getLast?_concat]
    cases f with
    | close => exact hf
    | req t =>
        have hnone : t.phase.owner? = none := hf
        rintro owner (hp | hp)
        · rw [hp] at hnone; cases hnone
        · rw [hp] at hnone; cases hnone

theorem getLast?_set (l : List ClientFrame) (i : Nat) (f : ClientFrame)
    (hi : i < l.length) :
    (l.set i f).getLast? = if i + 1 = l.length then some f else l.getLast? := by
  rw [List.getLast?_eq_getElem?, List.getLast?_eq_getElem?, List.length_set,
    List.getElem?_set]
  split
  · next h =>
      have hlast : i + 1 = l.length := by omega
      rw [if_pos hlast]
  · next h =>
      have hlast : ¬ i + 1 = l.length := by omega
      rw [if_neg hlast]

/-- A section of the newest request. -/
theorem InOrder.newest_step {t t' : ReqTask} {i : Nat} {app' : AppState}
    (h : InOrder conn t.sub s) (ht : s.frames[i]? = some (.req t))
    (hlast : i + 1 = s.frames.length) (hout : t.Outcome conn s.app move app' t')
    (hfil' : t'.filters = t.filters) :
    NewestHolds conn t.sub ⟨app', s.frames.set i (.req t')⟩ := by
  have hi : i < s.frames.length := by omega
  have hnew := h.newest
  unfold NewestHolds at hnew ⊢
  dsimp only
  rw [getLast?_set _ _ _ hi, if_pos hlast]
  have hl : s.frames.getLast? = some (.req t) := by
    rw [List.getLast?_eq_getElem?, ← ht]
    congr 1
    omega
  rw [hl] at hnew
  intro owner hp
  cases hout with
  | kept _ htok hfil hphase =>
      have hpold : t.phase = .live owner ∨ t.phase = .served owner := by
        rcases hphase with heq | hnone | ⟨o, hl, hs⟩
        · rwa [heq] at hp
        · rcases hp with hp | hp
          · rw [hp] at hnone; cases hnone
          · rw [hp] at hnone; cases hnone
        · rw [hs] at hp
          rcases hp with hp | hp
          · cases hp
          · cases hp; exact .inl hl
      obtain ⟨htok₀, hfil₀, hothers⟩ := hnew owner hpold
      refine ⟨htok.trans htok₀, (hfil.trans hfil₀).trans (by rw [hfil']), ?_⟩
      intro j t₂ hj hget
      rw [List.length_set] at hj
      rw [List.getElem?_set_ne (by omega)] at hget
      exact hothers j t₂ hj hget
  | closed _ _ _ _ hphase | refused _ hphase | searched _ hphase =>
      rw [hphase] at hp
      rcases hp with hp | hp
      · cases hp
      · cases hp
  | claimed _ hphase htok hfil _ =>
      rw [hphase] at hp
      rcases hp with hp | hp
      · cases hp
        refine ⟨htok, hfil.trans (by rw [hfil']), fun j t₂ hj hget ho => ?_⟩
        rw [List.length_set] at hj
        rw [List.getElem?_set_ne (by omega)] at hget
        have := h.issued t₂ _ (List.mem_of_getElem? hget) ho
        omega
      · cases hp

/-- A section of an older request, which must not settle any more. -/
theorem InOrder.older_step {t t' : ReqTask} {i : Nat} {app' : AppState}
    (h : InOrder conn t.sub s) (ht : s.frames[i]? = some (.req t))
    (hlt : i + 1 < s.frames.length) (hout : t.Outcome conn s.app move app' t')
    (hov : (t.settles move && s.frames.getLast?.any (·.settled)) = false) :
    NewestHolds conn t.sub ⟨app', s.frames.set i (.req t')⟩ := by
  have hi : i < s.frames.length := by omega
  have hnew := h.newest
  have hown : ∀ o, t'.phase.owner? = some o → t.phase.owner? = some o ∨
      o = s.app.nextOwner := fun o ho => (hout.owner ho).imp_right (·.1)
  unfold NewestHolds at hnew ⊢
  dsimp only
  rw [getLast?_set _ _ _ hi, if_neg (by omega)]
  cases hl : s.frames.getLast? with
  | none => trivial
  | some f =>
  rw [hl] at hnew hov
  cases f with
  | close x =>
      have hset : t.settles move = false := by simpa [ClientFrame.settled] using hov
      have hnone : s.app.token conn t.sub = none := hnew
      cases hout with
      | kept _ htok _ _ => exact htok.trans hnone
      | closed _ _ _ htok _ => rw [hnone] at htok; cases htok
      | refused hs | claimed hs | searched hs => rw [hset] at hs; cases hs
  | req newest =>
      intro owner hp
      obtain ⟨htok₀, hfil₀, hothers⟩ := hnew owner hp
      have howner : newest.phase.owner? = some owner := by
        rcases hp with hp | hp
        · rw [hp]; rfl
        · rw [hp]; rfl
      have hset : t.settles move = false := by
        have hpend : newest.phase.pending = false := by
          rcases hp with hp | hp
          · rw [hp]; rfl
          · rw [hp]; rfl
        simpa [ClientFrame.settled, hpend] using hov
      have holder := hothers i t hlt ht
      cases hout with
      | kept _ htok hfil hphase =>
          refine ⟨htok.trans htok₀, hfil.trans hfil₀, fun j t₂ hj hget ho => ?_⟩
          rw [List.length_set] at hj
          by_cases hji : i = j
          · subst hji
            rw [List.getElem?_set_self hi] at hget
            cases hget
            rcases hown owner ho with hold | heq
            · exact holder hold
            · have hlt := h.issued newest owner (List.mem_of_getLast? hl) howner
              omega
          · rw [List.getElem?_set_ne hji] at hget
            exact hothers j t₂ hj hget ho
      | closed o _ ho htok _ =>
          rw [htok₀] at htok
          cases htok
          exact absurd ho holder
      | refused hs | claimed hs | searched hs => rw [hset] at hs; cases hs

theorem InOrder.task (h : InOrder conn sub s) {i : Nat}
    (hov : s.overtakes (.task i move) = false) :
    InOrder conn sub (s.step conn (.task i move)) := by
  have hcoh := coherent_step conn h.coherent (.task i move)
  have hle := nextOwner_step conn s (.task i move)
  cases ht : s.frames[i]? with
  | none => simpa [step, ht] using h
  | some f =>
  cases f with
  | close x => simpa [step, ht] using h
  | req t =>
      have hout := t.step_outcome conn s.app move
      obtain ⟨hsub', hfil'⟩ := t.step_sub conn s.app move
      have hstep : s.step conn (.task i move) = ⟨(t.step conn s.app move).1,
          s.frames.set i (.req (t.step conn s.app move).2)⟩ := by
        simp only [step, ht]
      rw [hstep] at hcoh hle ⊢
      simp only [overtakes, ht] at hov
      dsimp only at hcoh hle
      generalize (t.step conn s.app move).1 = app' at *
      generalize (t.step conn s.app move).2 = t' at *
      have hi : i < s.frames.length := (List.getElem?_eq_some_iff.1 ht).1
      have hmem : ClientFrame.req t ∈ s.frames := List.mem_of_getElem? ht
      have htsub : t.sub = sub := h.sameSub _ hmem
      subst htsub
      refine ⟨hcoh, fun g hg => ?_, fun t₂ owner ht₂ ho => ?_, ?_⟩
      · rcases List.mem_or_eq_of_mem_set hg with hg | rfl
        · exact h.sameSub g hg
        · exact hsub'
      · rcases List.mem_or_eq_of_mem_set ht₂ with hg | heq
        · exact Nat.lt_of_lt_of_le (h.issued t₂ owner hg ho) hle
        · cases heq
          rcases hout.owner ho with hold | ⟨rfl, hnext⟩
          · exact Nat.lt_of_lt_of_le (h.issued t owner hmem hold) hle
          · dsimp only; omega
      · by_cases hlast : i + 1 = s.frames.length
        · exact h.newest_step ht hlast hout hfil'
        · refine h.older_step ht (by omega) hout ?_
          have hlt : i + 1 < s.frames.length := by omega
          simpa [hlt] using hov

theorem InOrder.step (h : InOrder conn sub s) {m : ConnMove}
    (hm : m.concerns sub = true) (hov : s.overtakes m = false) :
    InOrder conn sub (s.step conn m) := by
  have hcoh := coherent_step conn h.coherent m
  have hle := nextOwner_step conn s m
  cases m with
  | recvReq sub' filters =>
      have hsub : sub' = sub := by simpa [ConnMove.concerns] using hm
      simp only [ConnRun.step] at hcoh hle ⊢
      split
      · exact h
      · exact h.append h.coherent (Nat.le_refl _) hsub rfl
  | refuseReq sub' filters queued =>
      have hsub : sub' = sub := by simpa [ConnMove.concerns] using hm
      simp only [ConnRun.step] at hcoh hle ⊢
      split
      · exact h
      · next hx =>
          rw [if_neg hx] at hcoh hle
          exact h.append hcoh hle hsub rfl
  | recvClose sub' queued =>
      have hsub : sub' = sub := by simpa [ConnMove.concerns] using hm
      simp only [ConnRun.step] at hcoh hle ⊢
      split
      · exact h
      · next hx =>
          rw [if_neg hx] at hcoh hle
          subst hsub
          exact h.append hcoh hle rfl (token_handleClose queued)
  | task i move => exact h.task hov
  | evict | cancel | release => cases hm

theorem inOrder_init (conn : ConnId) (sub : SubId) (c : CommunityId) :
    InOrder conn sub (init conn c) :=
  ⟨coherent_apply coherent_empty (.connect conn c), fun _ h => (nomatch h),
    fun _ _ h => (nomatch h), trivial⟩

theorem inOrder_run (h : InOrder conn sub s) (moves : List ConnMove)
    (hsub : moves.all (·.concerns sub) = true) (hord : inOrder conn s moves = true) :
    InOrder conn sub (run conn s moves) := by
  induction moves generalizing s with
  | nil => exact h
  | cons m moves ih =>
      simp only [List.all_cons, Bool.and_eq_true] at hsub
      simp only [inOrder, Bool.and_eq_true, Bool.not_eq_true'] at hord
      exact ih (h.step hsub.1 hord.1) hsub.2 hord.2

/-- In a run where no request settles after the newest frame has, the newest
frame decides: after a `CLOSE` nothing is registered under the id, and after
a `REQ` that was served its filters are. -/
theorem newest_frame_decides (conn : ConnId) (c : CommunityId) (sub : SubId)
    (moves : List ConnMove) (hsub : moves.all (·.concerns sub) = true)
    (hord : inOrder conn (init conn c) moves = true) :
    let s := run conn (init conn c) moves
    (∀ sub', s.frames.getLast? = some (.close sub') →
      s.app.subRegistry.entry conn sub = none) ∧
    (∀ t owner, s.frames.getLast? = some (.req t) → t.phase = .served owner →
      s.app.filtersOf conn sub = some t.filters) := by
  intro s
  have hs : InOrder conn sub s := inOrder_run (inOrder_init conn sub c) moves hsub hord
  have hnew := hs.newest
  unfold NewestHolds at hnew
  refine ⟨fun sub' hl => ?_, fun t owner hl hp => ?_⟩
  · rw [hl] at hnew
    refine Option.eq_none_iff_forall_ne_some.2 fun e he => ?_
    have htok := hs.coherent.inMap conn sub e he
    rw [show s.app.token conn sub = none from hnew] at htok
    cases htok
  · rw [hl] at hnew
    exact (hnew owner (.inr hp)).2.1

/-- A request is served, replaced by a second one, and closed. -/
def replaceThenClose : List ConnMove :=
  [.recvReq "a" [{}], .task 0 (.check true), .task 0 (.claimLive none),
    .recvReq "a" [{ limit := some 1 }], .task 0 .finish, .task 1 (.check true),
    .task 1 (.claimLive none), .task 1 .finish, .recvClose "a" true]

theorem newest_frame_decides_replaceThenClose :
    (run (.ofByte 1) (init (.ofByte 1) ⟨.ofByte 2⟩) replaceThenClose).frames.getLast? =
        some (.close "a") ∧
      (run (.ofByte 1) (init (.ofByte 1) ⟨.ofByte 2⟩)
        replaceThenClose).app.subRegistry.entry (.ofByte 1) "a" = none := by
  have hlast : (run (.ofByte 1) (init (.ofByte 1) ⟨.ofByte 2⟩)
      replaceThenClose).frames.getLast? = some (.close "a") := by decide
  exact ⟨hlast, (newest_frame_decides (.ofByte 1) ⟨.ofByte 2⟩ "a" replaceThenClose
    (by decide) (by decide)).1 "a" hlast⟩

/-- A request still reads its channels when the client closes the id. -/
def closeDuringRead : List ConnMove :=
  [.recvReq "a" [{}], .task 0 (.check true), .recvClose "a" true,
    .task 0 (.claimLive none), .task 0 .finish]

/-- The request's task has finished, the last frame was `CLOSE`, and the id
is registered. -/
theorem closeDuringRead_registers :
    let s := run (.ofByte 1) (init (.ofByte 1) ⟨.ofByte 2⟩) closeDuringRead
    s.frames = [.req ⟨"a", [{}], .served 1⟩, .close "a"] ∧
      (s.app.subRegistry.entry (.ofByte 1) "a").isSome = true :=
  ⟨rfl, by decide⟩

end ConnRun

end Buzz.Relay
