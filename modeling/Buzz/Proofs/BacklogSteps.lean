import Buzz.Waker.Feed

/-!
# The moves of the backlog walk

What a frame does to the walk, by the subscription it comes on: the walk takes
no notice of the others, a row of the page is counted, an EOSE ends the page and
a close parks it or ends the walk. `Walked` says so of the moves of the relay and
the loop, and it is all that the proofs about runs use.
-/

namespace Buzz.Waker.Feed

open Buzz.Lib WakeSubscription

variable {codec : Codec} {contents : Contents}

/-! ## One frame -/

/-- What tells the loop to do something about the walk. -/
def FeedStep.movesWalk : FeedStep → Bool
  | .backfill .. | .replayComplete .. | .backfillRateLimited .. => true
  | _ => false

/-- A frame that leaves the walk where it is. -/
structure Quiet (folded : Folded) : Prop where
  call : folded.call ≠ some .endReplay
  answer : folded.answer = none
  result : ∀ fs, folded.result = .ok fs → fs.movesWalk = false

theorem quiet_fold {cursor : CursorStore} {replay : WakeReplay} {fs : FeedStep}
    (h : fs.movesWalk = false) : Quiet (fold cursor replay fs) := by
  refine ⟨nofun, rfl, ?_⟩
  rintro fs' ⟨⟩
  exact h

theorem movesWalk_admitted (event : TriggerEvent) (admission : Admission) :
    (admitted event admission).movesWalk = false := by
  cases admission with
  | _ => rfl

section Frames

variable {durable : Bool} {cursor : CursorStore} {replay : WakeReplay} {frame : FeedFrame}
  {now : Nat} {sub : WakeSubscription}

theorem step_trigger {event : TriggerEvent}
    (h : classify codec frame = .trigger sub event) :
    Quiet (step codec durable cursor replay frame now) ∧
      (step codec durable cursor replay frame now).replay =
        replay.observeRow sub (some event.createdAt) := by
  unfold step
  rw [h]
  refine ⟨⟨nofun, rfl, fun fs hfs => ?_⟩, rfl⟩
  cases hreply : (cursor.admitEvent durable event.id event.createdAt now).result with
  | error e =>
      dsimp only at hfs
      rw [hreply] at hfs
      cases hfs
  | ok admission =>
      dsimp only at hfs
      rw [hreply] at hfs
      cases hfs
      exact movesWalk_admitted event admission

theorem step_unparsed (h : classify codec frame = .unparsed sub) :
    Quiet (step codec durable cursor replay frame now) ∧
      (step codec durable cursor replay frame now).replay = replay.observeRow sub none := by
  unfold step
  rw [h]
  exact ⟨quiet_fold rfl, rfl⟩

theorem step_rejected {eventId reason : List Char}
    (h : classify codec frame = .rejected sub eventId reason) :
    Quiet (step codec durable cursor replay frame now) ∧
      (step codec durable cursor replay frame now).replay = replay.observeRow sub none := by
  unfold step
  rw [h]
  exact ⟨quiet_fold rfl, rfl⟩

theorem fromId_backfill : fromId codec wakeBackfillSubscriptionId =
    some .backfill := if_pos rfl

theorem observeRow_of_ne (h : sub ≠ .backfill) (createdAt : Option Nat) :
    replay.observeRow sub createdAt = replay := by
  unfold WakeReplay.observeRow
  split
  · exact absurd rfl h
  · rfl

theorem classify_event {id : List Char} {event : Json}
    (h : fromId codec id = some sub) (hsub : sub ≠ .membership) :
    classify codec (.event id event) = .unparsed sub ∨
      ∃ trigger, triggerEventFromJson event = some trigger ∧
        classify codec (.event id event) = .trigger sub trigger := by
  unfold classify FeedFrame.subscription FeedFrame.subscriptionId
  dsimp only [Option.bind_some]
  rw [h]
  dsimp only
  rw [if_neg hsub]
  cases triggerEventFromJson event with
  | none => exact .inl rfl
  | some trigger => exact .inr ⟨trigger, rfl, rfl⟩

theorem classify_membership {id : List Char} {event : Json}
    (h : fromId codec id = some .membership) :
    classify codec (.event id event) = .unparsed .membership ∨
      ∃ channelId change,
        classify codec (.event id event) = .membershipChanged channelId change := by
  unfold classify FeedFrame.subscription FeedFrame.subscriptionId
  dsimp only [Option.bind_some]
  rw [h]
  dsimp only
  rw [if_pos rfl]
  cases membershipChangeFromJson codec event with
  | none => exact .inl rfl
  | some found => exact .inr ⟨found.1, found.2, rfl⟩

theorem classify_rejected {id : List Char}
    (h : fromId codec id = some sub)
    (eventId reason : List Char) :
    classify codec (.rejected id eventId reason) = .rejected sub eventId reason := by
  unfold classify FeedFrame.subscription FeedFrame.subscriptionId
  dsimp only [Option.bind_some]
  rw [h]

theorem step_eose {id : List Char}
    (h : fromId codec id = some sub) :
    step codec durable cursor replay (.eose id) now =
      conclude durable cursor now none (replay.onEose sub) := by
  unfold step classify FeedFrame.subscription FeedFrame.subscriptionId
  dsimp only [Option.bind_some]
  rw [h]

theorem classify_closed {id message : List Char}
    (h : fromId codec id = some sub) :
    classify codec (.closed id message) = .closed sub message := by
  unfold classify FeedFrame.subscription FeedFrame.subscriptionId
  dsimp only [Option.bind_some]
  rw [h]

/-- The walk takes no notice of the other subscriptions. -/
theorem step_off (h : frame.subscription codec ≠ some .backfill) :
    Quiet (step codec durable cursor replay frame now) ∧
      (step codec durable cursor replay frame now).replay = replay := by
  cases hsub : frame.subscription codec with
  | none =>
      have hclass : classify codec frame = .ignored := by
        unfold classify
        rw [hsub]
      unfold step
      rw [hclass]
      exact ⟨quiet_fold rfl, rfl⟩
  | some sub =>
      have hne : sub ≠ .backfill := fun heq => h (heq ▸ hsub)
      have hid : ∀ id, frame.subscriptionId = some id →
          fromId codec id = some sub := by
        intro id heq
        rw [FeedFrame.subscription, heq] at hsub
        exact hsub
      cases frame with
      | event id event =>
          by_cases hmembership : sub = .membership
          · subst hmembership
            rcases classify_membership (hid id rfl) with hclass | ⟨channelId, change, hclass⟩
            · exact ⟨(step_unparsed hclass).1,
                (step_unparsed hclass).2.trans (observeRow_of_ne hne none)⟩
            · unfold step
              rw [hclass]
              exact ⟨quiet_fold rfl, rfl⟩
          · rcases classify_event (hid id rfl) hmembership with hclass | ⟨trigger, -, hclass⟩
            · exact ⟨(step_unparsed hclass).1,
                (step_unparsed hclass).2.trans (observeRow_of_ne hne none)⟩
            · exact ⟨(step_trigger hclass).1,
                (step_trigger hclass).2.trans (observeRow_of_ne hne _)⟩
      | eose id =>
          rw [step_eose (hid id rfl)]
          have heose : replay.onEose sub = (replay, none) := if_pos (.inl hne)
          rw [heose]
          exact ⟨quiet_fold rfl, rfl⟩
      | closed id message =>
          unfold step
          rw [classify_closed (hid id rfl)]
          cases sub with
          | live channelId => exact ⟨quiet_fold rfl, rfl⟩
          | backfill => exact absurd rfl hne
          | membership => exact ⟨quiet_fold rfl, rfl⟩
      | rejected id eventId reason =>
          have hclass := classify_rejected (hid id rfl) eventId reason
          exact ⟨(step_rejected hclass).1,
            (step_rejected hclass).2.trans (observeRow_of_ne hne none)⟩
      | other => cases hsub

/-- A row of the page is counted, under its own time if it can be read. -/
theorem step_row (row : StoredRow) :
    Quiet (step codec durable cursor replay (contents.frame row) now) ∧
      ∃ createdAt, (∀ time, createdAt = some time → time = row.createdAt) ∧
        (step codec durable cursor replay (contents.frame row) now).replay =
          replay.observeRow .backfill createdAt := by
  unfold Contents.frame
  cases hsent : contents.sent row with
  | rejected eventId reason =>
      have hclass : classify codec (.rejected wakeBackfillSubscriptionId eventId reason) =
          .rejected .backfill eventId reason := classify_rejected fromId_backfill eventId reason
      exact ⟨(step_rejected hclass).1, none, nofun, (step_rejected hclass).2⟩
  | event event =>
      rcases classify_event fromId_backfill (by decide) with hclass | ⟨trigger, hread, hclass⟩
      · exact ⟨(step_unparsed hclass).1, none, nofun, (step_unparsed hclass).2⟩
      · refine ⟨(step_trigger hclass).1, some trigger.createdAt, ?_, (step_trigger hclass).2⟩
        rintro time ⟨⟩
        exact contents.dated row event trigger hsent hread

theorem step_closed {id : List Char} (h : fromId codec id = some .backfill)
    (reason : List Char) :
    (∃ parked strikes, replay.onBackfillRateLimited = some (parked, strikes) ∧
      step codec durable cursor replay (.closed id reason) now =
        fold cursor parked
          (.backfillRateLimited parked.since parked.backfillUntil reason strikes)) ∨
      step codec durable cursor replay (.closed id reason) now =
        conclude durable cursor now (some reason) replay.onBackfillClosed := by
  unfold step
  rw [classify_closed h]
  dsimp only
  split
  · next parked strikes hparked =>
      refine .inl ⟨parked, strikes, ?_, rfl⟩
      split at hparked
      · exact hparked
      · cases hparked
  · exact .inr rfl

end Frames

/-! ## One move -/

/-- What a move can do; `true` where the page went on. -/
inductive Walked (s : Backlog) : Bool → Backlog → Prop where
  /-- Something happens beside the walk. -/
  | beside {cursor : CursorStore} {calls : List CursorCall} {stored : List StoredRow}
      {connected : Bool} (hcalls : calls.count .endReplay = s.calls.count .endReplay)
      (hstored : s.stored ⊆ stored) (hkept : connected = true → s.connected = true) :
      Walked s false
        { s with cursor := cursor, calls := calls, stored := stored, connected := connected }
  | still {went : Bool} (hstill : s.connected = false ∨ s.request = .gone) : Walked s went s
  | finished {went : Bool} (hover : s.replay.isComplete = true) :
      Walked s went { s with request := .gone }
  | taken {since : Nat} {upTo : Option Nat} (hasked : s.request = .asked since upTo) :
      Walked s true { s with request := .answering (backfillPage s.stored since upTo) }
  | reissued {since : Nat} {upTo : Option Nat} (hparked : s.request = .parked since upTo) :
      Walked s true { s with request := .asked since upTo }
  | row {row : StoredRow} {rows : List StoredRow} {createdAt : Option Nat} {cursor : CursorStore}
      {calls : List CursorCall} {connected : Bool} (hrows : s.request = .answering (row :: rows))
      (htime : ∀ time, createdAt = some time → time = row.createdAt)
      (hcalls : calls.count .endReplay = s.calls.count .endReplay)
      (hkept : connected = true → s.connected = true) :
      Walked s true
        { s with
          cursor := cursor
          replay := s.replay.observeRow .backfill createdAt
          request := .answering rows
          delivered := s.delivered ++ [row]
          calls := calls
          connected := connected }
  | nextPage {replay : WakeReplay} {since upTo : Nat} (hrows : s.request = .answering [])
      (hopen : s.replay.isComplete = false)
      (hpage : s.replay.endPage = (replay, .backfill since upTo)) :
      Walked s true
        { s with
          replay := replay
          request := .asked since (some upTo)
          pages := s.pages ++ [some upTo] }
  | drained {replay : WakeReplay} {truncated : Bool} {cursor : CursorStore} {connected : Bool}
      (hrows : s.request = .answering []) (hopen : s.replay.isComplete = false)
      (hpage : s.replay.endPage = (replay, .complete truncated)) :
      Walked s true
        { s with
          cursor := cursor
          replay := replay
          request := .gone
          calls := s.calls ++ [.endReplay]
          ended := some truncated
          connected := connected }
  | refused {replay : WakeReplay} {strikes : Nat}
      (hretry : s.replay.onBackfillRateLimited = some (replay, strikes)) :
      Walked s false
        { s with replay := replay, request := .parked replay.since replay.backfillUntil }
  | closed {cursor : CursorStore} {connected : Bool} (hopen : s.replay.isComplete = false) :
      Walked s false
        { s with
          cursor := cursor
          replay := (s.replay.finish true).1
          request := .gone
          calls := s.calls ++ [.endReplay]
          ended := some true
          connected := connected }

section Applied

variable {s : Backlog} {durable : Bool} {now : Nat} {replay : WakeReplay}

theorem apply_quiet {folded : Folded} (h : Quiet folded) :
    ∃ connected, (connected = true → s.connected = true) ∧ s.apply folded =
      { s with
        cursor := folded.cursor
        replay := folded.replay
        calls := s.calls ++ folded.call.toList
        connected := connected } := by
  unfold Backlog.apply
  rw [h.answer]
  cases hresult : folded.result with
  | error e => exact ⟨false, nofun, rfl⟩
  | ok fs =>
      have hquiet := h.result fs hresult
      cases fs with
      | backfill => cases hquiet
      | replayComplete => cases hquiet
      | backfillRateLimited => cases hquiet
      | closed => exact ⟨false, nofun, rfl⟩
      | _ => exact ⟨s.connected, id, rfl⟩

/-- The request is behind the frame that is being folded. -/
theorem apply_complete {truncated : Bool} {reason : Option (List Char)} :
    ∃ cursor connected,
      { s with request := .gone }.apply
          (conclude durable s.cursor now reason (replay, some (.complete truncated))) =
        { s with
          cursor := cursor
          replay := replay
          request := .gone
          calls := s.calls ++ [.endReplay]
          ended := some truncated
          connected := connected } := by
  unfold conclude Backlog.apply
  cases hreply : (s.cursor.endReplay durable now).result with
  | error e =>
      refine ⟨(s.cursor.endReplay durable now).store, false, ?_⟩
      dsimp only
      rw [hreply]
      rfl
  | ok u =>
      refine ⟨(s.cursor.endReplay durable now).store, s.connected, ?_⟩
      dsimp only
      rw [hreply]
      rfl

theorem append_none (calls : List CursorCall) :
    calls ++ (none : Option CursorCall).toList = calls := List.append_nil calls

theorem apply_backfill {since upTo : Nat} :
    { s with request := .gone }.apply
        (conclude durable s.cursor now none (replay, some (.backfill since upTo))) =
      { s with
        replay := replay
        request := .asked since (some upTo)
        pages := s.pages ++ [some upTo] } := by
  unfold conclude fold Backlog.apply
  rw [append_none]

theorem apply_nothing {reason : Option (List Char)} :
    { s with request := .gone }.apply
        (conclude durable s.cursor now reason (s.replay, none)) =
      { s with request := .gone } := by
  unfold conclude fold Backlog.apply
  rw [append_none]

theorem apply_rateLimited {since strikes : Nat} {upTo : Option Nat}
    {reason : List Char} :
    { s with request := .gone }.apply
        (fold s.cursor replay (.backfillRateLimited since upTo reason strikes)) =
      { s with replay := replay, request := .parked since upTo } := by
  unfold fold Backlog.apply
  rw [append_none]

end Applied

def BacklogMove.isAdvance : BacklogMove → Bool
  | .advance .. => true
  | _ => false

theorem count_endReplay {call : Option CursorCall} (h : call ≠ some .endReplay)
    (calls : List CursorCall) :
    (calls ++ call.toList).count .endReplay = calls.count .endReplay := by
  have hnone : call.toList.count .endReplay = 0 :=
    List.count_eq_zero_of_not_mem fun hmem => h (Option.mem_toList.1 hmem)
  rw [List.count_append, hnone, Nat.add_zero]

theorem walked_fold {s : Backlog} {frame : FeedFrame}
    (h : frame.subscription codec ≠ some .backfill) (now : Nat) (durable : Bool) :
    Walked s false (s.fold codec frame now durable) := by
  obtain ⟨hquiet, hreplay⟩ := step_off h
  obtain ⟨connected, hkept, happly⟩ := apply_quiet hquiet
  unfold Backlog.fold
  rw [happly, hreplay]
  exact .beside (count_endReplay hquiet.call _) (List.Subset.refl _) hkept

theorem walked_advance (s : Backlog) (now : Nat) (durable : Bool) :
    Walked s true (s.advance codec contents now durable) := by
  unfold Backlog.advance
  cases hrequest : s.request with
  | asked since upTo => exact .taken hrequest
  | parked since upTo => exact .reissued hrequest
  | gone => exact .still (.inr hrequest)
  | answering rows =>
      cases rows with
      | cons row rows =>
          obtain ⟨hquiet, createdAt, htime, hreplay⟩ := step_row row
          obtain ⟨connected, hkept, happly⟩ := apply_quiet hquiet
          dsimp only [Backlog.fold]
          rw [happly, hreplay]
          exact .row hrequest htime (count_endReplay hquiet.call _) hkept
      | nil =>
          dsimp only [Backlog.fold]
          rw [step_eose fromId_backfill]
          cases hopen : s.replay.isComplete with
          | true =>
              have heose : s.replay.onEose .backfill = (s.replay, none) := if_pos (.inr hopen)
              rw [heose, apply_nothing]
              exact .finished hopen
          | false =>
              have heose : s.replay.onEose .backfill =
                  (s.replay.endPage.1, some s.replay.endPage.2) := by
                refine if_neg ?_
                rw [hopen]
                decide
              rw [heose]
              cases hpage : s.replay.endPage with
              | mk replay answer =>
                  cases answer with
                  | backfill since upTo =>
                      rw [apply_backfill]
                      exact .nextPage hrequest hopen hpage
                  | complete truncated =>
                      obtain ⟨cursor, connected, happly⟩ := apply_complete
                      rw [happly]
                      exact .drained hrequest hopen hpage

theorem walked_closeBackfill (s : Backlog) (reason : List Char) (now : Nat) (durable : Bool) :
    Walked s false ({ s with request := .gone }.fold codec
      (.closed wakeBackfillSubscriptionId reason) now durable) := by
  dsimp only [Backlog.fold]
  rcases step_closed fromId_backfill reason with ⟨parked, strikes, hretry, hstep⟩ | hstep
  · rw [hstep, apply_rateLimited]
    exact .refused hretry
  · rw [hstep]
    unfold WakeReplay.onBackfillClosed
    cases hphase : s.replay.phase with
    | done =>
        have hover : s.replay.isComplete = true := by
          rw [WakeReplay.isComplete, hphase]
          rfl
        rw [apply_nothing]
        exact .finished hover
    | backfill upTo =>
        have hopen : s.replay.isComplete = false := by
          rw [WakeReplay.isComplete, hphase]
          rfl
        obtain ⟨cursor, connected, happly⟩ := apply_complete
        dsimp only [WakeReplay.finish]
        rw [happly]
        exact .closed hopen

/-- Every move is one of these. -/
theorem step_walked (codec : Codec) (contents : Contents) (s : Backlog) (m : BacklogMove) :
    Walked s m.isAdvance (s.step codec contents m) := by
  unfold Backlog.step
  split
  · next hlost => exact .still (.inl (Bool.not_eq_true' _ ▸ hlost))
  · cases m with
    | publish row => exact .beside rfl (List.subset_append_left _ _) id
    | advance now durable => exact walked_advance s now durable
    | closeBackfill reason now durable => exact walked_closeBackfill s reason now durable
    | frame frame now durable =>
        dsimp only
        split
        · exact .beside rfl (List.Subset.refl _) id
        · next hoff => exact walked_fold hoff now durable
    | disconnect => exact .beside rfl (List.Subset.refl _) nofun

end Buzz.Waker.Feed
