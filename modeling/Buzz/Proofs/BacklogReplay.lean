import Buzz.Proofs.BacklogSteps
import Buzz.Proofs.ReplicaPages

/-!
# The backlog walk drains the backlog or says so

Each full page moves the bound down to the time of a row it had. Rows come
newest first, so what the page left out is no newer than that row and stays in
the range of the next page; a page that is not full left out nothing. That is
`Covered`, and it needs no more of the bound than that some row of the page has
it: rows that cannot be read only make the walk overlap more.

The walk ends because every page costs one of `maxReplayPages` and every
refusal one of `maxBackfillRateLimitRetries`, and a page is at most a request,
its rows and an EOSE. `Backlog.work` counts what is left of that.
-/

namespace Buzz.Waker.Feed

open Buzz.Lib WakeReplay

/-! ## Pages -/

theorem StoredRow.key_injective : Function.Injective StoredRow.key := by
  rintro ⟨time, ⟨bytes, size⟩⟩ ⟨time', ⟨bytes', size'⟩⟩ h
  obtain ⟨htime, hbytes⟩ := Prod.mk.inj h
  obtain rfl : time = time' := Int.ofNat.inj htime
  cases hbytes
  rfl

theorem newerFirst_totalOrder : TotalOrder newerFirst :=
  Db.newestFirst_totalOrder.comap StoredRow.key_injective

theorem newerFirst_createdAt {a b : StoredRow} (h : newerFirst a b = true) :
    b.createdAt ≤ a.createdAt := by
  have hkey : (b.createdAt : Int) < a.createdAt ∨ (a.createdAt : Int) = b.createdAt := by
    simp only [newerFirst, Db.newestFirst, StoredRow.key, Bool.or_eq_true, Bool.and_eq_true,
      beq_iff_eq] at h
    exact h.imp of_decide_eq_true And.left
  omega

/-- A row in the range that the page left out is no newer than any row it has, and the page
is full. -/
theorem left_out {stored : List StoredRow} {since : Nat} {upTo : Option Nat} {row : StoredRow}
    (hrow : row ∈ stored) (hrange : inRange since upTo row = true)
    (hout : row ∉ backfillPage stored since upTo) :
    (backfillPage stored since upTo).length = replayPageLimit ∧
      ∀ seen ∈ backfillPage stored since upTo, row.createdAt ≤ seen.createdAt := by
  obtain ⟨hfull, hbefore⟩ := before_of_not_mem_pageOf newerFirst_totalOrder
    (List.mem_filter.2 ⟨hrow, hrange⟩) hout
  exact ⟨hfull, fun seen hseen => newerFirst_createdAt (hbefore seen hseen).1⟩

/-- The tally of these rows. -/
structure Tallied (seen : List StoredRow) (page : PageTally) : Prop where
  count : page.count = seen.length
  oldest : ∀ oldest, page.oldest = some oldest → ∃ row ∈ seen, row.createdAt = oldest

theorem tallied_nil : Tallied [] {} := ⟨rfl, nofun⟩

variable {seen : List StoredRow}

theorem Tallied.observe {page : PageTally} {row : StoredRow}
    {createdAt : Option Nat} (h : Tallied seen page)
    (hroom : seen.length < replayPageLimit)
    (htime : ∀ time, createdAt = some time → time = row.createdAt) :
    Tallied (seen ++ [row]) (page.observe createdAt) := by
  have hlast : row ∈ seen ++ [row] := List.mem_append_right _ List.mem_cons_self
  have hkept : ∀ oldest, page.oldest = some oldest →
      ∃ other ∈ seen ++ [row], other.createdAt = oldest := by
    intro oldest holdest
    obtain ⟨other, hother, heq⟩ := h.oldest oldest holdest
    exact ⟨other, List.mem_append_left _ hother, heq⟩
  constructor
  · show min (page.count + 1) (2 ^ 32 - 1) = (seen ++ [row]).length
    rw [h.count, List.length_append, List.length_singleton]
    unfold replayPageLimit at hroom
    omega
  · intro oldest holdest
    obtain ⟨count, before⟩ := page
    cases createdAt with
    | none => exact hkept oldest holdest
    | some time =>
        obtain rfl := htime time rfl
        cases before with
        | none => exact ⟨row, hlast, Option.some.inj holdest⟩
        | some before =>
            have hmin : min before row.createdAt = oldest := Option.some.inj holdest
            rcases Nat.le_total before row.createdAt with hle | hle
            · rw [Nat.min_eq_left hle] at hmin
              exact hkept oldest (congrArg some hmin)
            · rw [Nat.min_eq_right hle] at hmin
              exact ⟨row, hlast, hmin⟩

/-! ## The walk -/

theorem observeRow_done {replay : WakeReplay} (h : replay.isComplete = true)
    (createdAt : Option Nat) : replay.observeRow .backfill createdAt = replay := by
  unfold observeRow
  cases hphase : replay.phase with
  | done => rfl
  | backfill upTo =>
      rw [isComplete, hphase] at h
      cases h

theorem observeRow_open {replay : WakeReplay} (h : replay.isComplete = false)
    (createdAt : Option Nat) :
    replay.observeRow .backfill createdAt =
      { replay with page := replay.page.observe createdAt } := by
  unfold observeRow
  cases hphase : replay.phase with
  | backfill upTo => rfl
  | done =>
      rw [isComplete, hphase] at h
      cases h

/-- What the end of a page comes to: a page that is not full ends the walk, and a full one
ends it or moves the bound. -/
theorem endPage_cases (replay : WakeReplay) :
    (replay.page.count < replayPageLimit ∧
      replay.endPage = ({ replay with page := {}, phase := .done }, .complete false)) ∨
    replay.endPage = ({ replay with page := {}, phase := .done }, .complete true) ∨
    ∃ oldest, replay.page.oldest = some oldest ∧ replay.pagesIssued < maxReplayPages ∧
      replay.endPage =
        ({ replay with
            page := {}
            phase := .backfill (some oldest)
            pagesIssued := saturatingSucc replay.pagesIssued },
          .backfill replay.since oldest) := by
  unfold endPage
  split
  · next hshort => exact .inl ⟨hshort, rfl⟩
  · split
    · next oldest holdest =>
        split
        · next hnext => exact .inr (.inr ⟨oldest, holdest, hnext.2, rfl⟩)
        · exact .inr (.inl rfl)
    · exact .inr (.inl rfl)

theorem endPage_backfill {replay next : WakeReplay} {since upTo : Nat}
    (h : replay.endPage = (next, .backfill since upTo)) :
    replay.page.oldest = some upTo ∧ replay.pagesIssued < maxReplayPages ∧ since = replay.since ∧
      next =
        { replay with
          page := {}
          phase := .backfill (some upTo)
          pagesIssued := saturatingSucc replay.pagesIssued } := by
  rcases endPage_cases replay with ⟨-, heq⟩ | heq | ⟨oldest, holdest, hbudget, heq⟩
  · rw [heq] at h
    cases h
  · rw [heq] at h
    cases h
  · rw [heq] at h
    cases h
    exact ⟨holdest, hbudget, rfl, rfl⟩

theorem endPage_complete {replay next : WakeReplay} {truncated : Bool}
    (h : replay.endPage = (next, .complete truncated)) :
    next = { replay with page := {}, phase := .done } ∧
      (truncated = false → replay.page.count < replayPageLimit) := by
  rcases endPage_cases replay with ⟨hshort, heq⟩ | heq | ⟨oldest, -, -, heq⟩
  · rw [heq] at h
    cases h
    exact ⟨rfl, fun _ => hshort⟩
  · rw [heq] at h
    cases h
    exact ⟨rfl, nofun⟩
  · rw [heq] at h
    cases h

/-- The walk is not both open and over. -/
theorem not_open {replay : WakeReplay} {p : Prop} (hover : replay.isComplete = true)
    (hopen : replay.isComplete = false) : p := by
  rw [hover] at hopen
  cases hopen

variable {since : Nat} {initial : List StoredRow} {s s' : Backlog}

/-- What the relay still owes, and the tally of what it sent. -/
def Standing (initial : List StoredRow) (replay : WakeReplay) (delivered : List StoredRow) :
    Request → Prop
  | .asked since upTo | .parked since upTo =>
      since = replay.since ∧ upTo = replay.backfillUntil ∧ replay.page = {}
  | .answering rows =>
      ∃ stored seen, initial ⊆ stored ∧
        backfillPage stored replay.since replay.backfillUntil = seen ++ rows ∧
        Tallied seen replay.page ∧ seen ⊆ delivered
  | .gone => False

/-- What the walk has not delivered is in the range of the standing page. -/
def Covered (initial : List StoredRow) (replay : WakeReplay) (delivered : List StoredRow) : Prop :=
  ∀ row ∈ initial, replay.since ≤ row.createdAt →
    row ∈ delivered ∨ inRange replay.since replay.backfillUntil row = true

/-- What holds in every state of a walk over the backlog: its budgets, and what
is still ahead of the page it is on. -/
structure Sound (since : Nat) (initial : List StoredRow) (s : Backlog) : Prop where
  since : s.replay.since = since
  stored : initial ⊆ s.stored
  pages : s.pages.length = s.replay.pagesIssued
  budget : s.replay.pagesIssued ≤ maxReplayPages
  retries : s.replay.rateLimitRetries ≤ maxBackfillRateLimitRetries
  ended : s.ended.isSome = s.replay.isComplete
  calls : s.calls.count .endReplay = if s.replay.isComplete then 1 else 0
  standing : s.replay.isComplete = false → Standing initial s.replay s.delivered s.request
  covered : s.replay.isComplete = false → Covered initial s.replay s.delivered
  drained : s.ended = some false →
    ∀ row ∈ initial, s.replay.since ≤ row.createdAt → row ∈ s.delivered

/-- The page was full, so it moved the bound to a row it had. -/
theorem Covered.nextPage {replay : WakeReplay}
    {delivered stored : List StoredRow} {oldest : Nat}
    (h : Covered initial replay delivered) (hstored : initial ⊆ stored)
    (hpage : backfillPage stored replay.since replay.backfillUntil = seen)
    (htally : Tallied seen replay.page) (hseen : seen ⊆ delivered)
    (holdest : replay.page.oldest = some oldest) :
    ∀ row ∈ initial, replay.since ≤ row.createdAt →
      row ∈ delivered ∨ inRange replay.since (some oldest) row = true := by
  intro row hrow hsince
  rcases h row hrow hsince with hdelivered | hrange
  · exact .inl hdelivered
  · by_cases hmem : row ∈ seen
    · exact .inl (hseen hmem)
    · have hout := (left_out (hstored hrow) hrange (hpage ▸ hmem)).2
      obtain ⟨other, hother, htime⟩ := htally.oldest oldest holdest
      have hle := hout other (hpage ▸ hother)
      refine .inr (Bool.and_eq_true_iff.2 ⟨decide_eq_true hsince, decide_eq_true ?_⟩)
      rw [← htime]
      exact hle

/-- The page was not full, so it left out nothing. -/
theorem Covered.drained {replay : WakeReplay}
    {delivered stored : List StoredRow} (h : Covered initial replay delivered)
    (hstored : initial ⊆ stored)
    (hpage : backfillPage stored replay.since replay.backfillUntil = seen)
    (htally : Tallied seen replay.page) (hseen : seen ⊆ delivered)
    (hshort : replay.page.count < replayPageLimit) :
    ∀ row ∈ initial, replay.since ≤ row.createdAt → row ∈ delivered := by
  intro row hrow hsince
  rcases h row hrow hsince with hdelivered | hrange
  · exact hdelivered
  · by_contra hout
    have hfull := (left_out (hstored hrow) hrange (hpage ▸ fun hmem => hout (hseen hmem))).1
    rw [hpage, ← htally.count] at hfull
    exact Nat.lt_irrefl _ (hfull ▸ hshort)

theorem saturatingSucc_pages {n : Nat} (h : n < maxReplayPages) : saturatingSucc n = n + 1 := by
  unfold saturatingSucc
  unfold maxReplayPages at h
  omega

namespace Sound

/-- Nothing is left to do when the walk is over. -/
theorem finished (h : Sound since initial s) (hover : s.replay.isComplete = true) (request : Request) :
    Sound since initial { s with request := request } :=
  { h with standing := not_open hover }

variable {cursor : CursorStore} {connected : Bool}

theorem row (h : Sound since initial s) {row : StoredRow}
    {rows : List StoredRow} {createdAt : Option Nat} {calls : List CursorCall}
    (hrows : s.request = .answering (row :: rows))
    (htime : ∀ time, createdAt = some time → time = row.createdAt)
    (hcalls : calls.count .endReplay = s.calls.count .endReplay) :
    Sound since initial
      { s with
        cursor := cursor
        replay := s.replay.observeRow .backfill createdAt
        request := .answering rows
        delivered := s.delivered ++ [row]
        calls := calls
        connected := connected } := by
  have hgrow : s.delivered ⊆ s.delivered ++ [row] := List.subset_append_left _ _
  cases hopen : s.replay.isComplete with
  | true =>
      rw [observeRow_done hopen]
      refine ⟨h.since, h.stored, h.pages, h.budget, h.retries, h.ended, ?_, not_open hopen,
        not_open hopen, ?_⟩
      · exact hcalls.trans h.calls
      · exact fun hended other hother hsince => hgrow (h.drained hended other hother hsince)
  | false =>
      rw [observeRow_open hopen]
      refine ⟨h.since, h.stored, h.pages, h.budget, h.retries, h.ended, ?_, fun _ => ?_, ?_, ?_⟩
      · exact hcalls.trans h.calls
      · have hstanding := h.standing hopen
        rw [hrows] at hstanding
        obtain ⟨stored, seen, hstored, hpage, htally, hseen⟩ := hstanding
        have hlength : (seen ++ row :: rows).length ≤ replayPageLimit :=
          hpage ▸ length_pageOf_le
        have hroom : seen.length < replayPageLimit := by
          rw [List.length_append, List.length_cons] at hlength
          omega
        refine ⟨stored, seen ++ [row], hstored, ?_, htally.observe hroom htime, ?_⟩
        · exact hpage.trans (List.append_cons seen row rows)
        · exact List.append_subset.2 ⟨fun r hr => hgrow (hseen hr), List.subset_append_right _ _⟩
      · intro _ other hother hsince
        exact (h.covered hopen other hother hsince).imp_left fun hmem => hgrow hmem
      · exact fun hended other hother hsince => hgrow (h.drained hended other hother hsince)

variable {replay : WakeReplay}

section

variable (h : Sound since initial s)
include h

/-- The walk ends here, and nothing is left out unless it says so. -/
theorem finish {truncated : Bool} (hopen : s.replay.isComplete = false)
    (hreplay : replay = { s.replay with page := replay.page, phase := .done })
    (hdrained : truncated = false →
      ∀ row ∈ initial, s.replay.since ≤ row.createdAt → row ∈ s.delivered) :
    Sound since initial
      { s with
        cursor := cursor
        replay := replay
        request := .gone
        calls := s.calls ++ [.endReplay]
        ended := some truncated
        connected := connected } := by
  have hover : replay.isComplete = true := by
    rw [hreplay]
    rfl
  have hcalls : (s.calls ++ [CursorCall.endReplay]).count .endReplay = 1 := by
    rw [List.count_append, h.calls, hopen]
    rfl
  have hsince : replay.since = s.replay.since := by rw [hreplay]
  have hissued : replay.pagesIssued = s.replay.pagesIssued := by rw [hreplay]
  have hretries : replay.rateLimitRetries = s.replay.rateLimitRetries := by rw [hreplay]
  refine ⟨hsince.trans h.since, h.stored, h.pages.trans hissued.symm, hissued ▸ h.budget,
    hretries ▸ h.retries, hover.symm, ?_, not_open hover, not_open hover, ?_⟩
  · show (s.calls ++ [CursorCall.endReplay]).count .endReplay =
      if replay.isComplete then 1 else 0
    rw [hcalls, hover]
    rfl
  · rintro ⟨⟩ row hrow hrange
    exact hdrained rfl row hrow (hsince ▸ hrange)

theorem nextPage {floor upTo : Nat} (hrows : s.request = .answering [])
    (hopen : s.replay.isComplete = false)
    (hpage : s.replay.endPage = (replay, .backfill floor upTo)) :
    Sound since initial
      { s with
        replay := replay
        request := .asked floor (some upTo)
        pages := s.pages ++ [some upTo] } := by
  have hstanding := h.standing hopen
  rw [hrows] at hstanding
  obtain ⟨stored, seen, hstored, hrows', htally, hseen⟩ := hstanding
  rw [List.append_nil] at hrows'
  obtain ⟨holdest, hbudget, rfl, rfl⟩ := endPage_backfill hpage
  have hissued := saturatingSucc_pages hbudget
  refine ⟨h.since, h.stored, ?_, ?_, h.retries, h.ended.trans hopen, ?_, ?_, ?_, h.drained⟩
  · show (s.pages ++ [some upTo]).length = saturatingSucc s.replay.pagesIssued
    rw [List.length_append, h.pages, hissued]
    rfl
  · show saturatingSucc s.replay.pagesIssued ≤ maxReplayPages
    rw [hissued]
    exact hbudget
  · exact h.calls.trans (by rw [hopen]; rfl)
  · exact fun _ => ⟨rfl, rfl, rfl⟩
  · exact fun _ => (h.covered hopen).nextPage hstored hrows' htally hseen holdest

theorem drains {truncated : Bool} (hrows : s.request = .answering [])
    (hopen : s.replay.isComplete = false)
    (hpage : s.replay.endPage = (replay, .complete truncated)) :
    Sound since initial
      { s with
        cursor := cursor
        replay := replay
        request := .gone
        calls := s.calls ++ [.endReplay]
        ended := some truncated
        connected := connected } := by
  have hstanding := h.standing hopen
  rw [hrows] at hstanding
  obtain ⟨stored, seen, hstored, hrows', htally, hseen⟩ := hstanding
  rw [List.append_nil] at hrows'
  obtain ⟨rfl, hshort⟩ := endPage_complete hpage
  exact h.finish hopen rfl fun hfalse =>
    (h.covered hopen).drained hstored hrows' htally hseen (hshort hfalse)

/-- A refused page is asked for again as it was. -/
theorem refused {strikes : Nat}
    (hretry : s.replay.onBackfillRateLimited = some (replay, strikes)) :
    Sound since initial
      { s with replay := replay, request := .parked replay.since replay.backfillUntil } := by
  unfold onBackfillRateLimited at hretry
  split at hretry
  · cases hretry
  · next hok =>
      cases hretry
      rw [not_or, Nat.not_le] at hok
      exact ⟨h.since, h.stored, h.pages, h.budget, hok.2, h.ended, h.calls,
        fun _ => ⟨rfl, rfl, rfl⟩, h.covered, h.drained⟩

theorem walked {went : Bool} (hw : Walked s went s') :
    Sound since initial s' := by
  cases hw with
  | beside hcalls hstored _ =>
      exact { h with
        stored := fun row hrow => hstored (h.stored hrow)
        calls := hcalls.trans h.calls }
  | still => exact h
  | finished hover => exact h.finished hover .gone
  | taken hasked =>
      refine { h with standing := fun hopen => ?_ }
      have hstanding := h.standing hopen
      rw [hasked] at hstanding
      obtain ⟨rfl, rfl, hpage⟩ := hstanding
      exact ⟨s.stored, [], h.stored, rfl, hpage ▸ tallied_nil, nofun⟩
  | reissued hparked =>
      refine { h with standing := fun hopen => ?_ }
      have hstanding := h.standing hopen
      rw [hparked] at hstanding
      exact hstanding
  | row hrows htime hcalls _ => exact h.row hrows htime hcalls
  | nextPage hrows hopen hpage => exact h.nextPage hrows hopen hpage
  | drained hrows hopen hpage => exact h.drains hrows hopen hpage
  | refused hretry => exact h.refused hretry
  | closed hopen => exact h.finish hopen rfl nofun

end

end Sound

/-! ## The end -/

/-- The steps that are left of a request. -/
def Request.work : Request → Nat
  | .asked .. => replayPageLimit + 2
  | .answering rows => rows.length + 1
  | .parked .. => replayPageLimit + 3
  | .gone => 0

/-- The pages and the retries that are left. -/
def WakeReplay.budget (replay : WakeReplay) : Nat :=
  maxReplayPages - replay.pagesIssued + (maxBackfillRateLimitRetries - replay.rateLimitRetries)

/-- The steps that are left of the walk. -/
def Backlog.work (s : Backlog) : Nat :=
  if s.replay.isComplete ∨ s.connected = false then 0
  else s.replay.budget * (replayPageLimit + 3) + s.request.work

theorem work_of_lt {n : Nat} (h : n < s.work) :
    s.replay.isComplete = false ∧ s.connected = true ∧
      s.work = s.replay.budget * (replayPageLimit + 3) + s.request.work := by
  unfold Backlog.work at h ⊢
  split at h
  · exact absurd h (Nat.not_lt_zero n)
  · next hgoing =>
      rw [not_or, Bool.not_eq_true, Bool.not_eq_false] at hgoing
      exact ⟨hgoing.1, hgoing.2, if_neg (by rw [hgoing.1, hgoing.2]; decide)⟩

theorem Backlog.work_open (s : Backlog) (hopen : s.replay.isComplete = false)
    (hconnected : s.connected = true) :
    s.work = s.replay.budget * (replayPageLimit + 3) + s.request.work :=
  if_neg (by rw [hopen, hconnected]; decide)

theorem budget_nextPage {replay : WakeReplay} (h : replay.pagesIssued < maxReplayPages)
    (upTo : Option Nat) :
    budget
        { replay with
          page := {}
          phase := .backfill upTo
          pagesIssued := saturatingSucc replay.pagesIssued } + 1 = replay.budget := by
  unfold budget
  dsimp only
  rw [saturatingSucc_pages h]
  omega

theorem budget_refused {replay parked : WakeReplay} {strikes : Nat}
    (h : replay.onBackfillRateLimited = some (parked, strikes)) :
    parked.budget + 1 = replay.budget ∧ parked.isComplete = replay.isComplete := by
  unfold onBackfillRateLimited at h
  split at h
  · cases h
  · next hok =>
      cases h
      rw [not_or, Nat.not_le] at hok
      refine ⟨?_, rfl⟩
      unfold budget
      dsimp only
      omega

theorem isComplete_observeRow (replay : WakeReplay) (createdAt : Option Nat) :
    (replay.observeRow .backfill createdAt).isComplete = replay.isComplete := by
  cases hopen : replay.isComplete with
  | true => rw [observeRow_done hopen, hopen]
  | false => rw [observeRow_open hopen, ← hopen]; rfl

/-- Every step of the page is one less to do, and nothing else adds to what is left. -/
theorem Sound.work_walked (h : Sound since initial s) {went : Bool} (hw : Walked s went s') :
    s'.work = 0 ∨ s'.work + went.toNat ≤ s.work := by
  rcases Nat.eq_zero_or_pos s'.work with hzero | hpos
  · exact .inl hzero
  · obtain ⟨hopen', hconnected', hwork'⟩ := work_of_lt hpos
    refine .inr ?_
    rw [hwork']
    clear hwork' hpos
    cases hw with
    | beside _ _ hkept =>
        rw [s.work_open hopen' (hkept hconnected')]
        dsimp only [Bool.toNat_false]
        omega
    | still hstill =>
        rcases hstill with hlost | hgone
        · rw [hlost] at hconnected'
          cases hconnected'
        · have hstanding := h.standing hopen'
          rw [hgone] at hstanding
          exact hstanding.elim
    | finished hover => exact not_open hover hopen'
    | @taken floor upTo hasked =>
        have hlength : (backfillPage s.stored floor upTo).length ≤ replayPageLimit :=
          length_pageOf_le
        rw [s.work_open hopen' hconnected', hasked]
        dsimp only [Request.work, Bool.toNat_true]
        omega
    | reissued hparked =>
        rw [s.work_open hopen' hconnected', hparked]
        dsimp only [Request.work, Bool.toNat_true]
        omega
    | row hrows _ _ hkept =>
        have hopen := (isComplete_observeRow s.replay _).symm.trans hopen'
        rw [s.work_open hopen (hkept hconnected'), hrows, observeRow_open hopen]
        dsimp only [Request.work, Bool.toNat_true, WakeReplay.budget]
        rw [List.length_cons]
        omega
    | @nextPage _ _ upTo hrows hopen hpage =>
        rw [s.work_open hopen hconnected', hrows]
        obtain ⟨-, hbudget, rfl, rfl⟩ := endPage_backfill hpage
        rw [← budget_nextPage hbudget (some upTo), Nat.succ_mul]
        dsimp only [Request.work, Bool.toNat_true]
        rw [List.length_nil]
        omega
    | drained _ _ hpage =>
        obtain ⟨rfl, -⟩ := endPage_complete hpage
        cases hopen'
    | refused hretry =>
        have hopen := (budget_refused hretry).2.symm.trans hopen'
        rw [s.work_open hopen hconnected', ← (budget_refused hretry).1, Nat.succ_mul]
        dsimp only [Request.work, Bool.toNat_false]
        omega
    | closed hopen => cases hopen'

/-! ## Runs -/

section Runs

variable (codec : Codec) (contents : Contents) (cursor : CursorStore) (since : Nat)
  (stored : List StoredRow)

theorem sound_init : Sound since stored (backlog codec contents cursor since stored).init where
  since := rfl
  stored := List.Subset.refl _
  pages := rfl
  budget := show 1 ≤ maxReplayPages by decide
  retries := Nat.zero_le _
  ended := rfl
  calls := rfl
  standing _ := ⟨rfl, rfl, rfl⟩
  covered _ _ _ hsince := .inr (Bool.and_eq_true_iff.2 ⟨decide_eq_true hsince, rfl⟩)
  drained := nofun

theorem sound_runFrom (hs : Sound since stored s) (ms : List BacklogMove) :
    Sound since stored ((backlog codec contents cursor since stored).runFrom s ms) :=
  Machine.stable_runFrom _ (fun s m h => h.walked (step_walked codec contents s m)) hs ms

/-- What is left of the walk after so many steps of its pages. -/
theorem work_runFrom (hs : Sound since stored s) (ms : List BacklogMove) :
    ((backlog codec contents cursor since stored).runFrom s ms).work = 0 ∨
      ((backlog codec contents cursor since stored).runFrom s ms).work +
        ms.countP BacklogMove.isAdvance ≤ s.work := by
  induction ms generalizing s with
  | nil => exact .inr (Nat.le_refl _)
  | cons m ms ih =>
      have hw := step_walked codec contents s m
      have hgoing : m.isAdvance.toNat = if m.isAdvance then 1 else 0 := by
        cases m.isAdvance with
        | _ => rfl
      rcases ih (hs.walked hw) with hzero | hle
      · exact .inl hzero
      · rw [List.countP_cons, ← hgoing]
        rcases hs.work_walked hw with hzero | hstep
        · rw [hzero] at hle
          exact .inl (Nat.eq_zero_of_add_eq_zero_right (Nat.le_zero.1 hle))
        · refine .inr ?_
          change Backlog.work (Machine.runFrom _ (s.step codec contents m) ms) + _ ≤ _
          omega

theorem Sound.work_pos (h : Sound since stored s)
    (hopen : s.ended.isSome = false) (hconnected : s.connected = true) :
    0 < s.work := by
  rw [h.ended] at hopen
  have hstanding := h.standing hopen
  rw [s.work_open hopen hconnected]
  refine Nat.add_pos_right _ ?_
  cases hrequest : s.request with
  | gone =>
      rw [hrequest] at hstanding
      exact hstanding.elim
  | _ => exact Nat.succ_pos _

end Runs

/-! ## The end of the replay in the cursor -/

section Ends

variable {codec : Codec} {durable : Bool} {cursor : CursorStore} {replay : WakeReplay} {now : Nat}

theorem endReplay_iff_of_same {folded : Folded} (h : folded.call ≠ some .endReplay)
    (hreplay : folded.replay.isComplete = replay.isComplete) :
    folded.call = some .endReplay ↔
      replay.isComplete = false ∧ folded.replay.isComplete = true := by
  rw [hreplay]
  refine ⟨fun hcall => absurd hcall h, fun hboth => ?_⟩
  rw [hboth.1] at hboth
  cases hboth.2

/-- The walk of this answer is open before it and over after it, or nothing changed. -/
theorem conclude_endReplay_iff {reason : Option (List Char)}
    {answer : WakeReplay × Option ReplayStep}
    (hcomplete : ∀ truncated, answer.2 = some (.complete truncated) →
      replay.isComplete = false ∧ answer.1.isComplete = true)
    (hother : (∀ truncated, answer.2 ≠ some (.complete truncated)) →
      answer.1.isComplete = replay.isComplete) :
    (conclude durable cursor now reason answer).call = some .endReplay ↔
      replay.isComplete = false ∧
        (conclude durable cursor now reason answer).replay.isComplete = true := by
  obtain ⟨next, step⟩ := answer
  match step with
  | none => exact endReplay_iff_of_same nofun (hother nofun)
  | some (.complete truncated) =>
      exact ⟨fun _ => hcomplete truncated rfl, fun _ => rfl⟩
  | some (.backfill since upTo) => exact endReplay_iff_of_same nofun (hother nofun)

theorem onEose_complete (replay : WakeReplay) (truncated : Bool)
    (h : (replay.onEose .backfill).2 = some (.complete truncated)) :
    replay.isComplete = false ∧ (replay.onEose .backfill).1.isComplete = true := by
  unfold onEose at h ⊢
  split at h
  · cases h
  · next hopen =>
      rw [if_neg hopen]
      refine ⟨Bool.eq_false_iff.2 fun hover => hopen (.inr hover), ?_⟩
      rcases endPage_cases replay with ⟨-, heq⟩ | heq | ⟨oldest, -, -, heq⟩
      · rw [heq]
        rfl
      · rw [heq]
        rfl
      · rw [heq] at h
        cases h

theorem onEose_open (replay : WakeReplay)
    (h : ∀ truncated, (replay.onEose .backfill).2 ≠ some (.complete truncated)) :
    (replay.onEose .backfill).1.isComplete = replay.isComplete := by
  unfold onEose at h ⊢
  split
  · rfl
  · next hopen =>
      rw [if_neg hopen] at h
      have hfalse : replay.isComplete = false :=
        Bool.eq_false_iff.2 fun hover => hopen (.inr hover)
      rcases endPage_cases replay with ⟨-, heq⟩ | heq | ⟨oldest, -, -, heq⟩
      · exact absurd (congrArg some (congrArg Prod.snd heq)) (h false)
      · exact absurd (congrArg some (congrArg Prod.snd heq)) (h true)
      · rw [heq, hfalse]
        rfl

theorem onBackfillClosed_complete (replay : WakeReplay) (truncated : Bool)
    (h : replay.onBackfillClosed.2 = some (.complete truncated)) :
    replay.isComplete = false ∧ replay.onBackfillClosed.1.isComplete = true := by
  unfold onBackfillClosed at h ⊢
  cases hphase : replay.phase with
  | done =>
      rw [hphase] at h
      cases h
  | backfill upTo =>
      refine ⟨?_, rfl⟩
      rw [isComplete, hphase]
      rfl

theorem onBackfillClosed_open (replay : WakeReplay)
    (h : ∀ truncated, replay.onBackfillClosed.2 ≠ some (.complete truncated)) :
    replay.onBackfillClosed.1.isComplete = replay.isComplete := by
  unfold onBackfillClosed at h ⊢
  cases hphase : replay.phase with
  | done => rfl
  | backfill upTo =>
      rw [hphase] at h
      exact absurd rfl (h true)

/-- The replay is ended in the cursor by the frame that ends the walk, and by no other. -/
theorem step_endReplay_iff (frame : FeedFrame) :
    (step codec durable cursor replay frame now).call = some .endReplay ↔
      replay.isComplete = false ∧
        (step codec durable cursor replay frame now).replay.isComplete = true := by
  by_cases hsub : frame.subscription codec = some .backfill
  · have hid : ∀ id, frame.subscriptionId = some id →
        WakeSubscription.fromId codec id = some .backfill := by
      intro id heq
      rw [FeedFrame.subscription, heq] at hsub
      exact hsub
    cases frame with
    | other => cases hsub
    | event id event =>
        rcases classify_event (hid id rfl) (by decide) with hclass | ⟨trigger, -, hclass⟩
        · obtain ⟨hquiet, hreplay⟩ := step_unparsed hclass
          exact endReplay_iff_of_same hquiet.call (hreplay ▸ isComplete_observeRow replay _)
        · obtain ⟨hquiet, hreplay⟩ := step_trigger hclass
          exact endReplay_iff_of_same hquiet.call (hreplay ▸ isComplete_observeRow replay _)
    | rejected id eventId reason =>
        obtain ⟨hquiet, hreplay⟩ := step_rejected (classify_rejected (hid id rfl) eventId reason)
        exact endReplay_iff_of_same hquiet.call (hreplay ▸ isComplete_observeRow replay _)
    | eose id =>
        rw [step_eose (hid id rfl)]
        exact conclude_endReplay_iff (onEose_complete replay) (onEose_open replay)
    | closed id reason =>
        rcases step_closed (hid id rfl) reason with ⟨parked, strikes, hretry, hstep⟩ | hstep
        · rw [hstep]
          exact endReplay_iff_of_same (fun h => by cases h) (budget_refused hretry).2
        · rw [hstep]
          exact conclude_endReplay_iff (onBackfillClosed_complete replay)
            (onBackfillClosed_open replay)
  · obtain ⟨hquiet, hreplay⟩ := step_off hsub
    exact endReplay_iff_of_same hquiet.call (congrArg isComplete hreplay)

end Ends

/-- The walk takes at most `maxReplayPages` pages and ends, it ends the replay of the cursor
once and then, and unless it says that it was truncated it delivered every event that was stored
from the floor on. -/
theorem backlog_walk_drains (codec : Codec) (contents : Contents) (cursor : CursorStore)
    (since : Nat) (stored : List StoredRow) (ms : List BacklogMove) :
    let s := (backlog codec contents cursor since stored).run ms
    s.pages.length ≤ maxReplayPages ∧
      ((maxReplayPages + maxBackfillRateLimitRetries) * (replayPageLimit + 3) ≤
          ms.countP BacklogMove.isAdvance → s.ended.isSome = true ∨ s.connected = false) ∧
      (s.ended = some false → ∀ row ∈ stored, since ≤ row.createdAt → row ∈ s.delivered) ∧
      (s.calls.count .endReplay = if s.ended.isSome then 1 else 0) ∧
      ∀ durable frame now,
        (step codec durable s.cursor s.replay frame now).call = some .endReplay ↔
          s.replay.isComplete = false ∧
            (step codec durable s.cursor s.replay frame now).replay.isComplete = true := by
  intro s
  have hinit := sound_init codec contents cursor since stored
  have hs : Sound since stored s := sound_runFrom codec contents cursor since stored hinit ms
  refine ⟨?_, fun hmany => ?_, fun hended row hrow hsince => ?_, ?_, ?_⟩
  · rw [hs.pages]
    exact hs.budget
  · by_contra hgoing
    rw [not_or, Bool.not_eq_true, Bool.not_eq_false] at hgoing
    have hpos := hs.work_pos since stored hgoing.1 hgoing.2
    have hfirst : (backlog codec contents cursor since stored).init.work <
        (maxReplayPages + maxBackfillRateLimitRetries) * (replayPageLimit + 3) :=
      show (63 + 5) * 503 + 502 < 69 * 503 by decide
    rcases work_runFrom codec contents cursor since stored hinit ms with hzero | hle
    · exact Nat.ne_of_gt hpos hzero
    · change s.work + _ ≤ _ at hle
      omega
  · exact hs.drained hended row hrow (hs.since ▸ hsince)
  · rw [hs.calls, hs.ended]
  · exact fun durable frame now => step_endReplay_iff frame

/-! A backlog of one event, whose signature does not verify. -/

def storedMention : StoredRow := ⟨7, .ofByte 1⟩

def forgedContents : Contents := ⟨fun _ => .rejected [] [], nofun⟩

def walkOfOne : Machine Backlog BacklogMove :=
  backlog ⟨fun _ => none, fun _ => 0⟩ forgedContents ⟨⟨0, 0, 0, []⟩, ∅, ∅, some 0, 1⟩ 5
    [storedMention]

/-- The request, the row and the EOSE. -/
def threeSteps : List BacklogMove := [.advance 9 true, .advance 9 true, .advance 9 true]

theorem walkOfOne_ended : (walkOfOne.run threeSteps).ended = some false := by
  have hpage : backfillPage [storedMention] 5 none = [storedMention] := by
    unfold backfillPage pageOf
    rw [List.filter_cons_of_pos (by decide), List.filter_nil, List.mergeSort_singleton]
    rfl
  have htaken : walkOfOne.run [.advance 9 true] =
      { walkOfOne.init with request := .answering [storedMention] } := by
    show { walkOfOne.init with request := .answering (backfillPage [storedMention] 5 none) } = _
    rw [hpage]
  show (walkOfOne.runFrom (walkOfOne.run [.advance 9 true])
    [.advance 9 true, .advance 9 true]).ended = some false
  rw [htaken]
  rfl

theorem backlog_walk_drains_one :
    (walkOfOne.run threeSteps).ended = some false ∧
      storedMention ∈ (walkOfOne.run threeSteps).delivered :=
  ⟨walkOfOne_ended,
    (backlog_walk_drains _ _ _ 5 [storedMention] threeSteps).2.2.1 walkOfOne_ended storedMention
      List.mem_cons_self (by decide)⟩

end Buzz.Waker.Feed
