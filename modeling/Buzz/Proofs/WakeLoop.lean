import Buzz.Proofs.WakeFates

/-!
# The invariant of the wake loop

The cursor has a claim for every open trigger, the jobs run the attempts, and
every joined job has its fate. One step lemma for each move of the loop, and
what the invariant says of a completed claim.
-/

namespace Buzz.Waker

open Buzz.Lib CursorStore

variable {ε : Type} {cursor : CursorStore} {stranded : List StrandedTrigger} {id : String}

/-! ## The cursor's claims -/

def CursorStore.isClaimed (cursor : CursorStore) (id : String) : Bool :=
  (cursor.inFlight.lookup id).isSome

theorem isClaimed_feed (cursor : CursorStore) (call : FeedCall) :
    (cursor.feed call).isClaimed = cursor.isClaimed := by
  have hpersist : ∀ (s failed : CursorStore) (durable : Bool) (next : Cursor),
      s.inFlight = cursor.inFlight → failed.inFlight = cursor.inFlight →
      (s.persistOr durable next failed ()).store.isClaimed = cursor.isClaimed := by
    intro s failed durable next hs hfailed
    unfold persistOr isClaimed
    split
    · rw [hs]
    · rw [hfailed]
  cases call with
  | resume now => rfl
  | endReplay now durable =>
      unfold feed endReplay
      dsimp only
      split
      · rfl
      · exact hpersist _ _ durable _ rfl rfl
  | markCovered now durable =>
      unfold feed markCovered
      dsimp only
      split
      · rfl
      · exact hpersist _ _ durable _ rfl rfl

theorem isClaimed_complete_of_ne (durable : Bool) {id' : String} (hne : id' ≠ id) :
    (cursor.complete durable id).store.isClaimed id' = cursor.isClaimed id' := by
  unfold complete isClaimed
  split
  · rfl
  · unfold CursorStore.finish CursorStore.persistOr
    split
    · rw [HMap.lookup_erase_ite, if_neg hne]
    · rw [HMap.lookup_insert_ite, if_neg hne, HMap.lookup_erase_ite, if_neg hne]
  · unfold CursorStore.finish CursorStore.persistOr
    split
    · rfl
    · rfl

theorem complete_durable (h : cursor.isClaimed id = true) :
    (cursor.complete true id).result.toBool = true := by
  obtain ⟨createdAt, hid⟩ := Option.isSome_iff_exists.1 h
  unfold complete
  rw [hid]
  rfl

/-- A trigger is claimed for the first time, or nothing but the cursor's dates
changes. -/
theorem admitEvent_cases (cursor : CursorStore) (durable : Bool) (id : String)
    (createdAt now : Nat) :
    ((cursor.admitEvent durable id createdAt now).store.isClaimed = cursor.isClaimed ∧
      ((cursor.admitEvent durable id createdAt now).result = .ok .duplicate ∨
        (cursor.admitEvent durable id createdAt now).result = .error .persist)) ∨
    (cursor.isClaimed id = false ∧
      (∀ id', (cursor.admitEvent durable id createdAt now).store.isClaimed id' =
        (decide (id' = id) || cursor.isClaimed id')) ∧
      ((cursor.admitEvent durable id createdAt now).result = .ok .fresh ∨ ∃ age limit,
        (cursor.admitEvent durable id createdAt now).result =
          .ok (.freshButUndeliverable age limit))) := by
  unfold admitEvent
  split
  · exact .inl ⟨rfl, .inl rfl⟩
  · next hdup =>
      have hfree : cursor.isClaimed id = false := by
        unfold isDuplicate at hdup
        exact (Bool.or_eq_false_iff.1 (Bool.eq_false_iff.2 hdup)).1
      cases durable with
      | false =>
          refine .inl ⟨funext fun id' => ?_, .inr rfl⟩
          show (((cursor.inFlight.insert id _).erase id).lookup id').isSome = cursor.isClaimed id'
          rw [HMap.lookup_erase_ite, HMap.lookup_insert_ite]
          split
          · next heq =>
              rw [heq]
              exact hfree.symm
          · rfl
      | true =>
          refine .inr ⟨hfree, fun id' => ?_, ?_⟩
          · show ((cursor.inFlight.insert id _).lookup id').isSome = _
            rw [HMap.lookup_insert_ite]
            split
            · next heq => simp [heq]
            · next hne => simp [hne, isClaimed]
          · by_cases hage : now - (cursor.abandoned.lookup id).elim createdAt
                (fun was => min was createdAt) > wakeDeliverableAgeSecs
            · exact .inr ⟨_, _, congrArg Except.ok (if_pos hage)⟩
            · exact .inl (congrArg Except.ok (if_neg hage))

variable {w : WakeLoop ε}

/-- The same of the loop, where a claimed trigger gets its job. -/
theorem admitTrigger_cases (w : WakeLoop ε) (id author : String) (createdAt now : Nat)
    (durable : Bool) :
    (∃ cursor : CursorStore, cursor.isClaimed = w.cursor.isClaimed ∧
      w.admitTrigger id author createdAt now durable = { w with cursor := cursor }) ∨
    (w.cursor.isClaimed id = false ∧ ∃ cursor : CursorStore,
      (∀ id', cursor.isClaimed id' = (decide (id' = id) || w.cursor.isClaimed id')) ∧
      w.admitTrigger id author createdAt now durable =
        { w with
          cursor := cursor
          claims := w.claims + 1
          jobs := spawnAttempt w.jobs ⟨id, author, createdAt, w.claims⟩ false }) := by
  unfold WakeLoop.admitTrigger
  dsimp only
  rcases admitEvent_cases w.cursor durable id createdAt now with
    ⟨hsame, hr | hr⟩ | ⟨hfree, hnew, hr | ⟨age, limit, hr⟩⟩
  · rw [hr]
    exact .inl ⟨_, hsame, rfl⟩
  · rw [hr]
    exact .inl ⟨_, hsame, rfl⟩
  · rw [hr]
    exact .inr ⟨hfree, _, hnew, rfl⟩
  · rw [hr]
    exact .inr ⟨hfree, _, hnew, rfl⟩

/-! ## Held triggers -/

theorem oldestIndex_spec (hne : stranded ≠ []) :
    ∃ oldest, stranded[oldestIndex stranded]? = some oldest ∧
      ∀ h ∈ stranded, oldest.event.createdAt ≤ h.event.createdAt := by
  have hmin : ∃ m ∈ stranded, ∀ h ∈ stranded, m.event.createdAt ≤ h.event.createdAt := by
    induction stranded with
    | nil => exact absurd rfl hne
    | cons g rest ih =>
        cases rest with
        | nil => exact ⟨g, List.mem_cons_self, by simp⟩
        | cons g' rest =>
            obtain ⟨m, hm, hle⟩ := ih (by simp)
            rcases Nat.le_total g.event.createdAt m.event.createdAt with hgm | hmg
            · refine ⟨g, List.mem_cons_self, fun h hh => ?_⟩
              rcases List.mem_cons.1 hh with rfl | hh
              · exact Nat.le_refl _
              · exact Nat.le_trans hgm (hle h hh)
            · refine ⟨m, List.mem_cons_of_mem _ hm, fun h hh => ?_⟩
              rcases List.mem_cons.1 hh with rfl | hh
              · exact hmg
              · exact hle h hh
  obtain ⟨m, hm, hle⟩ := hmin
  have hlt : oldestIndex stranded < stranded.length := by
    refine List.findIdx_lt_length_of_exists ⟨m, hm, ?_⟩
    exact List.all_eq_true.2 fun h hh => decide_eq_true (hle h hh)
  refine ⟨_, List.getElem?_eq_getElem hlt, fun h hh => ?_⟩
  have hall := List.findIdx_getElem (w := hlt)
  exact of_decide_eq_true (List.all_eq_true.1 hall h hh)

theorem evictOver_of_le {r : Retention} (durable : Bool) (turns : Nat)
    (h : r.stranded.length ≤ strandedTriggerLimit) : r.evictOver durable turns = r := by
  cases turns with
  | zero => rfl
  | succ turns => exact if_neg (Nat.not_lt.2 h)

/-- What is held after a trigger was added: all of it, or all but the oldest. -/
theorem retainStranded_cases {nowMs : Nat} {durable : Bool} {event : TriggerEvent}
    (hlength : stranded.length ≤ strandedTriggerLimit)
    (hnew : ∀ h ∈ stranded, h.event.id ≠ event.id) {held : List StrandedTrigger}
    (hheld : held = stranded ++ [⟨event, nowMs + wakeStrandedRetryDelayMs⟩]) :
    (held.length ≤ strandedTriggerLimit ∧
      retainStranded stranded cursor nowMs durable event =
        { stranded := held, cursor := cursor }) ∨
    (strandedTriggerLimit < held.length ∧ ∃ oldest, held[oldestIndex held]? = some oldest ∧
      (∀ h ∈ held, oldest.event.createdAt ≤ h.event.createdAt) ∧
      retainStranded stranded cursor nowMs durable event =
        { stranded := held.eraseIdx (oldestIndex held)
          cursor := (cursor.complete durable oldest.event.id).store
          evicted := [⟨oldest, held,
            (cursor.complete durable oldest.event.id).result.toBool⟩] }) := by
  have hstart : retainStranded stranded cursor nowMs durable event =
      Retention.evictOver durable held.length { stranded := held, cursor := cursor } := by
    unfold retainStranded
    rw [if_neg]
    · rw [hheld]
    · intro hany
      obtain ⟨h, hmem, heq⟩ := List.any_eq_true.1 hany
      exact hnew h hmem (beq_iff_eq.1 heq)
  have hcount : held.length = stranded.length + 1 := by
    rw [hheld, List.length_append, List.length_singleton]
  rw [hstart]
  rcases Nat.lt_or_ge strandedTriggerLimit held.length with hfull | hroom
  · refine .inr ⟨hfull, ?_⟩
    have hne : held ≠ [] := List.ne_nil_of_length_pos (by omega)
    obtain ⟨oldest, hget, hle⟩ := oldestIndex_spec hne
    refine ⟨oldest, hget, hle, ?_⟩
    have hevict : Retention.evictOldest { stranded := held, cursor := cursor } durable =
        { stranded := held.eraseIdx (oldestIndex held)
          cursor := (cursor.complete durable oldest.event.id).store
          evicted := [⟨oldest, held,
            (cursor.complete durable oldest.event.id).result.toBool⟩] } := by
      unfold Retention.evictOldest
      rw [hget]
      rfl
    rw [hcount]
    unfold Retention.evictOver
    rw [if_pos hfull, hevict]
    refine evictOver_of_le durable _ ?_
    rw [List.length_eraseIdx_of_lt (List.getElem?_eq_some_iff.1 hget).1, hcount]
    exact hlength
  · exact .inl ⟨hroom, evictOver_of_le durable _ hroom⟩

/-! ## The invariant -/

/-- The loop's invariant. Where `written` holds every completion was written,
and only then is a settled trigger completed or abandoned. -/
structure Coherent (written : Prop) (w : WakeLoop ε) : Prop where
  linked : Linked w.wakes w.jobs
  tracked : Tracked w.jobs w.stranded w.claims w.cursor.isClaimed
    fun x => written → x ∈ w.completed ∨ x ∈ w.abandoned
  fated : Fated w.jobs w.stranded w.evicted w.completed
  bounded : w.stranded.length ≤ strandedTriggerLimit

variable {written : Prop} {j : Nat}

theorem coherent_init (ε : Type) (now : Nat) (state : Cursor) (capacity : Nat) :
    Coherent written (wakeLoop ε now state capacity).init := by
  have hjob : ∀ {k : Nat} {job : Job}, ([] : List Job)[k]? = some job → False := by
    intro k job h
    cases h
  have hnone : ∀ e, ¬Open [] [] e := by
    rintro e (⟨k, job, hget, -⟩ | ⟨held, hmem, -⟩)
    · exact hjob hget
    · cases hmem
  have hlinked : Linked ({ now := now } : Wakes ε) [] :=
    { paced := paced_run now []
      quiet := nofun
      attempt := fun _ _ _ h => (hjob h).elim
      attempted := fun _ _ h => by cases h
      collapse := fun _ _ _ h => (hjob h).elim
      refused := fun _ _ _ h => (hjob h).elim
      reported := fun _ _ _ h => (hjob h).elim }
  have htracked : ∀ {claimed : String → Bool} {settled : Nat → Prop},
      Tracked [] [] 0 claimed settled :=
    ⟨⟨fun _ _ h => (hjob h).elim, fun _ _ _ _ h => (hjob h).elim, fun _ _ h => (hjob h).elim⟩,
      ⟨nofun, nofun, List.nodup_nil⟩, fun e he => absurd he (hnone e),
      fun e _ he => absurd he (hnone e), fun x hx => absurd hx (Nat.not_lt_zero x)⟩
  have hfated : Fated [] [] [] [] := ⟨fun _ _ _ h => (hjob h).elim, nofun, nofun⟩
  exact ⟨hlinked, htracked, hfated, Nat.zero_le _⟩

section

variable (h : Coherent written w)
include h

theorem Coherent.wakes {v : Wakes ε} (hv : Linked v w.jobs) :
    Coherent written { w with wakes := v } :=
  ⟨hv, h.tracked, h.fated, h.bounded⟩

theorem Coherent.sameClaims (hsame : cursor.isClaimed = w.cursor.isClaimed) :
    Coherent written { w with cursor := cursor } := by
  refine ⟨h.linked, ?_, h.fated, h.bounded⟩
  rw [hsame]
  exact h.tracked

theorem Coherent.tick (ms : Nat) :
    Coherent written { w with wakes := w.wakes.step (.tick ms) } :=
  h.wakes (h.linked.wakes (h.linked.paced.tick ms) h.linked.quiet (.refl w.wakes) rfl)

theorem Coherent.reply (answer : WakeReply ε)
    (beats : List (Option HeartbeatObservation)) :
    Coherent written (w.reply j answer beats) := by
  unfold WakeLoop.reply
  split
  · exact h
  · next i _ =>
      obtain ⟨hlength, hquiet, hgrows⟩ :=
        h.linked.paced.reply_spec h.linked.quiet i answer beats
      exact h.wakes (h.linked.wakes (h.linked.paced.reply i answer { beats := beats }) hquiet
        hgrows hlength)

/-- The job that has the claim has not been joined. -/
theorem Coherent.holder_unjoined {o : Nat} {owner : Job}
    (ho : holder w.wakes w.jobs = some o) (howner : w.jobs[o]? = some owner) :
    owner.joined = none := by
  obtain ⟨x, i, a, hx, hi, ha, hholds⟩ := holder_eq_some ho
  obtain rfl : owner = x := Option.some.inj (howner.symm.trans hx)
  cases hjoined : owner.joined with
  | none => rfl
  | some report =>
      obtain ⟨i', a', r, hi', ha', hr, -⟩ :=
        report_eq_some.1 (h.linked.reported o owner report howner hjoined)
      obtain rfl : i = i' := Option.some.inj (hi.symm.trans hi')
      obtain rfl : a = a' := Option.some.inj (ha.symm.trans ha')
      have hover := (h.linked.paced.truthful a (List.mem_of_getElem? ha)).isOver_eq
      rw [isOver_of_done hr, hholds] at hover
      cases hover

theorem Coherent.poll (beats : List (Option HeartbeatObservation)) :
    Coherent written (w.poll j beats) := by
  unfold WakeLoop.poll
  split
  · exact h
  · next job hget =>
      split
      · exact h
      · next hsome =>
          have hnew : job.attempt = none := Option.not_isSome_iff_eq_none.1 hsome
          exact ⟨h.linked.poll hget hnew beats, h.tracked.poll hget _ _,
            h.fated.poll hget hnew _ fun o owner ho howner => h.holder_unjoined ho howner,
            h.bounded⟩

/-- A claim no job has yet was never evicted. -/
theorem Coherent.not_evicted : ¬Evicted w.evicted w.claims := by
  rintro ⟨e, he, hclaim⟩
  obtain ⟨k, job, hget, hsame⟩ := (h.fated.gone e he).known
  have hlt := h.tracked.lt k job hget
  omega

theorem Coherent.admitTrigger (id author : String) (createdAt now : Nat)
    (durable : Bool) :
    Coherent written (w.admitTrigger id author createdAt now durable) := by
  rcases admitTrigger_cases w id author createdAt now durable with
    ⟨cursor, hsame, heq⟩ | ⟨hfree, cursor, hclaimed, heq⟩
  · rw [heq]
    exact h.sameClaims hsame
  · rw [heq]
    refine ⟨h.linked.spawn _ _, ?_, ?_, h.bounded⟩
    · refine h.tracked.spawn rfl hfree ?_ fun id' hid' => ?_
      · exact (hclaimed id).trans (by simp)
      · exact (hclaimed id').trans (by rw [hid', Bool.or_true])
    · exact h.fated.spawn false h.not_evicted (fun _ hg => hg) fun _ hx => .inl hx

omit h in
/-- The timer fires: nothing is due, or a held trigger gets its re-drive. -/
theorem redrive_cases (w : WakeLoop ε) :
    (w.redrive = w ∧ ∀ h ∈ w.stranded, w.wakes.now < h.dueAtMs) ∨
    ∃ index held, w.stranded[index]? = some held ∧ held.dueAtMs ≤ w.wakes.now ∧
      (∀ i < index, ∀ h, w.stranded[i]? = some h → w.wakes.now < h.dueAtMs) ∧
      w.redrive =
        { w with
          stranded := w.stranded.eraseIdx index
          jobs := spawnAttempt w.jobs held.event true } := by
  unfold WakeLoop.redrive
  split
  · next hnone =>
      refine .inl ⟨rfl, fun h hh => ?_⟩
      have hlate := List.findIdx?_eq_none_iff.1 hnone h hh
      exact Nat.lt_of_not_le (of_decide_eq_false hlate)
  · next index hfound =>
      obtain ⟨hlt, hdue, hbefore⟩ := List.findIdx?_eq_some_iff_getElem.1 hfound
      refine .inr ⟨index, w.stranded[index], List.getElem?_eq_getElem hlt,
        of_decide_eq_true hdue, fun i hi h hh => ?_, ?_⟩
      · obtain ⟨hilt, rfl⟩ := List.getElem?_eq_some_iff.1 hh
        exact Nat.lt_of_not_le fun hle => hbefore i hi (decide_eq_true hle)
      · rw [List.getElem?_eq_getElem hlt]

theorem Coherent.redrive : Coherent written w.redrive := by
  rcases redrive_cases w with ⟨heq, -⟩ | ⟨index, held, hget, -, -, heq⟩
  · rw [heq]
    exact h
  · rw [heq]
    refine ⟨h.linked.spawn _ _, h.tracked.redrive hget, ?_, ?_⟩
    · refine h.fated.spawn true ?_ (fun g => List.mem_of_mem_eraseIdx) fun x hx => ?_
      · rintro ⟨e, he, hclaim⟩
        exact (h.fated.gone e he).unheld ⟨held, List.mem_of_getElem? hget, hclaim.symm⟩
      · obtain ⟨g, hg, rfl⟩ := hx
        rcases mem_eraseIdx_or_eq hget hg with hg | rfl
        · exact .inl ⟨g, hg, rfl⟩
        · exact .inr ⟨rfl, rfl⟩
    · exact Nat.le_trans (List.length_eraseIdx_le ..) h.bounded

end

/-! ## A report arrives -/

variable {job : Job} {report : AttemptReport}

/-- A report of an uncancelled loop settles its claim or leaves its trigger to
be held; or there is none. -/
theorem join_cases (hlinked : Linked w.wakes w.jobs) (j : Nat) (durable : Bool) :
    w.join j durable = w ∨
    ∃ job report, w.jobs[j]? = some job ∧ job.joined = none ∧
      job.report w.wakes = some report ∧ report.event = job.event ∧
      report.retried = job.retried ∧ report.outcome ≠ .cancelled ∧
      (((leavesMentionUnacted report && !report.retried) = true ∧
        w.join j durable = WakeLoop.retain
          { w with jobs := w.jobs.set j { job with joined := some report } } job.event durable) ∨
      ((leavesMentionUnacted report && !report.retried) = false ∧
        w.join j durable =
          { w with
            jobs := w.jobs.set j { job with joined := some report }
            cursor := (w.cursor.complete durable job.event.id).store
            completed := w.completed ++
              if (w.cursor.complete durable job.event.id).result.toBool then [job.event.claim]
              else [] })) := by
  unfold WakeLoop.join
  split
  · exact .inl rfl
  · next job hget =>
      split
      · exact .inl rfl
      · next hjoined =>
          split
          · exact .inl rfl
          · next report hreport =>
              have hspec : report.event = job.event ∧ report.retried = job.retried ∧
                  report.outcome ≠ .cancelled := by
                obtain ⟨i, a, r, hi, ha, hr, rfl⟩ := report_eq_some.1 hreport
                exact ⟨rfl, rfl, (hlinked.quiet a (List.mem_of_getElem? ha)).2 r hr⟩
              obtain ⟨hevent, hkind, hout⟩ := hspec
              refine .inr ⟨job, report, hget, Option.not_isSome_iff_eq_none.1 hjoined, hreport,
                hevent, hkind, hout, ?_⟩
              unfold applyReport
              rw [if_neg hout]
              cases hleaves : leavesMentionUnacted report && !report.retried with
              | true =>
                  rw [if_pos rfl, hevent]
                  exact .inl ⟨rfl, rfl⟩
              | false =>
                  rw [if_neg Bool.false_ne_true]
                  refine .inr ⟨rfl, ?_⟩
                  dsimp only
                  unfold WakeLoop.recordSettled
                  rw [if_neg hout, hevent]
                  split
                  · rfl
                  · rw [List.append_nil]

/-- A first attempt that is not left unacted decided, or counts on its owner. -/
theorem fate_of_settled (hsettles : (leavesMentionUnacted report && !report.retried) = false)
    (hfirst : report.retried = false) (hout : report.outcome ≠ .cancelled) :
    report.outcome.isDecision = true ∨
      report.outcome = .inFlight ∧ inFlightOwnerCovers report = true := by
  rw [hfirst, Bool.not_false, Bool.and_true] at hsettles
  unfold leavesMentionUnacted at hsettles
  cases hoc : report.outcome with
  | woken => exact .inl rfl
  | alreadyLive => exact .inl rfl
  | authorRejected => exact .inl rfl
  | authorUnverified => exact .inl rfl
  | inFlight =>
      rw [hoc] at hsettles
      exact .inr ⟨rfl, (Bool.not_eq_false' _).mp hsettles⟩
  | cancelled => exact absurd hoc hout
  | debounced => simp [hoc] at hsettles
  | presenceUnavailable => simp [hoc] at hsettles
  | deployFailed => simp [hoc] at hsettles
  | wakeUnconfirmed => simp [hoc] at hsettles

section

variable (h : Coherent written w)
include h

theorem Coherent.settle (hget : w.jobs[j]? = some job)
    (hjoined : job.joined = none) (hreport : job.report w.wakes = some report)
    (hkind : report.retried = job.retried) (hout : report.outcome ≠ .cancelled)
    (hsettles : (leavesMentionUnacted report && !report.retried) = false)
    {durable : Bool} (hdurable : written → durable = true) :
    Coherent written
      { w with
        jobs := w.jobs.set j { job with joined := some report }
        cursor := (w.cursor.complete durable job.event.id).store
        completed := w.completed ++
          if (w.cursor.complete durable job.event.id).result.toBool then [job.event.claim]
          else [] } := by
  have hopen : Open w.jobs w.stranded job.event := .inl ⟨j, job, hget, hjoined, rfl⟩
  have hself : (w.jobs.set j { job with joined := some report })[j]? =
      some { job with joined := some report } :=
    List.getElem?_set_self (List.getElem?_eq_some_iff.1 hget).1
  refine ⟨h.linked.join hget hreport, ?_, ?_, h.bounded⟩
  · refine h.tracked.settle hget hjoined (fun id hne => isClaimed_complete_of_ne durable hne)
      (fun x hx hw => (hx hw).imp_left fun hx => List.mem_append_left _ hx) fun hw => .inl ?_
    rw [hdurable hw, complete_durable (h.tracked.claim job.event hopen), if_pos rfl]
    exact List.mem_append_right _ List.mem_cons_self
  · refine h.fated.join hget hjoined (fun _ => id) (fun _ hg => .inl hg) (fun hfirst => ?_)
      fun x hx => ?_
    · rcases fate_of_settled hsettles (hkind.trans hfirst) hout with hdecided | ⟨hin, hcovers⟩
      · exact .decided hdecided
      · exact .collapsed hin hcovers
    · rcases List.mem_append.1 hx with hx | hx
      · exact .inl hx
      · right
        split at hx
        · obtain rfl := List.mem_singleton.1 hx
          rcases Bool.eq_false_or_eq_true job.retried with hr | hr
          · exact .redriven j _ hself rfl hr rfl
          · rcases fate_of_settled hsettles (hkind.trans hr) hout with hdecided | ⟨hin, hcovers⟩
            · exact .decided j _ report hself rfl rfl hdecided
            · exact .collapsed j _ report hself rfl hr rfl hin hcovers
        · cases hx

/-- The move evicts no trigger that a follower counts on. -/
def WakeLoop.spares (w : WakeLoop ε) : LoopMove ε → Bool
  | .join j _ =>
      w.jobs[j]?.all fun job => job.joined.isSome || (job.report w.wakes).all fun report =>
        !(leavesMentionUnacted report && !report.retried) ||
          let held := w.stranded ++ [⟨job.event, w.wakes.now + wakeStrandedRetryDelayMs⟩]
          decide (held.length ≤ strandedTriggerLimit) ||
            held[oldestIndex held]?.all fun oldest => !isFollowed w.jobs oldest.event.claim
  | _ => true

/-- The cursor file can be written when the move completes a claim. -/
def LoopMove.writes : LoopMove ε → Bool
  | .join _ durable => durable
  | _ => true

/-- A trigger whose first attempt was joined is held, with all that were, or the
oldest of them is evicted. -/
theorem Coherent.retain_cases (hget : w.jobs[j]? = some job)
    (hjoined : job.joined = none) (jobs : List Job) (durable : Bool)
    {held : List StrandedTrigger}
    (hheld : held = w.stranded ++ [⟨job.event, w.wakes.now + wakeStrandedRetryDelayMs⟩]) :
    (held.length ≤ strandedTriggerLimit ∧
      WakeLoop.retain { w with jobs := jobs } job.event durable =
        { w with jobs := jobs, stranded := held }) ∨
    (strandedTriggerLimit < held.length ∧ ∃ oldest, held[oldestIndex held]? = some oldest ∧
      (∀ h ∈ held, oldest.event.createdAt ≤ h.event.createdAt) ∧
      WakeLoop.retain { w with jobs := jobs } job.event durable =
        { w with
          jobs := jobs
          stranded := held.eraseIdx (oldestIndex held)
          cursor := (w.cursor.complete durable oldest.event.id).store
          evicted := w.evicted ++
            [⟨oldest, held, (w.cursor.complete durable oldest.event.id).result.toBool⟩]
          completed := w.completed ++
            if (w.cursor.complete durable oldest.event.id).result.toBool then
              [oldest.event.claim]
            else [] }) := by
  have hnew : ∀ g ∈ w.stranded, g.event.id ≠ job.event.id := by
    intro g hg hid
    have hclaim := h.tracked.ids g.event job.event (.inr ⟨g, hg, rfl⟩)
      (.inl ⟨j, job, hget, hjoined, rfl⟩) hid
    have hdone := h.tracked.not_unjoined h.tracked.toSpawned hg hget hclaim.symm
    rw [hjoined] at hdone
    cases hdone
  have hkept := @retainStranded_cases w.cursor w.stranded w.wakes.now durable job.event h.bounded
    hnew held hheld
  unfold WakeLoop.retain
  rcases hkept with ⟨hroom, heq⟩ | ⟨hfull, oldest, hold, hle, heq⟩
  · rw [heq]
    dsimp only
    rw [List.append_nil, List.filter_nil, List.map_nil, List.append_nil]
    exact .inl ⟨hroom, rfl⟩
  · rw [heq]
    refine .inr ⟨hfull, oldest, hold, hle, ?_⟩
    cases hdone : (w.cursor.complete durable oldest.event.id).result.toBool with
    | true => rfl
    | false => rfl

theorem Coherent.strand (hget : w.jobs[j]? = some job)
    (hjoined : job.joined = none) (hreport : job.report w.wakes = some report)
    (hfirst : job.retried = false) {durable : Bool}
    (hdurable : written → durable = true) {held : List StrandedTrigger}
    (hheld : held = w.stranded ++ [⟨job.event, w.wakes.now + wakeStrandedRetryDelayMs⟩])
    (hspares : strandedTriggerLimit < held.length → ∀ oldest,
      held[oldestIndex held]? = some oldest → isFollowed w.jobs oldest.event.claim = false) :
    Coherent written (WakeLoop.retain
      { w with jobs := w.jobs.set j { job with joined := some report } } job.event durable) := by
  have hlinked := h.linked.join hget hreport
  have htracked : Tracked (w.jobs.set j { job with joined := some report }) held w.claims
      w.cursor.isClaimed fun x => written → x ∈ w.completed ∨ x ∈ w.abandoned :=
    hheld ▸ h.tracked.strand hget hjoined hfirst _
  have hfated : Fated (w.jobs.set j { job with joined := some report }) held w.evicted
      w.completed := by
    refine h.fated.join hget hjoined (fun g hg => ?_) (fun g hg => ?_) (fun _ => .held ?_)
      fun _ hx => .inl hx
    · exact hheld ▸ List.mem_append_left _ hg
    · exact (List.mem_append.1 (hheld ▸ hg)).imp_right fun hg => by
        rw [List.mem_singleton.1 hg]
    · exact ⟨_, hheld ▸ List.mem_append_right _ List.mem_cons_self, rfl⟩
  rcases h.retain_cases hget hjoined (w.jobs.set j { job with joined := some report }) durable hheld
    with ⟨hroom, heq⟩ | ⟨hfull, oldest, hold, hle, heq⟩
  · rw [heq]
    exact ⟨hlinked, htracked, hfated, hroom⟩
  · rw [heq]
    have hmem := List.mem_of_getElem? hold
    refine ⟨hlinked, ?_, ?_, ?_⟩
    · refine htracked.evict hold (fun id hne => isClaimed_complete_of_ne durable hne)
        (fun x hx hw => (hx hw).imp_left fun hx => List.mem_append_left _ hx) fun hw => .inl ?_
      have hclaimed := htracked.claim oldest.event (.inr ⟨oldest, hmem, rfl⟩)
      rw [hdurable hw, complete_durable hclaimed, if_pos rfl]
      exact List.mem_append_right _ List.mem_cons_self
    · refine hfated.evict hold ⟨hmem, hfull, hle, ?_, ?_, ?_, ?_⟩ fun x hx => ?_
      · obtain ⟨k, first, hk, hevent, -⟩ := htracked.joined oldest hmem
        exact ⟨k, first, hk, by rw [hevent]⟩
      · intro k x hx hclaim
        exact htracked.not_unjoined htracked.toSpawned hmem hx hclaim
      · rintro ⟨g, hg, hclaim⟩
        exact (htracked.claim_ne_of_mem_eraseIdx hold hg).2 hclaim
      · cases hfollowed : isFollowed (w.jobs.set j { job with joined := some report })
            oldest.event.claim with
        | false => rfl
        | true =>
            have hbefore := isFollowed_join hget hfollowed
            rw [hspares hfull oldest hold] at hbefore
            cases hbefore
      · rcases List.mem_append.1 hx with hx | hx
        · exact .inl hx
        · split at hx
          · exact .inr (List.mem_singleton.1 hx)
          · cases hx
    · rw [List.length_eraseIdx_of_lt (List.getElem?_eq_some_iff.1 hold).1, hheld,
        List.length_append]
      exact h.bounded

theorem Coherent.join (durable : Bool)
    (hspares : w.spares (.join j durable) = true)
    (hdurable : written → durable = true) :
    Coherent written (w.join j durable) := by
  rcases join_cases h.linked j durable with
    heq | ⟨job, report, hget, hjoined, hreport, -, hkind, hout, ⟨hleaves, heq⟩ | ⟨hsettles, heq⟩⟩
  · rw [heq]
    exact h
  · rw [heq]
    have hfirst : job.retried = false := by
      rw [← hkind]
      exact (Bool.not_eq_true' _).mp (Bool.and_eq_true_iff.1 hleaves).2
    refine h.strand hget hjoined hreport hfirst hdurable rfl fun hfull oldest hold => ?_
    dsimp only [WakeLoop.spares] at hspares
    rw [hget, Option.all_some, hjoined, hreport, Option.all_some, hleaves, hold,
      decide_eq_false (Nat.not_le.2 hfull), Option.all_some] at hspares
    exact (Bool.not_eq_true' _).mp hspares
  · rw [heq]
    exact h.settle hget hjoined hreport hkind hout hsettles hdurable

theorem Coherent.step (move : LoopMove ε) (hspares : w.spares move = true)
    (hwrites : written → move.writes = true) :
    Coherent written (w.step move) := by
  cases move with
  | tick ms => exact h.tick ms
  | feed call => exact h.sameClaims (isClaimed_feed w.cursor call)
  | admitTrigger id author createdAt now durable =>
      exact h.admitTrigger id author createdAt now durable
  | poll j beats => exact h.poll beats
  | reply j answer beats => exact h.reply answer beats
  | join j durable => exact h.join durable hspares hwrites
  | redrive => exact h.redrive

/-! ## What a completed claim rests on -/

/-- The owner decided, or was re-driven. -/
def Answered (jobs : List Job) (owner : Job) : Prop :=
  (∃ report, owner.joined = some report ∧ report.outcome.isDecision = true) ∨
    Redriven jobs owner.event.claim

/-- The owner is not back yet, or waits for its re-drive. -/
def Pending (stranded : List StrandedTrigger) (owner : Job) : Prop :=
  owner.joined = none ∨ Kept stranded owner.event.claim

inductive Reason (w : WakeLoop ε) (x : Nat) : Prop where
  | decided (k : Nat) (job : Job) (report : AttemptReport) (hget : w.jobs[k]? = some job)
      (hclaim : job.event.claim = x) (hjoined : job.joined = some report)
      (h : report.outcome.isDecision = true)
  | redriven (k : Nat) (job : Job) (hget : w.jobs[k]? = some job) (hclaim : job.event.claim = x)
      (hretried : job.retried = true) (hjoined : job.joined.isSome = true)
  | evicted (e : Eviction) (he : e ∈ w.evicted) (hclaim : e.trigger.event.claim = x)
      (hmem : e.trigger ∈ e.held) (hcrowded : strandedTriggerLimit < e.held.length)
      (holdest : ∀ h ∈ e.held, e.trigger.event.createdAt ≤ h.event.createdAt)
  | collapsed (k : Nat) (job : Job) (report : AttemptReport) (o : Nat) (owner : Job)
      (hget : w.jobs[k]? = some job) (hclaim : job.event.claim = x)
      (hjoined : job.joined = some report) (hreport : report.outcome = .inFlight)
      (hbehind : job.behind = some o) (howner : w.jobs[o]? = some owner)
      (hcovers : owner.covers job = true)
      (h : Answered w.jobs owner ∨ Pending w.stranded owner)

/-- A trigger is completed for a reason, and has at most two attempts. -/
structure LoopHolds (w : WakeLoop ε) : Prop where
  reason : ∀ x ∈ w.completed, Reason w x
  /-- No trigger has three attempts. -/
  twice : ∀ (i j k : Nat) (a b c : Job), w.jobs[i]? = some a → w.jobs[j]? = some b →
    w.jobs[k]? = some c → a.event.claim = b.event.claim → b.event.claim = c.event.claim →
    i = j ∨ j = k ∨ i = k

omit h in
/-- A job that refused another by its claim does not report a refusal. -/
theorem Linked.owner_outcome {v : Wakes ε} {jobs : List Job} (h : Linked v jobs) {k o : Nat}
    {owner : Job} (hget : jobs[k]? = some job) (hbehind : job.behind = some o)
    (howner : jobs[o]? = some owner) (hjoined : owner.joined = some report) :
    report.outcome ≠ .inFlight := by
  obtain ⟨x, i, a, hx, hi, ha, hacted⟩ := h.collapse k job o hget hbehind
  obtain rfl : owner = x := Option.some.inj (howner.symm.trans hx)
  obtain ⟨i', a', r, hi', ha', hr, rfl⟩ :=
    report_eq_some.1 (h.reported o owner report howner hjoined)
  obtain rfl : i = i' := Option.some.inj (hi.symm.trans hi')
  obtain rfl : a = a' := Option.some.inj (ha.symm.trans ha')
  rcases hacted with hholds | ⟨r', hr', hne⟩
  · have hover := (h.paced.truthful a (List.mem_of_getElem? ha)).isOver_eq
    rw [isOver_of_done hr, hholds] at hover
    cases hover
  · obtain rfl : r' = r := Async.done.inj (hr'.symm.trans hr)
    exact hne

/-- An owner that is followed is not lost. -/
theorem Coherent.answered_or_pending {k o : Nat} {owner : Job}
    (hget : w.jobs[k]? = some job) (hfirst : job.retried = false)
    (hbehind : job.behind = some o) (howner : w.jobs[o]? = some owner)
    (hcovers : owner.covers job = true) :
    Answered w.jobs owner ∨ Pending w.stranded owner := by
  have hkind : owner.retried = false := by
    unfold Job.covers at hcovers
    rw [Bool.and_assoc] at hcovers
    exact (Bool.not_eq_true' _).mp (Bool.and_eq_true_iff.1 hcovers).1
  cases hjoined : owner.joined with
  | none => exact .inr (.inl hjoined)
  | some rep =>
      cases h.fated.fate o owner rep howner hkind hjoined with
      | decided hdecided => exact .inl (.inl ⟨rep, hjoined, hdecided⟩)
      | collapsed hin _ =>
          exact absurd hin (h.linked.owner_outcome hget hbehind howner hjoined)
      | held hheld => exact .inr (.inr hheld)
      | redriven hredriven => exact .inl (.inr hredriven)
      | evicted hevicted =>
          obtain ⟨e, he, hclaim⟩ := hevicted
          have hfollowed : isFollowed w.jobs e.trigger.event.claim = true :=
            isFollowed_eq_true.2
              ⟨k, job, o, owner, hget, hfirst, hbehind, howner, hclaim.symm, hcovers⟩
          rw [(h.fated.gone e he).unfollowed] at hfollowed
          cases hfollowed

omit h in
/-- The owner of a collapsed job. -/
theorem Linked.covering_owner {v : Wakes ε} {jobs : List Job} (h : Linked v jobs) {k : Nat}
    (hget : jobs[k]? = some job) (hjoined : job.joined = some report)
    (hin : report.outcome = .inFlight) (hcovers : inFlightOwnerCovers report = true) :
    ∃ o owner, job.behind = some o ∧ jobs[o]? = some owner ∧ owner.covers job = true := by
  have hreport := h.reported k job report hget hjoined
  obtain ⟨o, owner, hbehind, howner, hnamed⟩ := h.refused k job report hget hreport hin
  have hevent : report.event = job.event := by
    obtain ⟨i, a, r, -, -, -, rfl⟩ := report_eq_some.1 hreport
    rfl
  exact ⟨o, owner, hbehind, howner, (inFlightOwnerCovers_eq hevent hnamed).symm.trans hcovers⟩

theorem Coherent.reason {x : Nat} (hx : x ∈ w.completed) :
    Reason w x := by
  cases h.fated.cause x hx with
  | decided k job report hget hclaim hjoined hdecided =>
      exact .decided k job report hget hclaim hjoined hdecided
  | collapsed k job report hget hclaim hfirst hjoined hin hcovers =>
      obtain ⟨o, owner, hbehind, howner, hcovers⟩ :=
        h.linked.covering_owner hget hjoined hin hcovers
      exact .collapsed k job report o owner hget hclaim hjoined hin hbehind howner hcovers
        (h.answered_or_pending hget hfirst hbehind howner hcovers)
  | redriven k job hget hclaim hretried hjoined =>
      exact .redriven k job hget hclaim hretried hjoined
  | evicted hevicted =>
      obtain ⟨e, he, hclaim⟩ := hevicted
      have hgone := h.fated.gone e he
      exact .evicted e he hclaim hgone.mem hgone.crowded hgone.oldest

theorem Coherent.holds : LoopHolds w where
  reason _ hx := h.reason hx
  twice i j k a b c ha hb hc hab hbc := by
    have hij := (h.tracked.once i j a b ha hb hab).2
    have hjk := (h.tracked.once j k b c hb hc hbc).2
    have hik := (h.tracked.once i k a c ha hc (hab.trans hbc)).2
    rcases Bool.eq_or_eq_not a.retried b.retried with hr | hr
    · exact .inl (hij hr)
    · rcases Bool.eq_or_eq_not b.retried c.retried with hr' | hr'
      · exact .inr (.inl (hjk hr'))
      · exact .inr (.inr (hik (by rw [hr, hr', Bool.not_not])))

end

end Buzz.Waker
