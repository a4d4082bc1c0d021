import Buzz.Waker.Loop

/-!
# No trigger is lost track of

A trigger is open while a job for it has not been joined or it is held for its
re-drive. An open trigger has its claim in the cursor, so its id is its own; it
has one first job and, once that is joined, at most one re-drive. What is not
open has been settled.
-/

namespace Buzz.Waker

open Buzz.Lib

variable {jobs jobs' : List Job} {stranded stranded' : List StrandedTrigger} {claims : Nat}
  {claimed claimed' : String → Bool} {settled settled' : Nat → Prop} {job : Job} {j : Nat}
  {report : AttemptReport} {e : TriggerEvent} {held : StrandedTrigger}
  {event : TriggerEvent} {retried : Bool} {k : Nat}

/-! ## The invariant -/

/-- At most one job of either kind for a trigger, the re-drive after the first
is joined. -/
structure Spawned (jobs : List Job) (claims : Nat) : Prop where
  lt : ∀ (j : Nat) (job : Job), jobs[j]? = some job → job.event.claim < claims
  once : ∀ (j k : Nat) (job other : Job), jobs[j]? = some job → jobs[k]? = some other →
    job.event.claim = other.event.claim →
    job.event = other.event ∧ (job.retried = other.retried → j = k)
  first : ∀ (j : Nat) (job : Job), jobs[j]? = some job → job.retried = true →
    ∃ (k : Nat) (first : Job), jobs[k]? = some first ∧
      first.event.claim = job.event.claim ∧ first.retried = false ∧ first.joined.isSome = true

/-- What is held has had its first job, and no re-drive. -/
structure Waiting (jobs : List Job) (stranded : List StrandedTrigger) : Prop where
  joined : ∀ h ∈ stranded, ∃ (k : Nat) (first : Job), jobs[k]? = some first ∧
    first.event = h.event ∧ first.joined.isSome = true
  unretried : ∀ h ∈ stranded, ∀ (j : Nat) (job : Job), jobs[j]? = some job →
    job.event.claim = h.event.claim → job.retried = false
  nodup : (stranded.map (·.event.claim)).Nodup

def Open (jobs : List Job) (stranded : List StrandedTrigger) (e : TriggerEvent) : Prop :=
  (∃ (j : Nat) (job : Job), jobs[j]? = some job ∧ job.joined = none ∧ job.event = e) ∨
    ∃ held ∈ stranded, held.event = e

structure Tracked (jobs : List Job) (stranded : List StrandedTrigger) (claims : Nat)
    (claimed : String → Bool) (settled : Nat → Prop) : Prop
    extends Spawned jobs claims, Waiting jobs stranded where
  claim : ∀ e, Open jobs stranded e → claimed e.id = true
  ids : ∀ e e', Open jobs stranded e → Open jobs stranded e' → e.id = e'.id →
    e.claim = e'.claim
  tracked : ∀ x < claims, settled x ∨ ∃ e, Open jobs stranded e ∧ e.claim = x

/-- A move that opens no trigger. -/
theorem Tracked.update (h : Tracked jobs stranded claims claimed settled)
    (hspawned : Spawned jobs' claims) (hwaiting : Waiting jobs' stranded')
    (hopen : ∀ e, Open jobs' stranded' e → Open jobs stranded e ∧ claimed' e.id = claimed e.id)
    (hclosed : ∀ e, Open jobs stranded e → Open jobs' stranded' e ∨ settled' e.claim)
    (hsettled : ∀ x, settled x → settled' x) :
    Tracked jobs' stranded' claims claimed' settled' where
  toSpawned := hspawned
  toWaiting := hwaiting
  claim e he := (hopen e he).2.trans (h.claim e (hopen e he).1)
  ids e e' he he' := h.ids e e' (hopen e he).1 (hopen e' he').1
  tracked x hx := by
    rcases h.tracked x hx with hdone | ⟨e, he, rfl⟩
    · exact .inl (hsettled x hdone)
    · rcases hclosed e he with hstill | hdone
      · exact .inr ⟨e, hstill, rfl⟩
      · exact .inl hdone

/-! ## Unjoined jobs -/

/-- An unjoined job is the only one of its trigger. -/
theorem Spawned.unjoined (h : Spawned jobs claims) (hget : jobs[j]? = some job)
    (hjoined : job.joined = none) (k : Nat) (other : Job) (hk : jobs[k]? = some other)
    (hother : other.joined = none) (hclaim : other.event.claim = job.event.claim) : k = j := by
  -- Of two jobs the first has been joined, so two unjoined ones are of a kind.
  have hkind : ∀ {i l : Nat} {x y : Job}, jobs[i]? = some x → jobs[l]? = some y →
      x.event.claim = y.event.claim → y.joined = none → x.retried = true →
      y.retried = true := by
    intro i l x y hx hy hxy hyn hr
    cases hyr : y.retried with
    | true => rfl
    | false =>
        obtain ⟨m, first, hm, hfc, hff, hfj⟩ := h.first i x hx hr
        obtain rfl := (h.once l m y first hy hm (hxy.symm.trans hfc.symm)).2 (hyr.trans hff.symm)
        obtain rfl : y = first := Option.some.inj (hy.symm.trans hm)
        rw [hyn] at hfj
        cases hfj
  refine (h.once k j other job hk hget hclaim).2 (Bool.eq_iff_iff.2 ⟨fun hr => ?_, fun hr => ?_⟩)
  · exact hkind hk hget hclaim hjoined hr
  · exact hkind hget hk hclaim.symm hother hr

/-- A held trigger has no unjoined job. -/
theorem Waiting.not_unjoined (h : Waiting jobs stranded) (hspawned : Spawned jobs claims)
    (hheld : held ∈ stranded) (hget : jobs[j]? = some job)
    (hclaim : job.event.claim = held.event.claim) : job.joined.isSome = true := by
  obtain ⟨k, first, hk, hevent, hdone⟩ := h.joined held hheld
  have hfirst : first.event.claim = held.event.claim := by rw [hevent]
  have hsame : job.retried = first.retried := by
    rw [h.unretried held hheld j job hget hclaim, h.unretried held hheld k first hk hfirst]
  obtain rfl := (hspawned.once j k job first hget hk (hclaim.trans hfirst.symm)).2 hsame
  obtain rfl : job = first := Option.some.inj (hget.symm.trans hk)
  exact hdone

/-! ## A new trigger -/

/-- A job of the list after one was spawned. -/
theorem spawned_cases {x : Job}
    (hx : (spawnAttempt jobs event retried)[k]? = some x) :
    (k = jobs.length ∧ x = { event := event, retried := retried }) ∨ jobs[k]? = some x :=
  (getElem?_snoc_cases hx).imp_right And.right

theorem spawned_keeps {x : Job} (hx : jobs[k]? = some x) :
    (spawnAttempt jobs event retried)[k]? = some x :=
  (List.getElem?_append_left (List.getElem?_eq_some_iff.1 hx).1).trans hx

theorem open_spawned {e' : TriggerEvent}
    (h : Open (spawnAttempt jobs event retried) stranded e') :
    e' = event ∨ Open jobs stranded e' := by
  rcases h with ⟨k, x, hx, hjoined, rfl⟩ | hheld
  · rcases spawned_cases hx with ⟨-, rfl⟩ | hx
    · exact .inl rfl
    · exact .inr (.inl ⟨k, x, hx, hjoined, rfl⟩)
  · exact .inr (.inr hheld)

theorem Open.spawn (h : Open jobs stranded e) :
    Open (spawnAttempt jobs event retried) stranded e :=
  h.imp_left fun ⟨k, x, hx, hrest⟩ => ⟨k, x, spawned_keeps hx, hrest⟩

theorem open_spawn (jobs : List Job) (stranded : List StrandedTrigger) (event : TriggerEvent)
    (retried : Bool) : Open (spawnAttempt jobs event retried) stranded event :=
  .inl ⟨jobs.length, _, List.getElem?_concat_length, rfl, rfl⟩

theorem Spawned.spawn (h : Spawned jobs claims) (hclaim : e.claim = claims) :
    Spawned (spawnAttempt jobs e false) (claims + 1) := by
  have hother : ∀ {k : Nat} {x : Job}, jobs[k]? = some x → x.event.claim ≠ e.claim := by
    intro k x hx heq
    have hlt := h.lt k x hx
    omega
  refine ⟨fun k x hx => ?_, fun i k x y hx hy heq => ?_, fun k x hx hr => ?_⟩
  · rcases spawned_cases hx with ⟨-, rfl⟩ | hx
    · exact hclaim ▸ Nat.lt_succ_self claims
    · exact Nat.lt_succ_of_lt (h.lt k x hx)
  · rcases spawned_cases hx with ⟨rfl, rfl⟩ | hx
    · rcases spawned_cases hy with ⟨rfl, rfl⟩ | hy
      · exact ⟨rfl, fun _ => rfl⟩
      · exact absurd heq.symm (hother hy)
    · rcases spawned_cases hy with ⟨-, rfl⟩ | hy
      · exact absurd heq (hother hx)
      · exact h.once i k x y hx hy heq
  · rcases spawned_cases hx with ⟨-, rfl⟩ | hx
    · cases hr
    · obtain ⟨l, first, hl, hfirst⟩ := h.first k x hx hr
      exact ⟨l, first, spawned_keeps hl, hfirst⟩

theorem Tracked.spawn (h : Tracked jobs stranded claims claimed settled)
    (hclaim : e.claim = claims) (hfree : claimed e.id = false) (hnow : claimed' e.id = true)
    (hsame : ∀ id, claimed id = true → claimed' id = true) :
    Tracked (spawnAttempt jobs e false) stranded (claims + 1) claimed' settled where
  toSpawned := h.toSpawned.spawn hclaim
  joined g hg := by
    obtain ⟨l, first, hl, hfirst⟩ := h.joined g hg
    exact ⟨l, first, spawned_keeps hl, hfirst⟩
  unretried g hg k x hx heq := by
    rcases spawned_cases hx with ⟨-, rfl⟩ | hx
    · rfl
    · exact h.unretried g hg k x hx heq
  nodup := h.nodup
  claim e' he' := by
    rcases open_spawned he' with rfl | he'
    · exact hnow
    · exact hsame _ (h.claim e' he')
  ids e₁ e₂ h₁ h₂ hid := by
    rcases open_spawned h₁ with rfl | ho₁
    · rcases open_spawned h₂ with rfl | ho₂
      · rfl
      · rw [hid, h.claim e₂ ho₂] at hfree
        cases hfree
    · rcases open_spawned h₂ with rfl | ho₂
      · rw [← hid, h.claim e₁ ho₁] at hfree
        cases hfree
      · exact h.ids e₁ e₂ ho₁ ho₂ hid
  tracked x hx := by
    rcases Nat.lt_succ_iff_lt_or_eq.1 hx with hx | rfl
    · exact (h.tracked x hx).imp_right fun ⟨e', he', hc⟩ => ⟨e', he'.spawn, hc⟩
    · exact .inr ⟨e, open_spawn jobs stranded e false, hclaim⟩

/-! ## A job is polled -/

/-- Polling a job does not change whose it is. -/
theorem Tracked.poll (h : Tracked jobs stranded claims claimed settled)
    (hget : jobs[j]? = some job) (attempt behind : Option Nat) :
    Tracked (jobs.set j { job with attempt := attempt, behind := behind }) stranded claims claimed
      settled := by
  have hback : ∀ {k : Nat} {x : Job},
      (jobs.set j { job with attempt := attempt, behind := behind })[k]? = some x →
      ∃ y, jobs[k]? = some y ∧ x.event = y.event ∧ x.retried = y.retried ∧ x.joined = y.joined := by
    intro k x hx
    rcases getElem?_set_cases hx with ⟨rfl, rfl, -⟩ | ⟨-, hold⟩
    · exact ⟨job, hget, rfl, rfl, rfl⟩
    · exact ⟨x, hold, rfl, rfl, rfl⟩
  have hkeep : ∀ {k : Nat} {y : Job}, jobs[k]? = some y → ∃ x,
      (jobs.set j { job with attempt := attempt, behind := behind })[k]? = some x ∧
      x.event = y.event ∧ x.retried = y.retried ∧ x.joined = y.joined := by
    intro k y hy
    rcases Nat.decEq k j with hne | rfl
    · exact ⟨y, (List.getElem?_set_ne (Ne.symm hne)).trans hy, rfl, rfl, rfl⟩
    · obtain rfl : job = y := Option.some.inj (hget.symm.trans hy)
      exact ⟨_, List.getElem?_set_self (List.getElem?_eq_some_iff.1 hy).1, rfl, rfl, rfl⟩
  refine h.update ⟨fun k x hx => ?_, fun i k x y hx hy heq => ?_, fun k x hx hr => ?_⟩
    ⟨fun g hg => ?_, fun g hg k x hx heq => ?_, h.nodup⟩ (fun e he => ⟨?_, rfl⟩)
    (fun e he => .inl ?_) fun _ => id
  · obtain ⟨x', hx', he, -⟩ := hback hx
    rw [he]
    exact h.lt k x' hx'
  · obtain ⟨x', hx', hex, hrx, -⟩ := hback hx
    obtain ⟨y', hy', hey, hry, -⟩ := hback hy
    rw [hex, hey, hrx, hry]
    exact h.once i k x' y' hx' hy' (by rw [← hex, ← hey, heq])
  · obtain ⟨x', hx', hex, hrx, -⟩ := hback hx
    obtain ⟨l, first, hl, hc, hf, hdone⟩ := h.first k x' hx' (hrx ▸ hr)
    obtain ⟨first', hl', hef, hrf, hjf⟩ := hkeep hl
    exact ⟨l, first', hl', by rw [hef, hc, hex], hrf.trans hf, by rw [hjf, hdone]⟩
  · obtain ⟨l, first, hl, he, hdone⟩ := h.joined g hg
    obtain ⟨first', hl', hef, -, hjf⟩ := hkeep hl
    exact ⟨l, first', hl', hef.trans he, by rw [hjf, hdone]⟩
  · obtain ⟨x', hx', hex, hrx, -⟩ := hback hx
    rw [hrx]
    exact h.unretried g hg k x' hx' (hex ▸ heq)
  · refine he.imp_left fun ⟨k, x, hx, hnone, hevent⟩ => ?_
    obtain ⟨y, hy, hey, -, hjy⟩ := hback hx
    exact ⟨k, y, hy, hjy.symm.trans hnone, hey.symm.trans hevent⟩
  · refine he.imp_left fun ⟨k, y, hy, hnone, hevent⟩ => ?_
    obtain ⟨x, hx, hex, -, hjx⟩ := hkeep hy
    exact ⟨k, x, hx, hjx.trans hnone, hex.trans hevent⟩

/-! ## A job is joined -/

/-- A job of the list after one was joined. -/
theorem joined_cases {x : Job} (hget : jobs[j]? = some job)
    (hx : (jobs.set j { job with joined := some report })[k]? = some x) :
    ∃ y, jobs[k]? = some y ∧ x.event = y.event ∧ x.retried = y.retried ∧
      (x.joined = none → x = y ∧ k ≠ j) := by
  rcases getElem?_set_cases hx with ⟨rfl, rfl, -⟩ | ⟨hne, hold⟩
  · exact ⟨job, hget, rfl, rfl, nofun⟩
  · exact ⟨x, hold, rfl, rfl, fun _ => ⟨rfl, hne⟩⟩

theorem joined_keeps {y : Job} (hget : jobs[j]? = some job)
    (hy : jobs[k]? = some y) :
    ∃ x, (jobs.set j { job with joined := some report })[k]? = some x ∧ x.event = y.event ∧
      x.retried = y.retried ∧ (y.joined.isSome = true → x.joined.isSome = true) ∧
      (k ≠ j → x = y) := by
  rcases Nat.decEq k j with hne | rfl
  · exact ⟨y, (List.getElem?_set_ne (Ne.symm hne)).trans hy, rfl, rfl, id, fun _ => rfl⟩
  · obtain rfl : job = y := Option.some.inj (hget.symm.trans hy)
    exact ⟨_, List.getElem?_set_self (List.getElem?_eq_some_iff.1 hy).1, rfl, rfl, fun _ => rfl,
      fun hne => absurd rfl hne⟩

theorem Spawned.join (h : Spawned jobs claims) (hget : jobs[j]? = some job) :
    Spawned (jobs.set j { job with joined := some report }) claims := by
  refine ⟨fun k x hx => ?_, fun i k x y hx hy heq => ?_, fun k x hx hr => ?_⟩
  · obtain ⟨x', hx', he, -⟩ := joined_cases hget hx
    rw [he]
    exact h.lt k x' hx'
  · obtain ⟨x', hx', hex, hrx, -⟩ := joined_cases hget hx
    obtain ⟨y', hy', hey, hry, -⟩ := joined_cases hget hy
    rw [hex, hey, hrx, hry]
    exact h.once i k x' y' hx' hy' (by rw [← hex, ← hey, heq])
  · obtain ⟨x', hx', hex, hrx, -⟩ := joined_cases hget hx
    obtain ⟨l, first, hl, hc, hf, hdone⟩ := h.first k x' hx' (hrx ▸ hr)
    obtain ⟨first', hl', hef, hrf, hjf, -⟩ := joined_keeps hget hl
    exact ⟨l, first', hl', by rw [hef, hc, hex], hrf.trans hf, hjf hdone⟩

theorem Waiting.join (h : Waiting jobs stranded) (hget : jobs[j]? = some job) :
    Waiting (jobs.set j { job with joined := some report }) stranded where
  joined g hg := by
    obtain ⟨l, first, hl, he, hdone⟩ := h.joined g hg
    obtain ⟨first', hl', hef, -, hjf, -⟩ := joined_keeps hget hl
    exact ⟨l, first', hl', hef.trans he, hjf hdone⟩
  unretried g hg k x hx heq := by
    obtain ⟨x', hx', hex, hrx, -⟩ := joined_cases hget hx
    rw [hrx]
    exact h.unretried g hg k x' hx' (hex ▸ heq)
  nodup := h.nodup

/-- What is open after a job was joined is another trigger, and was open. -/
theorem Tracked.open_join (h : Tracked jobs stranded claims claimed settled)
    (hget : jobs[j]? = some job) (hjoined : job.joined = none)
    (he : Open (jobs.set j { job with joined := some report }) stranded e) :
    Open jobs stranded e ∧ e.claim ≠ job.event.claim := by
  rcases he with ⟨k, x, hx, hnone, rfl⟩ | ⟨g, hg, rfl⟩
  · obtain ⟨y, hy, -, -, hsame⟩ := joined_cases hget hx
    obtain ⟨rfl, hne⟩ := hsame hnone
    exact ⟨.inl ⟨k, x, hy, hnone, rfl⟩, fun hclaim =>
      hne (h.toSpawned.unjoined hget hjoined k x hy hnone hclaim)⟩
  · refine ⟨.inr ⟨g, hg, rfl⟩, fun hclaim => ?_⟩
    have hdone := h.toWaiting.not_unjoined h.toSpawned hg hget hclaim.symm
    rw [hjoined] at hdone
    cases hdone

/-- The other way round. -/
theorem Open.join (he : Open jobs stranded e) (hget : jobs[j]? = some job) :
    Open (jobs.set j { job with joined := some report }) stranded e ∨ e = job.event := by
  rcases he with ⟨k, x, hx, hnone, rfl⟩ | hheld
  · rcases Nat.decEq k j with hne | rfl
    · obtain ⟨y, hy, -, -, -, hsame⟩ := joined_keeps hget hx
      obtain rfl := hsame hne
      exact .inl (.inl ⟨k, y, hy, hnone, rfl⟩)
    · obtain rfl : job = x := Option.some.inj (hget.symm.trans hx)
      exact .inr rfl
  · exact .inl (.inr hheld)

/-- The claim of the job's trigger is settled. -/
theorem Tracked.settle (h : Tracked jobs stranded claims claimed settled)
    (hget : jobs[j]? = some job) (hjoined : job.joined = none)
    (hsame : ∀ id, id ≠ job.event.id → claimed' id = claimed id)
    (hmono : ∀ x, settled x → settled' x) (hdone : settled' job.event.claim) :
    Tracked (jobs.set j { job with joined := some report }) stranded claims claimed' settled' := by
  have hjob : Open jobs stranded job.event := .inl ⟨j, job, hget, hjoined, rfl⟩
  refine h.update (h.toSpawned.join hget) (h.toWaiting.join hget) (fun e he => ?_) (fun e he => ?_)
    hmono
  · obtain ⟨hopen, hne⟩ := h.open_join hget hjoined he
    exact ⟨hopen, hsame e.id fun hid => hne (h.ids e job.event hopen hjob hid)⟩
  · rcases he.join hget with hstill | rfl
    · exact .inl hstill
    · exact .inr hdone

/-- The job's trigger is held. -/
theorem Tracked.strand (h : Tracked jobs stranded claims claimed settled)
    (hget : jobs[j]? = some job) (hjoined : job.joined = none) (hfirst : job.retried = false)
    (dueAtMs : Nat) :
    Tracked (jobs.set j { job with joined := some report })
      (stranded ++ [⟨job.event, dueAtMs⟩]) claims claimed settled := by
  have hjob : Open jobs stranded job.event := .inl ⟨j, job, hget, hjoined, rfl⟩
  have hself : (jobs.set j { job with joined := some report })[j]? =
      some { job with joined := some report } :=
    List.getElem?_set_self (List.getElem?_eq_some_iff.1 hget).1
  have hwaiting : Waiting (jobs.set j { job with joined := some report }) stranded :=
    h.toWaiting.join hget
  refine h.update (h.toSpawned.join hget) ⟨?_, ?_, ?_⟩ (fun e he => ⟨?_, rfl⟩) (fun e he => .inl ?_)
    fun _ => id
  · intro g hg
    rcases List.mem_append.1 hg with hg | hg
    · exact hwaiting.joined g hg
    · rw [List.mem_singleton.1 hg]
      exact ⟨j, _, hself, rfl, rfl⟩
  · intro g hg k x hx heq
    rcases List.mem_append.1 hg with hg | hg
    · exact hwaiting.unretried g hg k x hx heq
    · rw [List.mem_singleton.1 hg] at heq
      cases hr : x.retried with
      | false => rfl
      | true =>
          obtain ⟨y, hy, hey, hry, -⟩ := joined_cases hget hx
          obtain ⟨l, first, hl, hfc, hff, hfj⟩ := h.first k y hy (hry ▸ hr)
          have hclaim : job.event.claim = first.event.claim := by rw [hfc, ← hey, heq]
          obtain rfl := (h.once j l job first hget hl hclaim).2 (hfirst.trans hff.symm)
          obtain rfl : job = first := Option.some.inj (hget.symm.trans hl)
          rw [hjoined] at hfj
          cases hfj
  · rw [List.map_append]
    refine List.nodup_append.2 ⟨h.nodup, List.nodup_singleton _, fun x hx y hy => ?_⟩
    obtain ⟨g, hg, rfl⟩ := List.mem_map.1 hx
    obtain rfl := List.mem_singleton.1 hy
    intro heq
    have hdone := h.toWaiting.not_unjoined h.toSpawned hg hget heq.symm
    rw [hjoined] at hdone
    cases hdone
  · rcases he with hjobs | ⟨g, hg, rfl⟩
    · exact (h.open_join hget hjoined (.inl hjobs)).1
    · rcases List.mem_append.1 hg with hg | hg
      · exact .inr ⟨g, hg, rfl⟩
      · rw [List.mem_singleton.1 hg]
        exact hjob
  · rcases he.join hget with hstill | rfl
    · exact hstill.imp_right fun ⟨g, hg, hge⟩ => ⟨g, List.mem_append_left _ hg, hge⟩
    · exact .inr ⟨_, List.mem_append_right _ List.mem_cons_self, rfl⟩

/-! ## A trigger is no longer held -/

/-- What is still held is another trigger. -/
theorem Waiting.claim_ne_of_mem_eraseIdx (h : Waiting jobs stranded)
    {g : StrandedTrigger} (hk : stranded[k]? = some held)
    (hg : g ∈ stranded.eraseIdx k) :
    g ∈ stranded ∧ g.event.claim ≠ held.event.claim := by
  obtain ⟨i, hne, hi⟩ := List.mem_eraseIdx_iff_getElem?.1 hg
  refine ⟨List.mem_of_getElem? hi, fun heq => hne ?_⟩
  refine (List.getElem?_inj ?_ h.nodup).1 ?_
  · rw [List.length_map]
    exact (List.getElem?_eq_some_iff.1 hi).1
  · rw [List.getElem?_map, List.getElem?_map, hi, hk, Option.map_some, Option.map_some, heq]

theorem mem_eraseIdx_or_eq {g : StrandedTrigger} (hk : stranded[k]? = some held)
    (hg : g ∈ stranded) : g ∈ stranded.eraseIdx k ∨ g = held := by
  obtain ⟨i, hi⟩ := List.mem_iff_getElem?.1 hg
  rcases Nat.decEq i k with hne | rfl
  · exact .inl (List.mem_eraseIdx_iff_getElem?.2 ⟨i, hne, hi⟩)
  · exact .inr (Option.some.inj (hi.symm.trans hk))

theorem Waiting.erase (h : Waiting jobs stranded) (k : Nat) :
    Waiting jobs (stranded.eraseIdx k) where
  joined g hg := h.joined g (List.mem_of_mem_eraseIdx hg)
  unretried g hg := h.unretried g (List.mem_of_mem_eraseIdx hg)
  nodup := h.nodup.sublist ((List.eraseIdx_sublist stranded k).map _)

/-- It was evicted, and its claim settled. -/
theorem Tracked.evict (h : Tracked jobs stranded claims claimed settled)
    (hk : stranded[k]? = some held)
    (hsame : ∀ id, id ≠ held.event.id → claimed' id = claimed id)
    (hmono : ∀ x, settled x → settled' x) (hdone : settled' held.event.claim) :
    Tracked jobs (stranded.eraseIdx k) claims claimed' settled' := by
  have hmem := List.mem_of_getElem? hk
  have hopen : Open jobs stranded held.event := .inr ⟨held, hmem, rfl⟩
  refine h.update h.toSpawned (h.toWaiting.erase k) (fun e he => ?_) (fun e he => ?_) hmono
  · have hother : Open jobs stranded e ∧ e.claim ≠ held.event.claim := by
      rcases he with ⟨i, x, hx, hnone, rfl⟩ | ⟨g, hg, rfl⟩
      · refine ⟨.inl ⟨i, x, hx, hnone, rfl⟩, fun heq => ?_⟩
        have hjoined := h.toWaiting.not_unjoined h.toSpawned hmem hx heq
        rw [hnone] at hjoined
        cases hjoined
      · obtain ⟨hg, hne⟩ := h.toWaiting.claim_ne_of_mem_eraseIdx hk hg
        exact ⟨.inr ⟨g, hg, rfl⟩, hne⟩
    exact ⟨hother.1, hsame e.id fun hid => hother.2 (h.ids e held.event hother.1 hopen hid)⟩
  · rcases he with hjobs | ⟨g, hg, rfl⟩
    · exact .inl (.inl hjobs)
    · rcases mem_eraseIdx_or_eq hk hg with hg | rfl
      · exact .inl (.inr ⟨g, hg, rfl⟩)
      · exact .inr hdone

/-- It gets its re-drive. -/
theorem Tracked.redrive (h : Tracked jobs stranded claims claimed settled)
    (hk : stranded[k]? = some held) :
    Tracked (spawnAttempt jobs held.event true) (stranded.eraseIdx k) claims claimed settled := by
  have hmem := List.mem_of_getElem? hk
  obtain ⟨l, first, hl, hfe, hfj⟩ := h.joined held hmem
  have hff : first.retried = false := h.unretried held hmem l first hl (by rw [hfe])
  have hevent : ∀ {i : Nat} {x : Job}, jobs[i]? = some x →
      x.event.claim = held.event.claim → x.event = held.event ∧ x.retried = false := by
    intro i x hx heq
    refine ⟨?_, h.unretried held hmem i x hx heq⟩
    rw [← hfe]
    exact (h.once i l x first hx hl (by rw [heq, hfe])).1
  refine h.update ⟨fun i x hx => ?_, fun i i' x y hx hy heq => ?_, fun i x hx hr => ?_⟩
    ⟨fun g hg => ?_, fun g hg i x hx heq => ?_, (h.toWaiting.erase k).nodup⟩
    (fun e he => ⟨?_, rfl⟩) (fun e he => .inl ?_) fun _ => id
  · rcases spawned_cases hx with ⟨-, rfl⟩ | hx
    · have hlt := h.lt l first hl
      rw [hfe] at hlt
      exact hlt
    · exact h.lt i x hx
  · rcases spawned_cases hx with ⟨rfl, rfl⟩ | hx
    · rcases spawned_cases hy with ⟨rfl, rfl⟩ | hy
      · exact ⟨rfl, fun _ => rfl⟩
      · obtain ⟨hye, hyr⟩ := hevent hy heq.symm
        exact ⟨hye.symm, fun hsame => by rw [hyr] at hsame; cases hsame⟩
    · rcases spawned_cases hy with ⟨rfl, rfl⟩ | hy
      · obtain ⟨hxe, hxr⟩ := hevent hx heq
        exact ⟨hxe, fun hsame => by rw [hxr] at hsame; cases hsame⟩
      · exact h.once i i' x y hx hy heq
  · rcases spawned_cases hx with ⟨-, rfl⟩ | hx
    · exact ⟨l, first, spawned_keeps hl, by rw [hfe], hff, hfj⟩
    · obtain ⟨m, y, hy, hrest⟩ := h.first i x hx hr
      exact ⟨m, y, spawned_keeps hy, hrest⟩
  · obtain ⟨m, y, hy, hrest⟩ := h.joined g (List.mem_of_mem_eraseIdx hg)
    exact ⟨m, y, spawned_keeps hy, hrest⟩
  · rcases spawned_cases hx with ⟨-, rfl⟩ | hx
    · exact absurd heq.symm (h.toWaiting.claim_ne_of_mem_eraseIdx hk hg).2
    · exact h.unretried g (List.mem_of_mem_eraseIdx hg) i x hx heq
  · rcases open_spawned he with rfl | he
    · exact .inr ⟨held, hmem, rfl⟩
    · exact he.imp_right fun ⟨g, hg, hge⟩ => ⟨g, List.mem_of_mem_eraseIdx hg, hge⟩
  · rcases he with hjobs | ⟨g, hg, rfl⟩
    · exact Open.spawn (.inl hjobs)
    · rcases mem_eraseIdx_or_eq hk hg with hg | rfl
      · exact .inr ⟨g, hg, rfl⟩
      · exact open_spawn jobs _ g.event true

end Buzz.Waker
