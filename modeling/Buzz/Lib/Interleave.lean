import Mathlib.Data.List.Basic

/-!
# Interleaved tasks over a shared state

A task is a list of atomic actions still to do. An action changes the shared
state, may change the task's own local value, and may put further actions in
front of the rest, which is how a loop or a branch whose extent is only known
from what an action reads is written. A pool runs any number of tasks, one
action of one task at a time, in any order.

The rule `quiescent_inv` is for pools whose state splits into parts with one
owner each. If the actions of one owner leave every other owner's part alone,
and an owner's operations are run one after another, then whatever each
operation preserves of the owner's part when it runs alone also holds in the
pool, whenever the owner has no operation under way. Actions without an owner
are invisible to all parts.
-/

namespace Buzz.Lib

variable {σ ω α ρ ι V : Type}

structure Task (ω α ρ : Type) where
  op : ω
  todo : List α
  loc : ρ

structure Pool (σ ω α ρ : Type) where
  state : σ
  tasks : List (Task ω α ρ)

/-- Start an operation as a new task, or run the next action of a task. -/
inductive Move (ω : Type) where
  | start (op : ω)
  | run (i : Nat)

/-- The code: what an action does, and the actions an operation starts as. -/
structure Code (σ ω α ρ : Type) where
  exec : σ → ρ → α → σ × ρ × List α
  launch : ω → Task ω α ρ
  launch_op : ∀ op, (launch op).op = op

namespace Code

variable (code : Code σ ω α ρ) {s : Pool σ ω α ρ}

def step (s : Pool σ ω α ρ) : Move ω → Pool σ ω α ρ
  | .start op => { s with tasks := s.tasks ++ [code.launch op] }
  | .run i =>
      match s.tasks[i]? with
      | some ⟨op, a :: rest, loc⟩ =>
          let out := code.exec s.state loc a
          ⟨out.1, s.tasks.set i ⟨op, out.2.2 ++ rest, out.2.1⟩⟩
      | _ => s

def run (s : Pool σ ω α ρ) (moves : List (Move ω)) : Pool σ ω α ρ :=
  moves.foldl code.step s

/-- Everything a `run` move can do. -/
theorem step_run_cases (s : Pool σ ω α ρ) (i : Nat) :
    code.step s (.run i) = s ∨
    ∃ op a rest loc, s.tasks[i]? = some ⟨op, a :: rest, loc⟩ ∧
      code.step s (.run i) =
        ⟨(code.exec s.state loc a).1,
          s.tasks.set i ⟨op, (code.exec s.state loc a).2.2 ++ rest,
            (code.exec s.state loc a).2.1⟩⟩ := by
  unfold step
  dsimp only
  split
  · next op a rest loc h => exact .inr ⟨op, a, rest, loc, h, rfl⟩
  · exact .inl rfl

/-! ## The actions of a run, each with the state it ran in -/

structure Executed (σ α ρ : Type) where
  task : Nat
  state : σ
  loc : ρ
  action : α

def executed (s : Pool σ ω α ρ) : Move ω → List (Executed σ α ρ)
  | .start _ => []
  | .run i =>
      match s.tasks[i]? with
      | some ⟨_, a :: _, loc⟩ => [⟨i, s.state, loc, a⟩]
      | _ => []

def history (s : Pool σ ω α ρ) : List (Move ω) → List (Executed σ α ρ)
  | [] => []
  | m :: ms => executed s m ++ history (code.step s m) ms

/-- A property of tasks and the history so far, kept by starts and by each
executed action, holds of every task of every run. -/
theorem history_inv {P : List (Executed σ α ρ) → Nat → Task ω α ρ → Prop}
    (hmono : ∀ h h' i t, P h i t → P (h ++ h') i t)
    (hstart : ∀ h i op, P h i (code.launch op))
    (hexec : ∀ h i op a rest loc state, P h i ⟨op, a :: rest, loc⟩ →
      P (h ++ [⟨i, state, loc, a⟩]) i
      ⟨op, (code.exec state loc a).2.2 ++ rest, (code.exec state loc a).2.1⟩)
    {h : List (Executed σ α ρ)} (hs : ∀ i t, s.tasks[i]? = some t → P h i t)
    (moves : List (Move ω)) :
    ∀ i t, (code.run s moves).tasks[i]? = some t →
      P (h ++ code.history s moves) i t := by
  induction moves generalizing s h with
  | nil => simpa [history, run] using hs
  | cons m ms ih =>
      have hnext : ∀ i t, (code.step s m).tasks[i]? = some t →
          P (h ++ executed s m) i t := by
        intro i t ht
        cases m with
        | start op =>
            simp only [step, List.getElem?_append] at ht
            split at ht
            · exact hmono _ _ _ _ (hs i t ht)
            · rw [List.getElem?_singleton] at ht
              split at ht
              · cases ht; exact hstart _ _ _
              · cases ht
        | run j =>
            simp only [step] at ht
            simp only [executed]
            split at ht
            · next op a rest loc hj =>
                rw [List.getElem?_set] at ht
                split at ht
                · next hij =>
                    subst hij
                    split at ht
                    · cases ht
                      exact hexec _ _ _ _ _ _ _ (hs _ _ hj)
                    · cases ht
                · exact hmono _ _ _ _ (hs i t ht)
            · exact hmono _ _ _ _ (hs i t ht)
      have := ih hnext
      rwa [List.append_assoc] at this

/-! ## One owner at a time -/

/-- The shared state as each owner sees it. `frame`: an action changes only
its owner's view. `sim`: what it does to that view, and which further actions
of the owner it asks for, depends on the view alone. -/
structure Owned (owner : α → Option ι) (opOwner : ω → Option ι)
    (view : ι → σ → V) (vexec : V → α → V × List α) : Prop where
  frame : ∀ k s loc a, owner a ≠ some k →
    view k (code.exec s loc a).1 = view k s
  sim : ∀ k s loc a, owner a = some k →
    vexec (view k s) a = (view k (code.exec s loc a).1,
      (code.exec s loc a).2.2.filter fun b => (owner b).isSome)
  more : ∀ s loc a, ∀ b ∈ (code.exec s loc a).2.2,
    owner b = owner a ∨ owner b = none
  launched : ∀ op, ∀ a ∈ (code.launch op).todo,
    owner a = opOwner op ∨ owner a = none

/-- `todo` runs to completion on a view of its own, from `v` to `w`. -/
inductive Finishes (vexec : V → α → V × List α) : V → List α → V → Prop where
  | nil (v : V) : Finishes vexec v [] v
  | cons {v v' w : V} {a : α} {more rest : List α} :
      vexec v a = (v', more) → Finishes vexec v' (more ++ rest) w →
      Finishes vexec v (a :: rest) w

variable {owner : α → Option ι} {opOwner : ω → Option ι} {view : ι → σ → V}
  {vexec : V → α → V × List α}

theorem Finishes.append {v w : V} {l₁ l₂ : List α}
    (h : Finishes vexec v (l₁ ++ l₂) w) :
    ∃ u, Finishes vexec v l₁ u ∧ Finishes vexec u l₂ w := by
  generalize hl : l₁ ++ l₂ = l at h
  induction h generalizing l₁ with
  | nil v =>
      obtain ⟨rfl, rfl⟩ := List.append_eq_nil_iff.1 hl
      exact ⟨v, .nil v, .nil v⟩
  | cons he h ih =>
      cases l₁ with
      | nil =>
          have hl : l₂ = _ := hl
          exact ⟨_, .nil _, by rw [hl]; exact .cons he h⟩
      | cons a l₁ =>
          obtain ⟨rfl, rfl⟩ := List.cons.inj hl
          obtain ⟨u, h₁, h₂⟩ := ih (List.append_assoc _ _ _)
          exact ⟨u, .cons he h₁, h₂⟩

theorem Finishes.trans {u v w : V} {l₁ l₂ : List α}
    (h₁ : Finishes vexec v l₁ u) (h₂ : Finishes vexec u l₂ w) :
    Finishes vexec v (l₁ ++ l₂) w := by
  induction h₁ with
  | nil v => exact h₂
  | cons he _ ih =>
      have := ih h₂
      rw [List.append_assoc] at this
      exact .cons he this

theorem Finishes.of_nil {v w : V} (h : Finishes vexec v [] w) : w = v := by
  cases h; rfl

/-- A task by itself, with nothing else running. -/
def alone (v : σ × ρ) (a : α) : (σ × ρ) × List α :=
  let out := code.exec v.1 v.2 a
  ((out.1, out.2.1), out.2.2)

/-- No task of `k` has anything left to do. -/
def Idle (opOwner : ω → Option ι) (k : ι) (s : Pool σ ω α ρ) : Prop :=
  ∀ (i : Nat) (t : Task ω α ρ), s.tasks[i]? = some t → opOwner t.op = some k →
    t.todo = []

/-- A run in which an operation starts only when its owner is idle. -/
def Serial (opOwner : ω → Option ι) (s : Pool σ ω α ρ) :
    List (Move ω) → Prop
  | [] => True
  | m :: ms =>
      (∀ op k, m = .start op → opOwner op = some k → Idle opOwner k s) ∧
      Serial opOwner (code.step s m) ms

/-- The owner's own actions of a task. -/
def visible (owner : α → Option ι) (todo : List α) : List α :=
  todo.filter fun a => (owner a).isSome

/-- The invariant behind `quiescent_inv`: at most one task of each owner is
unfinished, and finishing it alone from the present view would establish
`P`. -/
structure Promised (owner : α → Option ι) (opOwner : ω → Option ι)
    (view : ι → σ → V) (vexec : V → α → V × List α) (P : V → Prop)
    (s : Pool σ ω α ρ) : Prop where
  owned : ∀ (i : Nat) (t : Task ω α ρ), s.tasks[i]? = some t → ∀ a ∈ t.todo,
    owner a = opOwner t.op ∨ owner a = none
  unique : ∀ (k : ι) (i j : Nat) (t u : Task ω α ρ), s.tasks[i]? = some t → s.tasks[j]? = some u →
    opOwner t.op = some k → opOwner u.op = some k →
    t.todo ≠ [] → u.todo ≠ [] → i = j
  idle : ∀ k, Idle opOwner k s → P (view k s.state)
  busy : ∀ (k : ι) (i : Nat) (t : Task ω α ρ), s.tasks[i]? = some t → opOwner t.op = some k →
    t.todo ≠ [] → ∀ w, Finishes vexec (view k s.state) (visible owner t.todo) w →
    P w

variable {code} {P : V → Prop}

theorem promised_start (ho : code.Owned owner opOwner view vexec)
    (hs : Promised owner opOwner view vexec P s) {op : ω}
    (hidle : ∀ k, opOwner op = some k → Idle opOwner k s)
    (hop : ∀ k v w, opOwner op = some k → P v →
      Finishes vexec v (visible owner (code.launch op).todo) w → P w) :
    Promised owner opOwner view vexec P (code.step s (.start op)) := by
  have hget : ∀ i t, (code.step s (.start op)).tasks[i]? = some t →
      s.tasks[i]? = some t ∨ (i = s.tasks.length ∧ t = code.launch op) := by
    intro i t ht
    simp only [step, List.getElem?_append] at ht
    split at ht
    · exact .inl ht
    · rw [List.getElem?_singleton] at ht
      split at ht
      · cases ht; exact .inr ⟨by omega, rfl⟩
      · cases ht
  -- A fresh task is the only unfinished one of its owner.
  have hfresh : ∀ (k : ι) (i : Nat) (t : Task ω α ρ), s.tasks[i]? = some t → opOwner t.op = some k →
      opOwner op = some k → t.todo = [] := fun k i t ht hk hop' =>
    hidle k hop' i t ht hk
  refine ⟨?_, ?_, ?_, ?_⟩
  · intro i t ht a ha
    rcases hget i t ht with ht | ⟨-, rfl⟩
    · exact hs.owned i t ht a ha
    · rw [code.launch_op]; exact ho.launched op a ha
  · intro k i j t u ht hu hkt hku hnt hnu
    rcases hget i t ht with ht | ⟨hi, rfl⟩ <;> rcases hget j u hu with hu | ⟨hj, rfl⟩
    · exact hs.unique k i j t u ht hu hkt hku hnt hnu
    · rw [code.launch_op] at hku
      exact absurd (hfresh k i t ht hkt hku) hnt
    · rw [code.launch_op] at hkt
      exact absurd (hfresh k j u hu hku hkt) hnu
    · rw [hi, hj]
  · intro k hk
    refine hs.idle k fun i t ht hown => hk i t ?_ hown
    have hlt : i < s.tasks.length := (List.getElem?_eq_some_iff.1 ht).1
    simp only [step]
    rw [List.getElem?_append_left hlt, ht]
  · intro k i t ht hown hne w hw
    rcases hget i t ht with ht | ⟨-, rfl⟩
    · exact hs.busy k i t ht hown hne w hw
    · rw [code.launch_op] at hown
      exact hop k _ w hown (hs.idle k (hidle k hown)) hw

theorem promised_run (ho : code.Owned owner opOwner view vexec)
    (hs : Promised owner opOwner view vexec P s) (i : Nat) :
    Promised owner opOwner view vexec P (code.step s (.run i)) := by
  rcases code.step_run_cases s i with h | ⟨op, a, rest, loc, hi, h⟩
  · rw [h]; exact hs
  rw [h]
  generalize hout : code.exec s.state loc a = out
  obtain ⟨state', loc', more⟩ := out
  have hlt : i < s.tasks.length := (List.getElem?_eq_some_iff.1 hi).1
  have hget : ∀ j t, (s.tasks.set i ⟨op, more ++ rest, loc'⟩)[j]? = some t →
      (j ≠ i ∧ s.tasks[j]? = some t) ∨ (j = i ∧ t = ⟨op, more ++ rest, loc'⟩) := by
    intro j t ht
    rw [List.getElem?_set] at ht
    split at ht
    · next hij =>
        cases ht
        exact .inr ⟨hij.symm, rfl⟩
    · next hij => exact .inl ⟨fun h => hij h.symm, ht⟩
  have hframe : ∀ k, owner a ≠ some k → view k state' = view k s.state := by
    intro k hk
    have := ho.frame k s.state loc a hk
    rwa [hout] at this
  have hown : owner a = opOwner op ∨ owner a = none :=
    hs.owned i _ hi a (List.mem_cons_self)
  -- Finishing the rest from the new view finishes the whole from the old one.
  have hback : ∀ k w, opOwner op = some k →
      Finishes vexec (view k state') (visible owner (more ++ rest)) w →
      Finishes vexec (view k s.state) (visible owner (a :: rest)) w := by
    intro k w hk hw
    rw [visible, List.filter_append] at hw
    by_cases ha : owner a = some k
    · have hsim := ho.sim k s.state loc a ha
      rw [hout] at hsim
      rw [visible, List.filter_cons_of_pos (by simp [ha])]
      exact .cons hsim hw
    · have hnone : owner a = none := by
        rcases hown with h | h
        · exact absurd (h.trans hk) ha
        · exact h
      have hmore : more.filter (fun b => (owner b).isSome) = [] := by
        refine List.filter_eq_nil_iff.2 fun b hb => ?_
        have := ho.more s.state loc a b (by rw [hout]; exact hb)
        rw [hnone, or_self] at this
        simp [this]
      rw [hmore, List.nil_append, hframe k ha] at hw
      rw [visible, List.filter_cons_of_neg (by simp [hnone])]
      exact hw
  have hbusy : ∀ k, opOwner op = some k → ∀ w,
      Finishes vexec (view k state') (visible owner (more ++ rest)) w → P w :=
    fun k hk w hw => hs.busy k i _ hi hk (by simp) w (hback k w hk hw)
  refine ⟨?_, ?_, ?_, ?_⟩
  · intro j t ht b hb
    rcases hget j t ht with ⟨-, ht⟩ | ⟨-, rfl⟩
    · exact hs.owned j t ht b hb
    · rcases List.mem_append.1 hb with hb | hb
      · have := ho.more s.state loc a b (by rw [hout]; exact hb)
        rcases this with h | h
        · rw [h]; exact hown
        · exact .inr h
      · exact hs.owned i _ hi b (List.mem_cons_of_mem _ hb)
  · intro k j₁ j₂ t u ht hu hkt hku hnt hnu
    rcases hget j₁ t ht with ⟨-, ht⟩ | ⟨h₁, rfl⟩ <;>
      rcases hget j₂ u hu with ⟨-, hu⟩ | ⟨h₂, rfl⟩
    · exact hs.unique k j₁ j₂ t u ht hu hkt hku hnt hnu
    · rw [h₂]; exact hs.unique k j₁ i t _ ht hi hkt hku hnt (by simp)
    · rw [h₁]; exact hs.unique k i j₂ _ u hi hu hkt hku (by simp) hnu
    · rw [h₁, h₂]
  · intro k hk
    by_cases hop : opOwner op = some k
    · have hnil : more ++ rest = [] := hk i ⟨op, more ++ rest, loc'⟩
        (by rw [List.getElem?_set, if_pos rfl, if_pos hlt]) hop
      refine hbusy k hop _ ?_
      rw [hnil]
      exact .nil _
    · have ha : owner a ≠ some k := by
        rcases hown with h | h
        · rw [h]; exact hop
        · rw [h]; simp
      rw [hframe k ha]
      refine hs.idle k fun j t ht hj => ?_
      by_cases hij : j = i
      · subst hij
        rw [hi] at ht
        cases ht
        exact absurd hj hop
      · exact hk j t (by rw [List.getElem?_set, if_neg (Ne.symm hij)]; exact ht) hj
  · intro k j t ht hkt hne w hw
    rcases hget j t ht with ⟨hji, ht⟩ | ⟨-, rfl⟩
    · -- Another task of `k` is unfinished, so this step was not one of `k`'s.
      have hop : opOwner op ≠ some k := fun hop =>
        hji (hs.unique k j i t _ ht hi hkt hop hne (by simp))
      have ha : owner a ≠ some k := by
        rcases hown with h | h
        · rw [h]; exact hop
        · rw [h]; simp
      rw [hframe k ha] at hw
      exact hs.busy k j t ht hkt hne w hw
    · exact hbusy k hkt w hw

/-- What every operation preserves of its owner's view when it runs alone
holds of the view of each idle owner, in every serial run. -/
theorem quiescent_inv (ho : code.Owned owner opOwner view vexec)
    (hop : ∀ op k v w, opOwner op = some k → P v →
      Finishes vexec v (visible owner (code.launch op).todo) w → P w)
    {state : σ} (hinit : ∀ k, P (view k state)) (moves : List (Move ω))
    (hserial : code.Serial opOwner ⟨state, []⟩ moves) (k : ι)
    (hk : Idle opOwner k (code.run ⟨state, []⟩ moves)) :
    P (view k (code.run ⟨state, []⟩ moves).state) := by
  have hrun : ∀ (moves : List (Move ω)) (s : Pool σ ω α ρ),
      Promised owner opOwner view vexec P s → code.Serial opOwner s moves →
      Promised owner opOwner view vexec P (code.run s moves) := by
    intro moves
    induction moves with
    | nil => intro s hs _; exact hs
    | cons m ms ih =>
        intro s hs hser
        refine ih _ ?_ hser.2
        cases m with
        | start op =>
            exact promised_start ho hs (fun k hk => hser.1 op k rfl hk)
              (fun k v w hk => hop op k v w hk)
        | run i => exact promised_run ho hs i
  have hnew : Promised owner opOwner view vexec P (⟨state, []⟩ : Pool σ ω α ρ) :=
    ⟨by simp, by simp, fun k _ => hinit k, by simp⟩
  exact (hrun moves _ hnew hserial).idle k hk

end Code

end Buzz.Lib
