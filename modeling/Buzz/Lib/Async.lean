/-!
# Asynchronous functions

An asynchronous function is a tree: it calls its environment, waits for the
answer and goes on. What the environment may answer, and what a call needs, is
said over a ghost state, and `Async.wp` is the weakest precondition under which
every call it reaches gets what it needs and its result is right. A program is proved once,
by running through its text; whoever then plays the environment keeps `wp` at
every answer the specification allows.
-/

namespace Buzz.Lib

variable {Op α σ : Type} {Ans : Op → Type}

inductive Async (Ans : Op → Type) (α : Type) where
  | done (a : α)
  | call (op : Op) (next : Ans op → Async Ans α)

namespace Async

/-- What a call needs where it is made, and the answers there are to it, each
with the ghost state after it. -/
structure Spec (Ans : Op → Type) (σ : Type) where
  needs : σ → Op → Prop
  allows : σ → (op : Op) → Ans op → σ → Prop

variable (S : Spec Ans σ) {post : σ → α → Prop}

def wp (post : σ → α → Prop) : Async Ans α → σ → Prop
  | .done a, s => post s a
  | .call op next, s => S.needs s op ∧ ∀ a s', S.allows s op a s' → wp post (next a) s'

variable {S} {op : Op} {next : Ans op → Async Ans α} {s s' : σ}

theorem wp_done {a : α} (h : post s a) : wp S post (.done a) s := h

theorem wp_call (hneeds : S.needs s op)
    (hnext : ∀ a s', S.allows s op a s' → wp S post (next a) s') : wp S post (.call op next) s :=
  ⟨hneeds, hnext⟩

theorem wp.needs (h : wp S post (.call op next) s) : S.needs s op := h.1

theorem wp.answer (h : wp S post (.call op next) s) {a : Ans op} (ha : S.allows s op a s') :
    wp S post (next a) s' :=
  h.2 a s' ha

end Async

end Buzz.Lib
