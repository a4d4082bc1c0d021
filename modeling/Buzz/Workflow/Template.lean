import Buzz.Lib.Find
import Buzz.Workflow.Executor
import Buzz.Workflow.Scheduler

/-!
# Templates

`resolve_template` of `buzz-workflow/src/executor.rs`: the placeholders of a
step's texts are replaced by fields of the trigger and of earlier outputs, in
one pass from the left. Texts are lists of characters, so an offset counts
characters where the source counts bytes.

Public keys are the `nostr` crate's, and a parameter.
-/

namespace Buzz.Workflow

open Buzz.Lib

inductive WorkflowError where
  | templateError (message : String)
deriving DecidableEq

/-- `nostr::PublicKey`, with `from_hex` and `to_bech32`. -/
structure PublicKeys (κ : Type) where
  fromHex : List Char → Option κ
  toBech32 : κ → Option (List Char)

/-! ## Variables -/

def TriggerContext.getField (trigger : TriggerContext) (name : List Char) :
    Option (List Char) :=
  match String.ofList name with
  | "text" => some trigger.text.toList
  | "author" => some trigger.author.toList
  | "channel_id" => some trigger.channelId.toList
  | "timestamp" => some trigger.timestamp.toList
  | "emoji" => some trigger.emoji.toList
  | "message_id" => some trigger.messageId.toList
  | other => (trigger.webhookFields.lookup other).map String.toList

/-- `splitn(2, c)`: what stands before the first `c`, and what stands behind it. -/
def splitOnce (c : Char) (text : List Char) : List Char × Option (List Char) :=
  (text.takeWhile (· ≠ c), (text.dropWhile (· ≠ c)).tail?)

def jsonToString : Json → List Char
  | .string s => s
  | .bool b => if b then "true".toList else "false".toList
  | .number n => n.text
  | .null => []
  | other => other.render

def jsonGetStr (value : Json) (key : List Char) : Option (List Char) :=
  match value with
  | .object fields => (fields.lookup key).map jsonToString
  | _ => none

/-- The field of a path behind `steps.`: `ID.output.FIELD`. -/
def resolveOutput (stepOutputs : HMap String Json) (rest : List Char) : Option (List Char) := do
  let (stepId, more) := splitOnce '.' rest
  let (middle, field) := splitOnce '.' (← more)
  let field ← field
  if middle ≠ "output".toList then none
  else
    let output ← stepOutputs.lookup (String.ofList stepId)
    jsonGetStr output field

def resolveVariable (path : List Char) (trigger : TriggerContext)
    (stepOutputs : HMap String Json) : Option (List Char) :=
  match path.dropPrefix? "trigger.".toList with
  | some field => trigger.getField field
  | none =>
    match path.dropPrefix? "steps.".toList with
    | some rest => resolveOutput stepOutputs rest
    | none => none

/-! ## Filters -/

/-- The argument of `truncate(…)`. -/
def truncateArgument (filter : List Char) : Option (List Char) :=
  (filter.dropPrefix? "truncate(".toList).bind fun rest => rest.dropSuffix? [')']

def applyFilter {κ : Type} (keys : PublicKeys κ) (value filter : List Char) :
    Except WorkflowError (List Char) :=
  let filter := trimText filter
  match truncateArgument filter with
  | some inner =>
    match parseU64 (trimText inner) with
    | some n => .ok (value.take n)
    | none => .error (.templateError
        ("truncate() requires a number, got: " ++ String.ofList inner))
  | none =>
    if filter = "npub".toList ∨ filter = "truncate_pubkey".toList then
      match keys.fromHex value with
      | some key => .ok ((keys.toBech32 key).getD value)
      | none => .ok value
    else .error (.templateError ("unknown filter: " ++ String.ofList filter))

/-! ## Placeholders -/

def opening : List Char := ['\x7b', '\x7b']

def closing : List Char := ['\x7d', '\x7d']

/-- The variable and the filter of a placeholder's text. -/
def readExpr (expr : List Char) : List Char × Option (List Char) :=
  let (path, filter) := splitOnce '|' expr
  (trimText path, filter.map trimText)

/-- What the loop pushes for a placeholder with this text. -/
def placeholderText {κ : Type} (keys : PublicKeys κ) (trigger : TriggerContext)
    (stepOutputs : HMap String Json) (inner : List Char) : Except WorkflowError (List Char) :=
  let expr := trimText inner
  let (path, filter) := readExpr expr
  match resolveVariable path trigger stepOutputs, filter with
  | some value, some filter => applyFilter keys value filter
  | some value, none => .ok value
  | none, _ => .ok (opening ++ expr ++ closing)

theorem length_drop_find {remaining : List Char} {start : Nat}
    (h : find opening remaining = some start) (stop : Nat) :
    ((remaining.drop (start + 2)).drop (stop + 2)).length < remaining.length := by
  obtain ⟨before, after, hcut, -⟩ := find_eq_some_iff.1 h
  have hlength := congrArg List.length hcut.eq
  simp only [List.length_append, opening, List.length_cons, List.length_nil] at hlength
  simp only [List.length_drop]
  omega

/-- The loop, with what is left of the template and what was pushed so far. -/
def resolveLoop {κ : Type} (keys : PublicKeys κ) (trigger : TriggerContext)
    (stepOutputs : HMap String Json) (remaining result : List Char) :
    Except WorkflowError (List Char) :=
  match _ : find opening remaining with
  | none => .ok (result ++ remaining)
  | some start =>
    let result := result ++ remaining.take start
    let rest := remaining.drop (start + 2)
    match find closing rest with
    -- an opening without its end, and the rest with it
    | none => .ok (result ++ opening ++ rest)
    | some stop => do
      let text ← placeholderText keys trigger stepOutputs (rest.take stop)
      resolveLoop keys trigger stepOutputs (rest.drop (stop + 2)) (result ++ text)
termination_by remaining.length
decreasing_by exact length_drop_find ‹_› stop

def resolveTemplate {κ : Type} (keys : PublicKeys κ) (template : List Char)
    (trigger : TriggerContext) (stepOutputs : HMap String Json) :
    Except WorkflowError (List Char) :=
  if (find opening template).isNone then .ok template
  else resolveLoop keys trigger stepOutputs template []

end Buzz.Workflow
