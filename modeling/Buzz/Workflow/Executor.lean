import Buzz.Core.Json
import Buzz.Core.Text
import Buzz.Lib.TypedMap

/-!
# Workflow conditions

`buzz-workflow/src/executor.rs`: an `if:` expression is evaluated by `evalexpr`
in a context of variables made from the trigger, its webhook fields and the
outputs of earlier steps.

`evalexpr` itself is a parameter. Its errors are kept as what they say, not as
their text, and so is a timeout. A float is kept as the number it was made of.
-/

namespace Buzz.Workflow

open Buzz.Lib

/-! ## Values -/

inductive Value where
  | string (s : String)
  | int (i : Int)
  | float (n : JsonNumber)
  | boolean (b : Bool)
  | tuple (items : List Value)
  | empty

inductive ValueType where
  | string
  | int
  | float
  | boolean
  | tuple
  | empty
deriving DecidableEq

def Value.type : Value → ValueType
  | .string _ => .string
  | .int _ => .int
  | .float _ => .float
  | .boolean _ => .boolean
  | .tuple _ => .tuple
  | .empty => .empty

inductive EvalexprError where
  | expectedType (expected : ValueType) (actual : Value)
  | expectedFixedLengthTuple (length : Nat) (actual : Value)
  | variableIdentifierNotFound (name : String)
  | custom (message : String)

/-- `Value::as_string`. -/
def Value.asString : Value → Except EvalexprError String
  | .string s => .ok s
  | v => .error (.expectedType .string v)

/-- `Value::as_fixed_len_tuple`. -/
def Value.asFixedLenTuple (v : Value) (length : Nat) : Except EvalexprError (List Value) :=
  match v with
  | .tuple items =>
      if items.length = length then .ok items else .error (.expectedFixedLengthTuple length v)
  | v => .error (.expectedType .tuple v)

/-! ## Contexts -/

abbrev EvalFunction := Value → Except EvalexprError Value

/-- `HashMapContext`. -/
structure EvalContext where
  vars : HMap String Value
  functions : List (String × EvalFunction)

def EvalContext.setValue (ctx : EvalContext) (name : String) (value : Value) :
    Except EvalexprError EvalContext :=
  (ctx.vars.setTyped Value.type (fun old new => .expectedType old.type new) name value).map
    fun vars => { ctx with vars := vars }

/-- A helper of two strings. -/
def stringHelper (test : List Char → List Char → Bool) : EvalFunction := fun args => do
  let args ← args.asFixedLenTuple 2
  let s ← (args.getD 0 .empty).asString
  let part ← (args.getD 1 .empty).asString
  return .boolean (test s.toList part.toList)

/-- The helpers `evalexpr` does not have. -/
def helperFunctions : List (String × EvalFunction) :=
  [("str_contains", stringHelper fun s needle => decide (needle <:+: s)),
    ("str_starts_with", stringHelper fun s start => decide (start <+: s)),
    ("str_ends_with", stringHelper fun s tail => decide (tail <:+ s)),
    ("str_len", fun arg => do
      let s ← arg.asString
      return .int s.utf8ByteSize)]

/-! ## The trigger -/

structure TriggerContext where
  text : String := ""
  author : String := ""
  channelId : String := ""
  timestamp : String := ""
  emoji : String := ""
  messageId : String := ""
  isReply : Bool := false
  webhookFields : HMap String String := ∅

/-- The `webhook_fields` of a request body. -/
def webhookFields : Option Json → HMap String String
  | some (.object fields) => fields.foldl (fun m (k, v) => m.insert (String.ofList k) (match v with
      | .string s => String.ofList s
      | other => String.ofList other.render)) ∅
  | _ => ∅

def startsWith (s start : String) : Bool := start.toList.isPrefixOf s.toList

/-- The variables of the webhook fields, those that are not skipped. -/
def webhookVariables (fields : HMap String String) : List (String × Value) :=
  (fields.entries.filter fun e => !(startsWith e.1 "trigger_" || startsWith e.1 "steps_")).map
    fun e => ("trigger_" ++ e.1, .string e.2)

def triggerVariables (trigger : TriggerContext) : List (String × Value) :=
  [("trigger_text", .string trigger.text),
    ("trigger_author", .string trigger.author),
    ("trigger_channel_id", .string trigger.channelId),
    ("trigger_timestamp", .string trigger.timestamp),
    ("trigger_emoji", .string trigger.emoji),
    ("trigger_message_id", .string trigger.messageId),
    ("trigger_is_reply", .boolean trigger.isReply)]

/-! ## Steps -/

/-- `Number::as_i64`, on what is printed: an integer has neither a point nor an
exponent. -/
def asI64 (n : JsonNumber) : Option Int := string2ll n.text

def jsonValueToEval : Json → Value
  | .string s => .string (String.ofList s)
  | .bool b => .boolean b
  | .number n => match asI64 n with
      | some i => .int i
      | none => .float n
  | .null => .empty
  | other => .string (String.ofList other.render)

/-- The variables of one step's output. -/
def outputVariables (stepId : String) : Json → List (String × Value)
  | .object fields => fields.map fun (field, value) =>
      ("steps_" ++ stepId ++ "_output_" ++ String.ofList field, jsonValueToEval value)
  | _ => []

def stepVariables (stepOutputs : HMap String Json) : List (String × Value) :=
  stepOutputs.entries.flatMap fun e => outputVariables e.1 e.2

/-! ## Conditions -/

inductive ConditionError where
  | evalexpr (error : EvalexprError)
  | exprTooLong (limit : Nat)
  | timedOut (expr : String)
  | panicked (expr : String)
  | failed (expr : String) (error : EvalexprError)

def setValues (ctx : EvalContext) (values : List (String × Value)) :
    Except EvalexprError EvalContext :=
  values.foldlM (fun ctx e => ctx.setValue e.1 e.2) ctx

def buildEvalContext (trigger : TriggerContext) (stepOutputs : HMap String Json) :
    Except ConditionError EvalContext :=
  Except.mapError .evalexpr do
    let ctx : EvalContext := ⟨∅, helperFunctions⟩
    let ctx ← setValues ctx (webhookVariables trigger.webhookFields)
    let ctx ← setValues ctx (triggerVariables trigger)
    setValues ctx (stepVariables stepOutputs)

/-- What becomes of an evaluation on its blocking thread. -/
inductive EvalRun where
  | timedOut
  | panicked
  | finished (result : Except EvalexprError Bool)

/-- `evalexpr`, with the variables an expression reads. -/
structure Evalexpr where
  mentions : String → List String
  evalBoolean : String → EvalContext → EvalRun

/-- `MAX_EXPR_LEN`. -/
def maxExprLen : Nat := 4096

/-- The evaluation in a context that was built. -/
def evaluateIn (evalexpr : Evalexpr) (expr : String) (ctx : EvalContext) :
    Except ConditionError Bool :=
  if maxExprLen < expr.utf8ByteSize then .error (.exprTooLong maxExprLen)
  else
    match evalexpr.evalBoolean expr ctx with
    | .timedOut => .error (.timedOut expr)
    | .panicked => .error (.panicked expr)
    | .finished (.error error) => .error (.failed expr error)
    | .finished (.ok result) => .ok result

def evaluateCondition (evalexpr : Evalexpr) (expr : String) (trigger : TriggerContext)
    (stepOutputs : HMap String Json) : Except ConditionError Bool :=
  buildEvalContext trigger stepOutputs >>= evaluateIn evalexpr expr

end Buzz.Workflow
