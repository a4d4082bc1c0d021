import Buzz.Workflow.Executor

/-!
# What webhook fields can do to a condition

The variables of a context are one list of assignments: the webhook fields, the
standard trigger variables, the outputs of the steps. Later ones win, so a
webhook field cannot change a standard variable. But every assignment keeps the
type of the variable, webhook fields are strings, and `trigger_is_reply` is not:
a field `is_reply` makes the whole context fail.
-/

namespace Buzz.Workflow

open Buzz.Lib HMap

variable {trigger : TriggerContext} {stepOutputs : HMap String Json} {fields : HMap String String}
  {ctx : EvalContext} {x : String} {e : String × Value}

/-! ## One list of assignments -/

def typeClash (old new : Value) : EvalexprError := .expectedType old.type new

def assignments (trigger : TriggerContext) (stepOutputs : HMap String Json) :
    List (String × Value) :=
  webhookVariables trigger.webhookFields ++ (triggerVariables trigger ++ stepVariables stepOutputs)

theorem setValues_eq (ctx : EvalContext) (values : List (String × Value)) :
    setValues ctx values =
      (setAll Value.type typeClash values ctx.vars).map fun vars => { ctx with vars := vars } := by
  induction values generalizing ctx with
  | nil => rfl
  | cons e values ih =>
      obtain ⟨name, value⟩ := e
      have hstep : setValues ctx ((name, value) :: values) =
          ctx.setValue name value >>= fun ctx => setValues ctx values := rfl
      rw [hstep, setAll]
      have hset : ctx.setValue name value =
          (setTyped Value.type typeClash ctx.vars name value).map
            fun vars => { ctx with vars := vars } := rfl
      rw [hset]
      cases setTyped Value.type typeClash ctx.vars name value with
      | error error => rfl
      | ok vars => exact ih _

theorem buildEvalContext_eq (trigger : TriggerContext) (stepOutputs : HMap String Json) :
    buildEvalContext trigger stepOutputs =
      Except.mapError .evalexpr
        ((setAll Value.type typeClash (assignments trigger stepOutputs) ∅).map
        fun vars => ⟨vars, helperFunctions⟩) := by
  unfold buildEvalContext assignments
  congr 1
  dsimp only
  rw [setAll_append, setValues_eq]
  cases setAll Value.type typeClash (webhookVariables trigger.webhookFields) ∅ with
  | error error => rfl
  | ok vars =>
      show setValues ⟨vars, helperFunctions⟩ (triggerVariables trigger) >>= _ =
        Except.map _ (setAll _ _ _ vars)
      rw [setAll_append, setValues_eq]
      cases setAll Value.type typeClash (triggerVariables trigger) vars with
      | error error => rfl
      | ok vars => exact setValues_eq ⟨vars, helperFunctions⟩ (stepVariables stepOutputs)

/-- A context is built exactly when the assignments agree on the types, and each
variable has the last value it was given. -/
theorem buildEvalContext_spec (trigger : TriggerContext) (stepOutputs : HMap String Json) :
    (∃ ctx, buildEvalContext trigger stepOutputs = .ok ctx ∧
      Consistent Value.type (assignments trigger stepOutputs) ∧ ctx.functions = helperFunctions ∧
      ∀ x, ctx.vars.lookup x = lastValue x (assignments trigger stepOutputs)) ∨
    (∃ error, buildEvalContext trigger stepOutputs = .error error) ∧
      ¬Consistent Value.type (assignments trigger stepOutputs) := by
  rw [buildEvalContext_eq]
  have hnew : ∀ e ∈ assignments trigger stepOutputs, ∀ old,
      (∅ : HMap String Value).lookup e.1 = some old → old.type = e.2.type := nofun
  rcases setAll_spec Value.type typeClash (assignments trigger stepOutputs) ∅ with
    ⟨vars, hok, ⟨hcons, -⟩, hlook⟩ | ⟨⟨error, herr⟩, hcons⟩
  · rw [hok]
    refine .inl ⟨_, rfl, hcons, rfl, fun x => ?_⟩
    rw [hlook, AList.lookup_empty, Option.or_none]
  · rw [herr]
    exact .inr ⟨⟨_, rfl⟩, fun h => hcons ⟨h, hnew⟩⟩

/-! ## Names -/

theorem startsWith_append (start s : String) : startsWith (start ++ s) start = true := by
  unfold startsWith
  rw [String.toList_append]
  exact List.isPrefixOf_iff_prefix.2 (List.prefix_append _ _)

theorem trigger_ne_steps {s : String} (h : startsWith x "steps_" = true) : x ≠ "trigger_" ++ s := by
  rintro rfl
  unfold startsWith at h
  rw [String.toList_append] at h
  cases h

theorem mem_webhookVariables (h : e ∈ webhookVariables fields) :
    ∃ key value, fields.lookup key = some value ∧ startsWith key "trigger_" = false ∧
      startsWith key "steps_" = false ∧ e = ("trigger_" ++ key, .string value) := by
  obtain ⟨⟨key, value⟩, hmem, rfl⟩ := List.mem_map.1 h
  obtain ⟨hmem, hkept⟩ := List.mem_filter.1 hmem
  rw [Bool.not_eq_true', Bool.or_eq_false_iff] at hkept
  exact ⟨key, value, mem_entries_iff.1 hmem, hkept.1, hkept.2, rfl⟩

theorem mem_stepVariables (h : e ∈ stepVariables stepOutputs) :
    startsWith e.1 "steps_" = true := by
  obtain ⟨⟨stepId, output⟩, -, h⟩ := List.mem_flatMap.1 h
  cases output with
  | object map =>
      obtain ⟨⟨field, value⟩, -, rfl⟩ := List.mem_map.1 h
      dsimp only
      rw [String.append_assoc, String.append_assoc]
      exact startsWith_append _ _
  | null => cases h
  | bool => cases h
  | number => cases h
  | string => cases h
  | array => cases h

/-- The names of the standard trigger variables. -/
def standardVariables : List String :=
  ["trigger_text", "trigger_author", "trigger_channel_id", "trigger_timestamp", "trigger_emoji",
    "trigger_message_id", "trigger_is_reply"]

theorem triggerVariables_names (trigger : TriggerContext) :
    (triggerVariables trigger).map Prod.fst = standardVariables := rfl

theorem triggerVariables_type (h : e ∈ triggerVariables trigger) :
    e.1 = "trigger_is_reply" ∨ e.2.type = .string := by
  unfold triggerVariables at h
  simp only [List.mem_cons, List.not_mem_nil, or_false] at h
  rcases h with rfl | rfl | rfl | rfl | rfl | rfl | rfl
  all_goals first
    | exact .inr rfl
    | exact .inl rfl

theorem triggerVariables_nodup : standardVariables.Nodup := by decide

/-! ## When a context is built -/

/-- Only the field `is_reply` and the steps can make it fail. -/
theorem consistent_assignments :
    Consistent Value.type (assignments trigger stepOutputs) ↔
      Consistent Value.type (stepVariables stepOutputs) ∧
        trigger.webhookFields.lookup "is_reply" = none := by
  have hreply : ∀ {key : String}, "trigger_" ++ key = "trigger_is_reply" → key = "is_reply" := by
    intro key heq
    have hlist : "trigger_".toList ++ key.toList = "trigger_".toList ++ "is_reply".toList := by
      rw [← String.toList_append, heq]
      rfl
    exact String.toList_injective (List.append_cancel_left hlist)
  have hstandard : ∀ e ∈ triggerVariables trigger, startsWith e.1 "steps_" = false := by
    intro e he
    have hname : e.1 ∈ standardVariables := List.mem_map_of_mem he
    revert hname
    generalize e.1 = name
    revert name
    decide
  constructor
  · intro hcons
    refine ⟨fun a ha b hb => hcons a ?_ b ?_, ?_⟩
    · exact List.mem_append_right _ (List.mem_append_right _ ha)
    · exact List.mem_append_right _ (List.mem_append_right _ hb)
    · cases hfield : trigger.webhookFields.lookup "is_reply" with
      | none => rfl
      | some value =>
          have hkept : (!(startsWith "is_reply" "trigger_" || startsWith "is_reply" "steps_")) =
              true := by decide
          have hweb : ("trigger_" ++ "is_reply", Value.string value) ∈
              webhookVariables trigger.webhookFields :=
            List.mem_map.2 ⟨⟨"is_reply", value⟩,
              List.mem_filter.2 ⟨mem_entries_iff.2 hfield, hkept⟩, rfl⟩
          have hstd : ("trigger_is_reply", Value.boolean trigger.isReply) ∈
              triggerVariables trigger := by
            unfold triggerVariables
            simp
          have hclash := hcons _ (List.mem_append_left _ hweb) _
            (List.mem_append_right _ (List.mem_append_left _ hstd))
            (show "trigger_" ++ "is_reply" = "trigger_is_reply" by decide)
          cases hclash
  · rintro ⟨hsteps, hfield⟩ a ha b hb hab
    -- Two assignments of one name come from the same part, or give both a string.
    have hcross : ∀ {a b : String × Value}, a ∈ webhookVariables trigger.webhookFields →
        b ∈ triggerVariables trigger → a.1 = b.1 → a.2.type = b.2.type := by
      intro a b ha hb hab
      obtain ⟨key, value, hlook, -, -, rfl⟩ := mem_webhookVariables ha
      rcases triggerVariables_type hb with hname | htype
      · rw [hreply (hab.trans hname), hfield] at hlook
        cases hlook
      · exact htype.symm
    have hapart : ∀ {a b : String × Value}, a ∈ webhookVariables trigger.webhookFields →
        b ∈ stepVariables stepOutputs → a.1 ≠ b.1 := by
      intro a b ha hb hab
      obtain ⟨key, value, -, -, -, rfl⟩ := mem_webhookVariables ha
      exact trigger_ne_steps (mem_stepVariables hb) hab.symm
    have hapart' : ∀ {a b : String × Value}, a ∈ triggerVariables trigger →
        b ∈ stepVariables stepOutputs → a.1 ≠ b.1 := by
      intro a b ha hb hab
      have hname := hstandard a ha
      rw [hab, mem_stepVariables hb] at hname
      cases hname
    rcases List.mem_append.1 ha with ha | ha
    · rcases List.mem_append.1 hb with hb | hb
      · obtain ⟨_, _, -, -, -, rfl⟩ := mem_webhookVariables ha
        obtain ⟨_, _, -, -, -, rfl⟩ := mem_webhookVariables hb
        rfl
      · rcases List.mem_append.1 hb with hb | hb
        · exact hcross ha hb hab
        · exact absurd hab (hapart ha hb)
    · rcases List.mem_append.1 ha with ha | ha
      · rcases List.mem_append.1 hb with hb | hb
        · exact (hcross hb ha hab.symm).symm
        · rcases List.mem_append.1 hb with hb | hb
          · have hnodup : ((triggerVariables trigger).map Prod.fst).Nodup := triggerVariables_nodup
            exact congrArg (fun e : String × Value => e.2.type)
              (List.inj_on_of_nodup_map hnodup ha hb hab)
          · exact absurd hab (hapart' ha hb)
      · rcases List.mem_append.1 hb with hb | hb
        · exact absurd hab.symm (hapart hb ha)
        · rcases List.mem_append.1 hb with hb | hb
          · exact absurd hab.symm (hapart' hb ha)
          · exact hsteps a ha b hb hab

theorem isOk_buildEvalContext :
    (buildEvalContext trigger stepOutputs).isOk = true ↔
      Consistent Value.type (stepVariables stepOutputs) ∧
        trigger.webhookFields.lookup "is_reply" = none := by
  rw [← consistent_assignments]
  rcases buildEvalContext_spec trigger stepOutputs with ⟨ctx, hok, hcons, -⟩ | ⟨⟨e, herr⟩, hcons⟩
  · rw [hok]
    exact ⟨fun _ => hcons, fun _ => rfl⟩
  · rw [herr]
    exact ⟨nofun, fun h => absurd h hcons⟩

/-! ## Two sets of webhook fields -/

/-- A variable that stands for one of the fields. -/
def IsWebhookVariable (fields : HMap String String) (x : String) : Prop :=
  ∃ key value, fields.lookup key = some value ∧ x = "trigger_" ++ key

/-- What is built does not depend on the fields at the standard variables, those
of the steps, and all that stand for no field. -/
theorem lookup_eq {fields' : HMap String String} {ctx' : EvalContext}
    (hctx : buildEvalContext { trigger with webhookFields := fields } stepOutputs = .ok ctx)
    (hctx' : buildEvalContext { trigger with webhookFields := fields' } stepOutputs = .ok ctx')
    (hx : x ∈ standardVariables ∨ ¬IsWebhookVariable fields x ∧ ¬IsWebhookVariable fields' x) :
    ctx.vars.lookup x = ctx'.vars.lookup x := by
  have hlook : ∀ {fields : HMap String String} {ctx : EvalContext},
      buildEvalContext { trigger with webhookFields := fields } stepOutputs = .ok ctx →
      x ∈ standardVariables ∨ ¬IsWebhookVariable fields x →
      ctx.vars.lookup x = lastValue x (triggerVariables trigger ++ stepVariables stepOutputs) := by
    intro fields ctx hctx hx
    rcases buildEvalContext_spec { trigger with webhookFields := fields } stepOutputs with
      ⟨c, hok, -, -, hlast⟩ | ⟨⟨e, herr⟩, -⟩
    · obtain rfl : c = ctx := Except.ok.inj (hok.symm.trans hctx)
      rw [hlast]
      unfold assignments
      rw [lastValue_append]
      -- A later assignment wins, and where there is none the field has no such name.
      rcases hx with hx | hx
      · have hsome :
            lastValue x (triggerVariables trigger ++ stepVariables stepOutputs) ≠ none := by
          rw [ne_eq, lastValue_eq_none_iff]
          intro hnone
          rw [← triggerVariables_names trigger] at hx
          obtain ⟨e, he, rfl⟩ := List.mem_map.1 hx
          exact hnone e (List.mem_append_left _ he) rfl
        obtain ⟨value, hvalue⟩ := Option.ne_none_iff_exists'.1 hsome
        rw [show triggerVariables { trigger with webhookFields := fields } =
          triggerVariables trigger from rfl, hvalue, Option.some_or]
      · have hnone : lastValue x (webhookVariables fields) = none := by
          refine lastValue_eq_none_iff.2 fun e he heq => hx ?_
          obtain ⟨key, value, hlook, -, -, rfl⟩ := mem_webhookVariables he
          exact ⟨key, value, hlook, heq.symm⟩
        rw [hnone, Option.or_none]
        rfl
    · rw [herr] at hctx
      cases hctx
  rw [hlook hctx (hx.imp_right And.left), hlook hctx' (hx.imp_right And.right)]

/-- An evaluation reads the variables the expression mentions, and the functions. -/
def Evalexpr.ReadsMentioned (evalexpr : Evalexpr) : Prop :=
  ∀ expr (ctx ctx' : EvalContext), ctx.functions = ctx'.functions →
    (∀ x ∈ evalexpr.mentions expr, ctx.vars.lookup x = ctx'.vars.lookup x) →
    evalexpr.evalBoolean expr ctx = evalexpr.evalBoolean expr ctx'

/-- The two sets of fields make no difference. -/
structure NotInterfering (evalexpr : Evalexpr) (trigger : TriggerContext)
    (stepOutputs : HMap String Json) (fields fields' : HMap String String) : Prop where
  together : (buildEvalContext { trigger with webhookFields := fields } stepOutputs).isOk =
    (buildEvalContext { trigger with webhookFields := fields' } stepOutputs).isOk
  same : ∀ ctx ctx',
    buildEvalContext { trigger with webhookFields := fields } stepOutputs = .ok ctx →
    buildEvalContext { trigger with webhookFields := fields' } stepOutputs = .ok ctx' →
    ∀ x, x ∈ standardVariables ∨ startsWith x "steps_" = true →
    ctx.vars.lookup x = ctx'.vars.lookup x
  condition : ∀ ctx ctx',
    buildEvalContext { trigger with webhookFields := fields } stepOutputs = .ok ctx →
    buildEvalContext { trigger with webhookFields := fields' } stepOutputs = .ok ctx' →
    ∀ expr, (∀ x ∈ evalexpr.mentions expr, x ∈ standardVariables ∨
      ¬IsWebhookVariable fields x ∧ ¬IsWebhookVariable fields' x) →
    evaluateCondition evalexpr expr { trigger with webhookFields := fields } stepOutputs =
      evaluateCondition evalexpr expr { trigger with webhookFields := fields' } stepOutputs

/-- They make none exactly when both or neither have a field `is_reply`, or the
steps alone make the context fail. -/
theorem notInterfering_iff (evalexpr : Evalexpr) (hreads : evalexpr.ReadsMentioned)
    (trigger : TriggerContext) (stepOutputs : HMap String Json)
    (fields fields' : HMap String String) :
    NotInterfering evalexpr trigger stepOutputs fields fields' ↔
      ((fields.lookup "is_reply").isSome = (fields'.lookup "is_reply").isSome ∨
        ¬Consistent Value.type (stepVariables stepOutputs)) := by
  have hok : ∀ fields : HMap String String,
      (buildEvalContext { trigger with webhookFields := fields } stepOutputs).isOk = true ↔
        Consistent Value.type (stepVariables stepOutputs) ∧ fields.lookup "is_reply" = none :=
    fun _ => isOk_buildEvalContext
  constructor
  · intro h
    by_cases hsteps : Consistent Value.type (stepVariables stepOutputs)
    · left
      have hiff := (hok fields).symm.trans ((Bool.eq_iff_iff.1 h.together).trans (hok fields'))
      rw [and_congr_right_iff] at hiff
      have hnone := hiff hsteps
      rw [Bool.eq_iff_iff, ← not_iff_not, Option.not_isSome_iff_eq_none,
        Option.not_isSome_iff_eq_none]
      exact hnone
    · exact .inr hsteps
  · intro h
    refine ⟨?_, fun ctx ctx' hctx hctx' x hx => ?_, fun ctx ctx' hctx hctx' expr hmentions => ?_⟩
    · rw [Bool.eq_iff_iff, hok, hok, and_congr_right_iff]
      intro hsteps
      rcases h with hsame | hnot
      · rw [← Option.not_isSome_iff_eq_none, ← Option.not_isSome_iff_eq_none, hsame]
      · exact absurd hsteps hnot
    · refine lookup_eq hctx hctx' (hx.imp_right fun hsteps => ⟨?_, ?_⟩)
      · rintro ⟨key, value, -, heq⟩
        exact trigger_ne_steps hsteps heq
      · rintro ⟨key, value, -, heq⟩
        exact trigger_ne_steps hsteps heq
    · have hfunctions : ∀ {t : TriggerContext} {c : EvalContext},
          buildEvalContext t stepOutputs = .ok c → c.functions = helperFunctions := by
        intro t c hc
        rcases buildEvalContext_spec t stepOutputs with ⟨c', hc', -, hf, -⟩ | ⟨⟨e, herr⟩, -⟩
        · obtain rfl : c' = c := Except.ok.inj (hc'.symm.trans hc)
          exact hf
        · rw [herr] at hc
          cases hc
      have heval : evalexpr.evalBoolean expr ctx = evalexpr.evalBoolean expr ctx' :=
        hreads expr ctx ctx' ((hfunctions hctx).trans (hfunctions hctx').symm)
          fun x hx => lookup_eq hctx hctx' (hmentions x hx)
      unfold evaluateCondition
      rw [hctx, hctx']
      show evaluateIn evalexpr expr ctx = evaluateIn evalexpr expr ctx'
      unfold evaluateIn
      rw [heval]

/-- What `evalexpr` does with an expression that is one identifier. -/
def identifiers : Evalexpr where
  mentions expr := [expr]
  evalBoolean expr ctx := .finished (match ctx.vars.lookup expr with
    | none => .error (.variableIdentifierNotFound expr)
    | some (.boolean b) => .ok b
    | some value => .error (.expectedType .boolean value))

theorem identifiers_readsMentioned : identifiers.ReadsMentioned := by
  intro expr ctx ctx' _ hlook
  show EvalRun.finished _ = EvalRun.finished _
  rw [hlook expr (List.mem_singleton_self expr)]

/-- Two bodies that both set `text` and `status`. -/
theorem notInterfering_status :
    NotInterfering identifiers { text := "deploy", isReply := true } ∅
      (webhookFields (some (.object [("status".toList, .string "ok".toList),
        ("text".toList, .bool true)])))
      (webhookFields (some (.object [("status".toList, .null)]))) :=
  (notInterfering_iff identifiers identifiers_readsMentioned _ _ _ _).2 (.inl (by decide +kernel))

/-- A body with the field `is_reply` makes the context fail, and an empty one does not. -/
theorem is_reply_interferes :
    ¬NotInterfering identifiers {} ∅
      (webhookFields (some (.object [("is_reply".toList, .string "x".toList)]))) ∅ := by
  intro h
  have hne : (buildEvalContext
      { webhookFields := webhookFields
          (some (.object [("is_reply".toList, .string "x".toList)])) } ∅).isOk ≠
      (buildEvalContext { webhookFields := ∅ } ∅).isOk := by decide +kernel
  exact hne h.together

end Buzz.Workflow
