import Sreda.Lib.PyText
import Sreda.Planner.Executor

/-!
# The composer

`services/composer/compose.py`: the reply to a turn, from the composer call of the plan and the log of its run. What
cannot be composed falls back to a template: `partial_with_compose_error` says that the actions are done,
`generic_tool_error` that something is broken. Two overrides look at what came out.

The templates, the presenters, the pool of breakdown phrases and the voice are any functions. Metrics and log messages
are left out.

## What is proved

* when a reply says that the actions are done (`compose_claims`): the effective call could not be composed, or is
  itself that template; the voice, the normaliser and the overrides never lead to it.
-/

namespace Sreda.Planner

open Sreda.Lib

/-! ### Data -/

/-- `ComposerContext`, of which the composer reads the identity. -/
structure ComposerContext where
  tenantId : String := "unknown"
  runId : String := "unknown"

/-- `LLMComposerResult`; a composer that returns a string has no metadata. -/
structure LlmComposition where
  text : String
  provider : Option String := none
  model : Option String := none
  latencyMs : Option ℤ := none

/-- `LLMComposer`. -/
abbrev LlmComposer := String → Dict → ExecutionLog → ComposerContext → Except PyException LlmComposition

/-- What `registry.render` raises. -/
inductive RenderFailure where
  | unknownTemplate
  | templateError (type : String)
  /-- Another exception, from inside of the template. -/
  | other (exc : PyException)

/-- What the composer is given. -/
structure ComposeEnv where
  py : Py
  /-- `registry.render`. -/
  render : String → Dict → Except RenderFailure String
  snapshotHash : String
  llmSnapshotHash : String
  /-- `render_display_text`. -/
  renderDisplayText : String → Option Dict → String → Except PyException String
  /-- `render_execution_failure`. -/
  renderExecutionFailure : String → String → Option String → Except PyException String
  isKnownDomainStatus : String → String → Bool
  breakdownPool : List String

/-- `FallbackUsed`. -/
inductive FallbackUsed where
  | composeError | genericError | conversationalFallback | menuEmptyOverride | presenterDisplayFallback
deriving DecidableEq

/-- Where a text comes from. -/
inductive ReplySource where
  | template (id : String)
  /-- The literals that stand in for the two fallback templates. -/
  | composeErrorText
  | genericErrorText
  | voice
  | display
deriving DecidableEq

/-- `ComposeResult`, with where its text comes from and whether the voice was asked. -/
structure ComposeResult where
  text : String
  fallbackUsed : Option FallbackUsed := none
  errorCode : Option String := none
  effectiveTemplateId : Option String := none
  effectiveLlmPromptKey : Option String := none
  composerProvider : Option String := none
  composerModel : Option String := none
  composerLatencyMs : Option ℤ := none
  source : ReplySource
  voiced : Bool := false

def fallbackComposeError : String := "partial_with_compose_error"

def fallbackGenericError : String := "generic_tool_error"

/-- The text says that what was asked has been done. -/
def ReplySource.ClaimsDone : ReplySource → Prop
  | .template id => id = fallbackComposeError
  | .composeErrorText => True
  | _ => False

/-! ### The log -/

namespace ExecutionLog

variable (log : ExecutionLog)

/-- `by_step_id`, at one id: the last one wins. -/
def byStepId (stepId : String) : Option StepResult := log.steps.reverse.find? (·.stepId = stepId)

/-- `terminal_composes`. -/
def terminalComposes : List (String × ComposerCall) :=
  log.steps.filterMap fun step => if step.status = .ok then step.selectedCompose.map (step.stepId, ·) else none

/-- `_step_outputs_for_refs`; the last step of an id wins. -/
def stepOutputs : List (String × Dict) :=
  (log.steps.filterMap fun step => if step.status = .ok then step.parsedOutput.map (step.stepId, ·) else none).reverse

/-- `_PLANNER_OWNED_OUTCOMES`. -/
def plannerOwned : Bool := log.outcome = .completed || log.outcome = .partialFailure

end ExecutionLog

/-- `_pick_effective_call`. -/
def pickEffectiveCall (call : ComposerCall) (log : ExecutionLog) : ComposerCall :=
  if log.outcome ≠ .completed then call
  else match log.terminalComposes with
    | [(_, override)] => override
    | _ => call

/-- `_execution_summary`: the names of the tools are not for the user. -/
def executionSummary (_ : ExecutionLog) : String := ""

/-- `text.strip()`. -/
def stripText (text : String) : String := String.ofList (PyText.strip text.toList)

/-! ### The form `actions: [{step_id}]` -/

/-- `_EMBEDDED_REF_RE.search`: `\$\{[^}]*\}`. -/
def hasEmbeddedRef : List Char → Bool
  | [] => false
  | c :: cs => (c = '$' && cs.head? = some '{' && cs.contains '}') || hasEmbeddedRef cs

/-- `is_step_id_action_item`, with the id. -/
def stepIdOf? : Value → Option String
  | .dict [("step_id", .str stepId)] => if stripText stepId = "" then none else some stepId
  | _ => none

/-- `is_step_id_narration_form`, with the intent and the ids. -/
def narrationForm? (data : Dict) : Option (String × List String) :=
  match data.lookup "intent", data.lookup "actions" with
  | some (.str intent), some (.list (item :: items)) =>
    if data.all (fun kv => kv.1 = "intent" || kv.1 = "actions") ∧ stripText intent ≠ "" ∧ hasEmbeddedRef intent.toList = false then
      ((item :: items).mapM stepIdOf?).map (intent, ·)
    else none
  | _, _ => none

/-- `_effective_call_referenced_step_ids`. -/
def referencedStepIds (py : Py) (call : ComposerCall) : List String :=
  (iterRefs py (.dict call.templateData)).map extractStepId ++
    if call.kind = .llm then ((narrationForm? call.templateData).map Prod.snd).getD [] else []

section Compose

variable (env : ComposeEnv)

/-! ### Fallbacks -/

/-- A fallback template, or the literal that stands in for it. -/
def renderFallback (id : String) (data : Dict) (literal : String) (source : ReplySource) :
    Except PyException (String × ReplySource) :=
  match env.render id data with
  | .ok text => .ok (text, .template id)
  | .error (.other exc) => .error exc
  | .error _ => .ok (literal, source)

/-- `_result_compose_error`. -/
def resultComposeError (log : ExecutionLog) (errorCode : String) (templateId llmPromptKey : Option String) :
    Except PyException ComposeResult := do
  let summary := executionSummary log
  let (text, source) ← renderFallback env fallbackComposeError
    (if summary ≠ "" then [("execution_summary", .str summary)] else [])
    "Сделала что просила, но с финальным сообщением что-то пошло не так. Действия выполнены." .composeErrorText
  return {
    text, source, fallbackUsed := some .composeError, errorCode := some errorCode, effectiveTemplateId := templateId,
    effectiveLlmPromptKey := llmPromptKey }

/-- `_result_generic_error`. -/
def resultGenericError (errorCode : String) (llmPromptKey : Option String) (voiced : Bool) :
    Except PyException ComposeResult := do
  let (text, source) ← renderFallback env fallbackGenericError [("error_code", .str errorCode)]
    "Что-то пошло не так с моей внутренней логикой. Попробуй ещё раз через минуту." .genericErrorText
  return {
    text, source, fallbackUsed := some .genericError, errorCode := some errorCode, effectiveLlmPromptKey := llmPromptKey,
    voiced }

/-- `_result_conversational_fallback`. -/
def resultConversationalFallback (templateId errorCode : String) (llmPromptKey : Option String) (voiced : Bool) :
    Except PyException ComposeResult :=
  match env.render templateId [] with
  | .ok text => .ok {
      text, source := .template templateId, fallbackUsed := some .conversationalFallback, errorCode := some errorCode,
      effectiveTemplateId := some templateId, effectiveLlmPromptKey := llmPromptKey, voiced }
  | .error (.other exc) => .error exc
  | .error .unknownTemplate =>
    resultGenericError env "conversational_fallback_render_error:UnknownTemplateError" llmPromptKey voiced
  | .error (.templateError type) =>
    resultGenericError env ("conversational_fallback_render_error:" ++ type) llmPromptKey voiced

/-- The fallback of a voice that fails. -/
def voiceFallback (conversational : Option String) (errorCode llmPromptKey : String) (voiced : Bool) :
    Except PyException ComposeResult :=
  match conversational with
  | some templateId => resultConversationalFallback env templateId errorCode (some llmPromptKey) voiced
  | none => resultGenericError env errorCode (some llmPromptKey) voiced

/-! ### The two kinds of a call -/

/-- `_render_template_result`. -/
def renderTemplateResult (templateId : Option String) (data : Dict) (log : ExecutionLog) :
    Except PyException ComposeResult :=
  match templateId.filter (· ≠ "") with
  | none => resultGenericError env "invalid_template_call" none false
  | some id =>
    match env.render id data with
    | .ok text => .ok { text, source := .template id, effectiveTemplateId := some id }
    | .error .unknownTemplate => resultComposeError env log "unknown_template" (some id) none
    | .error (.templateError type) =>
      resultComposeError env log ("template_render_error:" ++ type) (some id) none
    | .error (.other exc) => .error exc

/-- `not ctx_provided or _ctx_has_unknown_identity(ctx)`. -/
def unknownIdentity : Option ComposerContext → Bool
  | none => true
  | some ctx => ctx.tenantId = "unknown" || ctx.runId = "unknown"

/-- `_render_llm_result`. -/
def renderLlmResult (composer : Option LlmComposer) (llmPromptKey : String) (data : Dict) (log : ExecutionLog)
    (ctx : Option ComposerContext) (conversational : Option String) : Except PyException ComposeResult :=
  if unknownIdentity ctx then resultGenericError env "llm_context_missing" (some llmPromptKey) false
  else match composer with
    | none => voiceFallback env conversational "llm_composer_not_wired" llmPromptKey false
    | some composer =>
      match composer llmPromptKey data log (ctx.getD {}) with
      | .error exc => voiceFallback env conversational ("llm_composer_error:" ++ exc.type) llmPromptKey true
      | .ok raw =>
        if stripText raw.text = "" then voiceFallback env conversational "llm_composer_blank_output" llmPromptKey true
        else .ok {
          text := raw.text, source := .voice, effectiveLlmPromptKey := some llmPromptKey, composerProvider := raw.provider,
          composerModel := raw.model, composerLatencyMs := raw.latencyMs, voiced := true }

/-! ### The normaliser -/

/-- What `_normalize_humanize_result` answers. -/
inductive Normalized where
  | fallThrough
  | normalized (data : Dict)
  | shortCircuit

/-- The public status of a step that is ok, and the one its text is looked up by. -/
def narratedStatus (step : StepResult) : String × String :=
  match (step.parsedOutput.getD []).lookup "status" with
  | some (.str status) =>
    if stripText status = "" then ("unknown", "unknown")
    else (if env.isKnownDomainStatus step.tool status then status else "unknown", status)
  | _ => ("unknown", "unknown")

/-- What one referenced step adds: an entry, or a failure that is not told. -/
def narrate (log : ExecutionLog) (stepId : String) : Except PyException (Option (String × String) × Bool) :=
  match log.byStepId stepId with
  | none => do return (some (← env.renderExecutionFailure stepId "error" none, "fallback"), false)
  | some step =>
    match step.status with
    | .ok => do
      let (shown, looked) := narratedStatus env step
      return (some (← env.renderDisplayText step.tool step.parsedOutput looked, shown), false)
    -- a branch that was not taken is no failure; every other reason is one
    | .skipped => .ok (none, step.errorSummary.getD "" ≠ "branch_not_selected")
    | status => do return (some (← env.renderExecutionFailure step.tool status.text step.errorSummary, "error"), false)

def narrationEntry (entry : String × String) : Value :=
  .dict [("user_visible_summary", .str entry.1), ("status", .str entry.2)]

/-- `_normalize_humanize_result`. -/
def normalizeHumanizeResult (data : Dict) (log : ExecutionLog) : Except PyException Normalized :=
  match narrationForm? data with
  | none => .ok .fallThrough
  | some (intent, stepIds) => do
    let narrated ← stepIds.mapM (narrate env log)
    let entries := narrated.filterMap Prod.fst
    if entries.isEmpty then return .shortCircuit
    let disclaimer := if narrated.any Prod.snd then [("Часть действий выполнить не удалось.", "fallback")] else []
    return .normalized [("intent", .str intent), ("actions", .list ((entries ++ disclaimer).map narrationEntry))]

/-! ### Composing -/

/-- The keyword arguments of `compose`. -/
structure ComposeOptions where
  llmComposer : Option LlmComposer := none
  ctx : Option ComposerContext := none
  expectedSnapshotHash : Option String := none
  expectedLlmSnapshotHash : Option String := none

/-- A snapshot was expected, under an outcome that the planner owns, and it is another one. -/
def snapshotDiffers (expected : Option String) (actual : String) (log : ExecutionLog) : Bool :=
  log.plannerOwned && match expected with
    | some hash => hash ≠ actual
    | none => false

/-- `_compose_impl` from the references on. -/
def composeResolved (call : ComposerCall) (log : ExecutionLog) (options : ComposeOptions) : Except PyException ComposeResult :=
  match resolveRefs env.py (.dict call.templateData) log.stepOutputs with
  | .error _ => resultComposeError env log "ref_resolve_error:InvalidReferenceError" call.templateId call.llmPromptKey
  | .ok resolved =>
    let data := match resolved with
      | .dict data => data
      | _ => []
    match call.kind with
    | .template => renderTemplateResult env call.templateId data log
    | .llm =>
      let key := call.llmPromptKey.getD ""
      renderLlmResult env options.llmComposer key data log options.ctx
        (if key = "smalltalk" then some "smalltalk_fallback" else none)

/-- `_compose_impl`. -/
def composeImpl (call : ComposerCall) (log : ExecutionLog) (options : ComposeOptions) : Except PyException ComposeResult :=
  let effective := pickEffectiveCall call log
  if snapshotDiffers options.expectedSnapshotHash env.snapshotHash log then
    resultComposeError env log "registry_hash_mismatch" effective.templateId effective.llmPromptKey
  else if effective.kind = .llm then
    if unknownIdentity options.ctx then resultGenericError env "llm_context_missing" effective.llmPromptKey false
    else if effective.llmPromptKey.getD "" = "" then resultGenericError env "invalid_llm_call" none false
    else if snapshotDiffers options.expectedLlmSnapshotHash env.llmSnapshotHash log then
      resultComposeError env log "llm_registry_hash_mismatch" none effective.llmPromptKey
    else if effective.llmPromptKey = some "humanize_result" then do
      match ← normalizeHumanizeResult env effective.templateData log with
      | .shortCircuit => resultGenericError env "humanize_all_actions_omitted" effective.llmPromptKey false
      | .normalized data => renderLlmResult env options.llmComposer "humanize_result" data log options.ctx none
      | .fallThrough => composeResolved env effective log options
    else composeResolved env effective log options
  else composeResolved env effective log options

/-! ### The overrides -/

/-- The domain status of a step. -/
def domainStatus? (step : StepResult) : Option String :=
  match step.parsedOutput.bind fun parsed => parsed.lookup "status" with
  | some (.str status) => some status
  | _ => none

/-- A display that the presenter has, and that is no breakdown phrase. -/
def displayOf? (step : StepResult) (status : String) : Option String :=
  match env.renderDisplayText step.tool step.parsedOutput status with
  | .ok display => if display = "" ∨ display ∈ env.breakdownPool then none else some display
  | .error _ => none

/-- `_maybe_menu_empty_override`. -/
def menuEmptyOverride (result : ComposeResult) (log : ExecutionLog) (call : ComposerCall) : Option ComposeResult :=
  let referenced := referencedStepIds env.py call
  if log.outcome ≠ .completed then none
  else do
    let target ← log.steps.find? fun step => step.stepId ∈ referenced ∧ step.tool = "list_menu" ∧ step.status = .ok ∧
      domainStatus? step = some "empty"
    if log.steps.any fun step => step.stepId ≠ target.stepId && referenced.contains step.stepId && step.status = .ok then none
    else do
      let display ← displayOf? env target "empty"
      some { result with text := display, fallbackUsed := some .menuEmptyOverride, source := .display }

/-- `_is_breakdown_origin`. -/
def isBreakdownOrigin (result : ComposeResult) (call : ComposerCall) : Bool :=
  (call.kind = .template && (call.templateId = some "generic_tool_error" || call.templateId = some "invalid_plan_fallback")) ||
    result.fallbackUsed = some .genericError

/-- `_presenter_fallback_target_step`. -/
def presenterTargetStep (log : ExecutionLog) (referenced : List String) : Option (StepResult × String) :=
  let candidates := log.steps.filterMap fun step =>
    if referenced.contains step.stepId && step.status = .ok then
      (domainStatus? step).bind fun status => if status = "ok" ∨ status = "empty" then some (step, status) else none
    else none
  match candidates with
  | [candidate] => some candidate
  | _ => none

/-- `_maybe_presenter_display_fallback`. -/
def presenterDisplayFallback (result : ComposeResult) (log : ExecutionLog) (call : ComposerCall) : ComposeResult :=
  if log.outcome = .completed ∧ result.text ∈ env.breakdownPool ∧ isBreakdownOrigin result call = true then
    match (presenterTargetStep log (referencedStepIds env.py call)).bind fun (step, status) => displayOf? env step status with
    | some display => { result with text := display, fallbackUsed := some .presenterDisplayFallback, source := .display }
    | none => result
  else result

/-- `compose`. -/
def compose (call : ComposerCall) (log : ExecutionLog) (options : ComposeOptions) : Except PyException ComposeResult := do
  let result ← composeImpl env call log options
  let effective := pickEffectiveCall call log
  match menuEmptyOverride env result log effective with
  | some overridden => return overridden
  | none => return presenterDisplayFallback env result log effective

end Compose

/-! ### When a reply says that the actions are done -/

/-- Why a call cannot be composed, or says by itself that the actions are done. -/
inductive Uncomposable (env : ComposeEnv) (log : ExecutionLog) (options : ComposeOptions) (call : ComposerCall) : Prop where
  | snapshot (h : snapshotDiffers options.expectedSnapshotHash env.snapshotHash log = true)
  | promptSnapshot (hkind : call.kind = .llm) (h : snapshotDiffers options.expectedLlmSnapshotHash env.llmSnapshotHash log = true)
  | reference (error : InvalidReferenceError) (h : resolveRefs env.py (.dict call.templateData) log.stepOutputs = .error error)
  | template (hkind : call.kind = .template) (id : String) (hid : call.templateId = some id) (data : Dict)
      (failure : RenderFailure) (h : env.render id data = .error failure)
  | named (hkind : call.kind = .template) (h : call.templateId = some fallbackComposeError)

section Claims

variable {env : ComposeEnv} {log : ExecutionLog} {options : ComposeOptions} {call : ComposerCall} {r : ComposeResult}

theorem renderFallback_source {id literal : String} {data : Dict} {source : ReplySource} {out : String × ReplySource}
    (h : renderFallback env id data literal source = .ok out) : out.2 = .template id ∨ out.2 = source := by
  unfold renderFallback at h
  split at h
  · cases h
    exact .inl rfl
  · cases h
  · cases h
    exact .inr rfl

theorem resultGenericError_claims {errorCode : String} {key : Option String} {voiced : Bool}
    (h : resultGenericError env errorCode key voiced = .ok r) : ¬ r.source.ClaimsDone := by
  obtain ⟨⟨text, source⟩, hout, h⟩ := Value.bind_ok.mp h
  cases h
  rcases renderFallback_source hout with hs | hs
  · rw [show source = _ from hs]
    exact fun hid : fallbackGenericError = fallbackComposeError => absurd hid (by decide)
  · rw [show source = _ from hs]
    exact id

/-- The fallbacks of the voice say nothing of actions. -/
theorem voiceFallback_claims {conversational : Option String} {errorCode key : String} {voiced : Bool}
    (hconv : conversational ≠ some fallbackComposeError) (h : voiceFallback env conversational errorCode key voiced = .ok r) :
    ¬ r.source.ClaimsDone := by
  unfold voiceFallback at h
  split at h
  next id =>
    unfold resultConversationalFallback at h
    split at h
    · cases h
      exact fun hid : id = fallbackComposeError => hconv (congrArg some hid)
    · cases h
    · exact resultGenericError_claims h
    · exact resultGenericError_claims h
  · exact resultGenericError_claims h

/-- **Whatever the voice answers**, or when it fails, the reply does not say that the actions are done. -/
theorem renderLlmResult_claims {composer : Option LlmComposer} {key : String} {data : Dict} {ctx : Option ComposerContext}
    {conversational : Option String} (hconv : conversational ≠ some fallbackComposeError)
    (h : renderLlmResult env composer key data log ctx conversational = .ok r) : ¬ r.source.ClaimsDone := by
  unfold renderLlmResult at h
  split at h
  · exact resultGenericError_claims h
  split at h
  · exact voiceFallback_claims hconv h
  split at h
  · exact voiceFallback_claims hconv h
  split at h
  · exact voiceFallback_claims hconv h
  · cases h
    exact id

/-- A template says so when it fails, or is the one that says so. -/
theorem renderTemplateResult_claims {templateId : Option String} {data : Dict}
    (h : renderTemplateResult env templateId data log = .ok r) (hclaims : r.source.ClaimsDone) :
    ∃ id, templateId = some id ∧ (id = fallbackComposeError ∨ ∃ failure, env.render id data = .error failure) := by
  unfold renderTemplateResult at h
  split at h
  · exact absurd hclaims (resultGenericError_claims h)
  next id hid =>
    refine ⟨id, (Option.filter_eq_some_iff.mp hid).1, ?_⟩
    split at h
    · cases h
      exact .inl hclaims
    next hrender => exact .inr ⟨_, hrender⟩
    next hrender => exact .inr ⟨_, hrender⟩
    · cases h

theorem composeResolved_claims (h : composeResolved env call log options = .ok r) (hclaims : r.source.ClaimsDone) :
    Uncomposable env log options call := by
  unfold composeResolved at h
  split at h
  next error herror => exact .reference error herror
  next resolved _ =>
    dsimp only at h
    split at h
    next hkind =>
      obtain ⟨id, hid, rfl | ⟨failure, hfailure⟩⟩ := renderTemplateResult_claims h hclaims
      · exact .named hkind hid
      · exact .template hkind id hid _ failure hfailure
    · refine absurd hclaims (renderLlmResult_claims ?_ h)
      split <;> simp [fallbackComposeError]

theorem composeImpl_claims (h : composeImpl env call log options = .ok r) (hclaims : r.source.ClaimsDone) :
    Uncomposable env log options (pickEffectiveCall call log) := by
  unfold composeImpl at h
  dsimp only at h
  split at h
  next hsnapshot => exact .snapshot hsnapshot
  split at h
  next hkind =>
    split at h
    · exact absurd hclaims (resultGenericError_claims h)
    split at h
    · exact absurd hclaims (resultGenericError_claims h)
    split at h
    next hprompt => exact .promptSnapshot hkind hprompt
    split at h
    · obtain ⟨normalized, -, h⟩ := Value.bind_ok.mp h
      cases normalized with
      | shortCircuit => exact absurd hclaims (resultGenericError_claims h)
      | normalized data => exact absurd hclaims (renderLlmResult_claims (by simp) h)
      | fallThrough => exact composeResolved_claims h hclaims
    · exact composeResolved_claims h hclaims
  · exact composeResolved_claims h hclaims

theorem menuEmptyOverride_source {result overridden : ComposeResult} (h : menuEmptyOverride env result log call = some overridden) :
    overridden.source = .display := by
  unfold menuEmptyOverride at h
  dsimp only at h
  split at h
  · cases h
  · obtain ⟨target, -, h⟩ := Option.bind_eq_some_iff.mp h
    split at h
    · cases h
    · obtain ⟨display, -, h⟩ := Option.bind_eq_some_iff.mp h
      cases h
      rfl

theorem presenterDisplayFallback_source (env : ComposeEnv) (log : ExecutionLog) (call : ComposerCall) (result : ComposeResult) :
    presenterDisplayFallback env result log call = result ∨ (presenterDisplayFallback env result log call).source = .display := by
  unfold presenterDisplayFallback
  split
  · split
    · exact .inr rfl
    · exact .inl rfl
  · exact .inl rfl

/-- **A reply that says that the actions are done** is one that could not be composed. -/
theorem compose_claims (h : compose env call log options = .ok r) (hclaims : r.source.ClaimsDone) :
    Uncomposable env log options (pickEffectiveCall call log) := by
  obtain ⟨result, hresult, h⟩ := Value.bind_ok.mp h
  dsimp only at h
  split at h
  next overridden hmenu =>
    cases h
    rw [menuEmptyOverride_source hmenu] at hclaims
    exact absurd hclaims id
  · cases h
    rcases presenterDisplayFallback_source env log (pickEffectiveCall call log) result with hsame | hshown
    · rw [hsame] at hclaims
      exact composeImpl_claims hresult hclaims
    · rw [hshown] at hclaims
      exact absurd hclaims id

end Claims

end Sreda.Planner
