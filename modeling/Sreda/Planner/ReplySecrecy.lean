import Mathlib.Data.List.Forall2
import Sreda.Planner.Composer

/-!
# What a failed step returned

A failed step may carry an output: the tool answered, and the answer could not be trusted. The
composer looks at outputs in five places, each with a filter of its own. Two logs are compared here
that differ in nothing but the outputs of steps that are not ok.

The voice is given the log too; here it is any function of the data, the key and the context.

## What is proved

* every place that reads an output reads the same from a log whose failed outputs are struck out
  (`byStepId_redacted` to `presenterTargetStep_redacted`);
* the reply does not depend on a failed output, and a run that did not complete is replied to by the
  primary composition alone (`compose_hides_failures`).
-/

namespace Sreda.Planner

/-- `LLMComposer`, as a function of the data. -/
abbrev Voice := String → Dict → ComposerContext → Except PyException LlmComposition

def Voice.composer (voice : Voice) : LlmComposer := fun key data _ ctx => voice key data ctx

def ComposeOptions.voicedBy (options : ComposeOptions) (voice : Option Voice) : ComposeOptions :=
  { options with llmComposer := voice.map Voice.composer }

/-! ### Two logs -/

/-- Two results of a step that differ at most in the output, and not even there when the step is ok. -/
structure StepResult.Alike (step step' : StepResult) : Prop where
  same : step' = { step with parsedOutput := step'.parsedOutput }
  output : step.status = .ok → step'.parsedOutput = step.parsedOutput

/-- Two logs that differ at most in the outputs of steps that are not ok. -/
structure ExecutionLog.Alike (log log' : ExecutionLog) : Prop where
  same : log' = { log with steps := log'.steps }
  steps : List.Forall₂ StepResult.Alike log.steps log'.steps

/-! ### Striking out -/

/-- The result without its output, unless it is ok. -/
def StepResult.redacted (step : StepResult) : StepResult :=
  if step.status = .ok then step else { step with parsedOutput := none }

/-- The log without the outputs of the steps that are not ok. -/
def ExecutionLog.redacted (log : ExecutionLog) : ExecutionLog :=
  { log with steps := log.steps.map StepResult.redacted }

section Redacted

variable {step step' : StepResult} {log log' : ExecutionLog}

theorem StepResult.redacted_of_ok (h : step.status = .ok) : step.redacted = step := if_pos h

@[simp] theorem StepResult.redacted_stepId (step : StepResult) : step.redacted.stepId = step.stepId := by
  unfold redacted
  split <;> rfl

@[simp] theorem StepResult.redacted_tool (step : StepResult) : step.redacted.tool = step.tool := by
  unfold redacted
  split <;> rfl

@[simp] theorem StepResult.redacted_status (step : StepResult) : step.redacted.status = step.status := by
  unfold redacted
  split <;> rfl

@[simp] theorem StepResult.redacted_errorSummary (step : StepResult) : step.redacted.errorSummary = step.errorSummary := by
  unfold redacted
  split <;> rfl

@[simp] theorem StepResult.redacted_selectedCompose (step : StepResult) :
    step.redacted.selectedCompose = step.selectedCompose := by
  unfold redacted
  split <;> rfl

theorem StepResult.Alike.redacted_eq (h : step.Alike step') : step.redacted = step'.redacted := by
  have hstatus : step'.status = step.status := by rw [h.same]
  by_cases hok : step.status = .ok
  · rw [redacted_of_ok hok, redacted_of_ok (hstatus.trans hok), h.same, h.output hok]
  · rw [redacted, redacted, if_neg hok, hstatus, if_neg hok, h.same]

theorem map_redacted_eq {steps steps' : List StepResult} (h : List.Forall₂ StepResult.Alike steps steps') :
    steps.map StepResult.redacted = steps'.map StepResult.redacted := by
  induction h with
  | nil => rfl
  | cons hstep _ ih => rw [List.map_cons, List.map_cons, hstep.redacted_eq, ih]

/-- Logs that differ in failed outputs only are one log when these are struck out. -/
theorem ExecutionLog.Alike.redacted_eq (h : log.Alike log') : log.redacted = log'.redacted := by
  rw [redacted, map_redacted_eq h.steps, h.same, redacted]

end Redacted

/-! ### The places that read an output -/

namespace ExecutionLog

variable (log : ExecutionLog)

theorem byStepId_redacted (stepId : String) :
    log.redacted.byStepId stepId = (log.byStepId stepId).map StepResult.redacted := by
  simp only [byStepId, redacted, ← List.map_reverse, List.find?_map, Function.comp_def, StepResult.redacted_stepId]

theorem terminalComposes_redacted : log.redacted.terminalComposes = log.terminalComposes := by
  simp only [terminalComposes, redacted, List.filterMap_map, Function.comp_def, StepResult.redacted_status,
    StepResult.redacted_selectedCompose, StepResult.redacted_stepId]

theorem stepOutputs_redacted : log.redacted.stepOutputs = log.stepOutputs := by
  simp only [stepOutputs, redacted, List.filterMap_map]
  congr 2
  funext step
  by_cases hok : step.status = .ok
  · rw [Function.comp_apply, StepResult.redacted_of_ok hok]
  · rw [Function.comp_apply, StepResult.redacted_status, if_neg hok, if_neg hok]

end ExecutionLog

section Places

variable (env : ComposeEnv) (log : ExecutionLog) (call : ComposerCall)

theorem pickEffectiveCall_redacted : pickEffectiveCall call log.redacted = pickEffectiveCall call log := by
  rw [pickEffectiveCall, ExecutionLog.terminalComposes_redacted]
  rfl

/-- A failure is narrated by its status, a step that is ok by its output. -/
theorem narrate_redacted (stepId : String) : narrate env log.redacted stepId = narrate env log stepId := by
  rw [narrate, narrate, log.byStepId_redacted]
  cases log.byStepId stepId with
  | none => rfl
  | some step =>
    simp only [Option.map_some, StepResult.redacted_status, StepResult.redacted_tool, StepResult.redacted_errorSummary]
    cases hstatus : step.status with
    | ok => rw [StepResult.redacted_of_ok hstatus]
    | _ => rfl

theorem normalizeHumanizeResult_redacted (data : Dict) :
    normalizeHumanizeResult env data log.redacted = normalizeHumanizeResult env data log := by
  rw [normalizeHumanizeResult, normalizeHumanizeResult, funext (narrate_redacted env log)]

/-- The empty menu is a step that is ok, and so are the steps that speak against it. -/
theorem menuEmptyOverride_redacted (result : ComposeResult) :
    menuEmptyOverride env result log.redacted call = menuEmptyOverride env result log call := by
  have hmenu : ∀ referenced : List String,
      (fun step : StepResult => decide (step.stepId ∈ referenced ∧ step.tool = "list_menu" ∧ step.status = .ok ∧
        domainStatus? step = some "empty")) ∘ StepResult.redacted =
      fun step => decide (step.stepId ∈ referenced ∧ step.tool = "list_menu" ∧ step.status = .ok ∧
        domainStatus? step = some "empty") := by
    intro referenced
    funext step
    by_cases hok : step.status = .ok
    · rw [Function.comp_apply, StepResult.redacted_of_ok hok]
    · simp [hok]
  simp only [menuEmptyOverride, ExecutionLog.redacted, List.find?_map, hmenu, List.any_map, Function.comp_def,
    StepResult.redacted_stepId, StepResult.redacted_status]
  cases htarget : log.steps.find? _ with
  | none => rfl
  | some target =>
    have hfound := List.find?_some htarget
    have hok : target.status = .ok := (of_decide_eq_true hfound).2.2.1
    rw [Option.map_some, StepResult.redacted_of_ok hok]

theorem presenterTargetStep_redacted (referenced : List String) :
    presenterTargetStep log.redacted referenced = presenterTargetStep log referenced := by
  simp only [presenterTargetStep, ExecutionLog.redacted, List.filterMap_map]
  congr 2
  funext step
  by_cases hok : step.status = .ok
  · rw [Function.comp_apply, StepResult.redacted_of_ok hok]
  · simp [hok]

theorem presenterDisplayFallback_redacted (result : ComposeResult) :
    presenterDisplayFallback env result log.redacted call = presenterDisplayFallback env result log call := by
  rw [presenterDisplayFallback, presenterTargetStep_redacted]
  rfl

end Places

/-! ### The reply -/

section Reply

variable (env : ComposeEnv) (call : ComposerCall) (log : ExecutionLog) (options : ComposeOptions) (voice : Option Voice)

theorem renderLlmResult_redacted (key : String) (data : Dict) (ctx : Option ComposerContext) (conversational : Option String) :
    renderLlmResult env (voice.map Voice.composer) key data log.redacted ctx conversational =
      renderLlmResult env (voice.map Voice.composer) key data log ctx conversational := by
  cases voice with
  | none => rfl
  | some voice => rfl

theorem composeResolved_redacted :
    composeResolved env call log.redacted (options.voicedBy voice) = composeResolved env call log (options.voicedBy voice) := by
  simp only [composeResolved, ComposeOptions.voicedBy, log.stepOutputs_redacted, renderLlmResult_redacted]
  rfl

theorem composeImpl_redacted :
    composeImpl env call log.redacted (options.voicedBy voice) = composeImpl env call log (options.voicedBy voice) := by
  simp only [composeImpl, pickEffectiveCall_redacted, normalizeHumanizeResult_redacted, composeResolved_redacted]
  simp only [ComposeOptions.voicedBy, renderLlmResult_redacted]
  rfl

theorem compose_redacted :
    compose env call log.redacted (options.voicedBy voice) = compose env call log (options.voicedBy voice) := by
  simp only [compose, composeImpl_redacted, pickEffectiveCall_redacted, menuEmptyOverride_redacted,
    presenterDisplayFallback_redacted]

/-- **What a failed step returned never reaches the user**: two logs that differ in such outputs only are replied to
alike. And the overrides leave the reply to a run that did not complete as it is. -/
theorem compose_hides_failures :
    (∀ log', log.Alike log' →
      compose env call log' (options.voicedBy voice) = compose env call log (options.voicedBy voice)) ∧
    (log.outcome ≠ .completed → compose env call log options = composeImpl env call log options) := by
  constructor
  · intro log' halike
    rw [← compose_redacted env call log', ← halike.redacted_eq, compose_redacted]
  · intro houtcome
    have hmenu : ∀ result called, menuEmptyOverride env result log called = none := fun _ _ => if_pos houtcome
    have hshown : ∀ result called, presenterDisplayFallback env result log called = result := fun _ _ =>
      if_neg fun h => houtcome h.1
    simp only [compose, hmenu, hshown]
    exact bind_pure _

end Reply

end Sreda.Planner
