import Sreda.Lib.PyText
import Sreda.Planner.ToolSpec

/-!
# One run of the planner

The module `orchestrator`, `run`, with `insert_pending`, `mark_received`, `mark_invalid` and
`mark_valid` of `persistence` and the reader `parse_planner_json`. A run asks the model for a plan,
and once more when the answer is no valid plan; each stage is a transaction of its own.

The calls of the model and the failures of the database are given. `json.loads`, the schema, the
validator and the compiler are functions of what they are given: each returns, raises the exception
that `run` catches, or raises another one. The dump of a plan is part of its last transaction.
Logs, alerts and the composer keys are left out, and so are the columns that no stage sets.

## What is proved

* what one attempt does (`attempt_spec`);
* a run makes at most two calls, returns a plan only with its compiled form, and leaves the row
  valid or invalid, exactly when no stage raises what `run` does not catch (`run_right_iff`).
-/

namespace Sreda.Planner.Orchestrator

open Sreda.Lib.PyText (strip)

/-! ### The stages -/

/-- An exception of a stage: the one that `run` catches there, with its text, or another. -/
inductive StageError where
  | expected (message : String)
  | other (exc : PyException)

/-- `Violation`: its code, and how `render_violations` prints it. -/
structure Violation where
  code : String
  rendered : String

/-- What `run` calls: `J` are the JSON values, `P` the plans, `E` the compiled plans. -/
structure Stages (J P E : Type) where
  /-- `json.loads`. -/
  loads : List Char → Except StageError J
  /-- `Plan.model_validate`. -/
  modelValidate : J → Except StageError P
  validatePlan : P → Except PyException (List Violation)
  compilePlan : P → Except StageError E

/-- `[ \t]*\r?\n` after the word of a fence. -/
def fenceLine (cs : List Char) : Option (List Char) :=
  match cs.dropWhile fun c => c = ' ' ∨ c = '\t' with
  | '\r' :: '\n' :: rest | '\n' :: rest => some rest
  | _ => none

/-- `_FENCE_RE`: the body of a text that is one fenced block; white space around the body is still on. -/
def fenceBody (cs : List Char) : Option (List Char) :=
  match cs with
  | '`' :: '`' :: '`' :: rest =>
    let inside := fenceLine (if (rest.take 4).map Char.toLower = "json".toList then rest.drop 4 else rest)
    inside.bind fun body => if ['`', '`', '`'] <:+ body then some (body.take (body.length - 3)) else none
  | _ => none

/-- `_FEEDBACK_PRIORITY_CODES`. -/
def feedbackPriorityCodes : List String :=
  ["branch_match_status_invented", "compose_ref_unknown_field", "composer_contract_invalid"]

/-- `_prioritize_for_feedback`: a stable sort by one bit. -/
def prioritizeForFeedback (violations : List Violation) : List Violation :=
  (violations.filter fun v => feedbackPriorityCodes.contains v.code) ++
    violations.filter fun v => !feedbackPriorityCodes.contains v.code

/-- `_build_retry_feedback`. -/
def buildRetryFeedback (previousResponse errors : String) : String :=
  "\n\n[АВТОМАТИЧЕСКИЙ РЕТРАЙ]\nПредыдущий ответ невалиден. Извлечение:\n<<<\n" ++ String.ofList (previousResponse.toList.take 500) ++
    "\n>>>\nОшибки:\n" ++ String.ofList (errors.toList.take 500) ++
    "\nСгенерируй новый план в строгом JSON-формате, без markdown."

section Judge

variable {J P E : Type} (stages : Stages J P E)

/-- `parse_planner_json`. -/
def parsePlannerJson (text : String) : Except StageError J :=
  let s := strip ((strip text.toList).dropWhile (· = '\uFEFF'))
  stages.loads (((fenceBody s).map strip).getD s)

/-- What the stages 4 to 7 make of an answer. -/
inductive Verdict (P E : Type) where
  | accepted (plan : P) (executionPlan : E)
  /-- `last_errors`. -/
  | rejected (errors : String)
  /-- An exception that `run` does not catch. -/
  | escapes (exc : PyException)

/-- An error of a stage, under its name. -/
def StageError.verdict (name : String) : StageError → Verdict P E
  | .expected message => .rejected (name ++ ": " ++ message)
  | .other exc => .escapes exc

/-- The stages 4 to 7: parse, check against the schema, validate, compile. -/
def judge (text : String) : Verdict P E :=
  match parsePlannerJson stages text with
  | .error error => error.verdict "json_decode_error"
  | .ok payload =>
    match stages.modelValidate payload with
    | .error error => error.verdict "plan_schema_error"
    | .ok plan =>
      match stages.validatePlan plan with
      | .error exc => .escapes exc
      | .ok (violation :: violations) =>
        .rejected ("validator_violations: " ++
          "; ".intercalate (((prioritizeForFeedback (violation :: violations)).map Violation.rendered).take 5))
      | .ok [] =>
        match stages.compilePlan plan with
        | .error error => error.verdict "plan_compile_error"
        | .ok executionPlan => .accepted plan executionPlan

end Judge

/-! ### The run -/

/-- The values of `planner_status`. -/
inductive PlannerStatus where
  | pending | received | valid | invalid
  deriving DecidableEq

/-- The row of `planner_executions`. -/
structure Row (P E : Type) where
  plannerStatus : PlannerStatus := .pending
  rawPlannerResponse : Option String := none
  plannerLatencyMs : ℕ := 0
  plannerProvider : String
  plannerModel : String := ""
  validationErrors : Option String := none
  plan : Option P := none
  executionPlan : Option E := none

/-- `PlannerCallResult`. -/
structure PlannerCallResult where
  rawText : String
  latencyMs : ℕ
  promptTokens : ℕ
  completionTokens : ℕ
  provider : String
  model : String

/-- `PlannerProviderUnavailable`, `PlannerTimeoutError`, or another exception of the call. -/
inductive CallError where
  | providerUnavailable (message : String)
  | timeout (message : String)
  | other (exc : PyException)

/-- The text that is stored, and the one that is returned. -/
def CallError.texts : CallError → String × String
  | providerUnavailable message => ("provider_unavailable: " ++ message, "provider_unavailable")
  | timeout message => ("timeout: " ++ message, "timeout")
  | other exc => ("llm_call:" ++ exc.type ++ ": " ++ exc.message, "llm_call:" ++ exc.type)

/-- The transactions of a run. -/
inductive Stage where
  | insertPending
  | markReceived (attemptNo : ℕ)
  | markInvalid
  | markValid

/-- What surrounds a run. -/
structure Env where
  executionId : String
  /-- `session_factory is None`: nothing is stored. -/
  ephemeral : Bool
  invalidRetryEnabled : Bool
  plannerProvider : String
  /-- `_build_prompt_or_raise` with the feedback, or the text of `PromptBudgetExceeded`. -/
  buildPrompt : Option String → Except String String
  callPlanner : String → ℕ → Except CallError PlannerCallResult
  /-- The exception of a transaction that fails. -/
  persist : Stage → Option PyException

/-- `PlannerResult`. -/
structure PlannerResult (P E : Type) where
  success : Bool
  executionId : String
  finalAttemptNo : ℕ
  plan : Option P := none
  executionPlan : Option E := none
  errorSummary : Option String := none
  rawResponses : List String := []
  promptTokens : ℕ := 0
  completionTokens : ℕ := 0
  provider : String := ""
  model : String := ""

/-- How a run ends. -/
inductive Ending (P E : Type) where
  | returned (result : PlannerResult P E)
  | raised (exc : PyException)

/-- The variables of a run, the row, and what is counted of it. -/
structure RunState (P E : Type) where
  row : Option (Row P E) := none
  cumulativeLatencyMs : ℕ := 0
  rawResponses : List String := []
  promptTokens : ℕ := 0
  completionTokens : ℕ := 0
  lastErrors : String := ""
  lastRaw : String := ""
  /-- The calls of the model. -/
  calls : ℕ := 0
  /-- The transactions that failed. -/
  failures : ℕ := 0

/-- How an attempt ends: the run is over, or there is another attempt. -/
inductive Outcome (P E : Type) where
  | done (ending : Ending P E) (s : RunState P E)
  | retry (s : RunState P E)

section Run

variable {J P E : Type} (stages : Stages J P E) (env : Env)

/-- A transaction that sets columns of the row: `LookupError` when there is none. -/
def mark (stage : Stage) (set : Row P E → Row P E) (s : RunState P E) : Except PyException (RunState P E) :=
  if env.ephemeral then .ok s
  else match env.persist stage, s.row with
    | some exc, _ => .error exc
    | none, none => .error ⟨"LookupError", "planner_execution '" ++ env.executionId ++ "' not found"⟩
    | none, some row => .ok { s with row := some (set row) }

/-- The transaction failed. -/
def RunState.failed (s : RunState P E) : RunState P E := { s with failures := s.failures + 1 }

/-- `_terminate_invalid`: a failure is swallowed. -/
def terminateInvalid (errors : String) (s : RunState P E) : RunState P E :=
  match mark env .markInvalid (fun row => { row with
      plannerStatus := .invalid, validationErrors := some (String.ofList (errors.toList.take 2000)) }) s with
  | .ok s => s
  | .error _ => s.failed

/-- A run that fails. -/
def failWith (finalAttemptNo : ℕ) (errorSummary : String) (s : RunState P E) : Outcome P E :=
  .done (.returned {
    success := false
    executionId := env.executionId
    finalAttemptNo := finalAttemptNo
    errorSummary := some errorSummary
    rawResponses := s.rawResponses }) s

/-- An answer is counted. -/
def RunState.answered (s : RunState P E) (call : PlannerCallResult) : RunState P E :=
  { s with
    cumulativeLatencyMs := s.cumulativeLatencyMs + call.latencyMs
    rawResponses := s.rawResponses ++ [call.rawText]
    promptTokens := s.promptTokens + call.promptTokens
    completionTokens := s.completionTokens + call.completionTokens
    lastRaw := call.rawText }

/-- The stages after an answer has been received. -/
def conclude (isLast : Bool) (attemptNo : ℕ) (call : PlannerCallResult) (s : RunState P E) : Outcome P E :=
  match judge stages call.rawText with
  | .escapes exc => .done (.raised exc) s
  | .rejected errors =>
    let s := { s with lastErrors := errors }
    if isLast then failWith env attemptNo "invalid_plan_after_retry" (terminateInvalid env errors s) else .retry s
  | .accepted plan executionPlan =>
    match mark env .markValid (fun row => { row with
        plannerStatus := .valid, plan := some plan, executionPlan := some executionPlan }) s with
    | .error exc => failWith env attemptNo ("persistence:mark_valid:" ++ exc.type) s.failed
    | .ok s => .done (.returned {
        success := true
        executionId := env.executionId
        finalAttemptNo := attemptNo
        plan := some plan
        executionPlan := some executionPlan
        rawResponses := s.rawResponses
        promptTokens := s.promptTokens
        completionTokens := s.completionTokens
        provider := call.provider
        model := call.model }) s

/-- The feedback of an attempt. -/
def feedback (attemptNo : ℕ) (lastRaw lastErrors : String) : Option String :=
  if 1 < attemptNo then some (buildRetryFeedback lastRaw lastErrors) else none

/-- One turn of the loop. -/
def attempt (isLast : Bool) (attemptNo : ℕ) (s : RunState P E) : Outcome P E :=
  match env.buildPrompt (feedback attemptNo s.lastRaw s.lastErrors) with
  | .error message =>
    failWith env (attemptNo - 1) "prompt_budget_exceeded" (terminateInvalid env ("prompt_budget_exceeded: " ++ message) s)
  | .ok prompt =>
    let s := { s with calls := s.calls + 1 }
    match env.callPlanner prompt attemptNo with
    | .error error => failWith env attemptNo error.texts.2 (terminateInvalid env error.texts.1 s)
    | .ok call =>
      let s := s.answered call
      match mark env (.markReceived attemptNo) (fun row => { row with
          plannerStatus := .received
          rawPlannerResponse := some call.rawText
          plannerLatencyMs := s.cumulativeLatencyMs
          plannerProvider := call.provider
          plannerModel := call.model }) s with
      | .error exc => failWith env attemptNo ("persistence:mark_received:" ++ exc.type) s.failed
      | .ok s => conclude stages env isLast attemptNo call s

/-- The loop. -/
def attempts : List ℕ → RunState P E → Ending P E × RunState P E
  | [], s => (.returned {
      success := false
      executionId := env.executionId
      finalAttemptNo := if env.invalidRetryEnabled then 2 else 1
      errorSummary := some "unexpected_loop_exit"
      rawResponses := s.rawResponses }, s)
  | attemptNo :: rest, s =>
    match attempt stages env rest.isEmpty attemptNo s with
    | .done ending s => (ending, s)
    | .retry s => attempts rest s

/-- `insert_pending`. -/
def insertPending : Except PyException (RunState P E) :=
  if env.ephemeral then .ok {}
  else match env.persist .insertPending with
    | some exc => .error exc
    | none => .ok { row := some { plannerProvider := env.plannerProvider } }

/-- `run`. -/
def run : Ending P E × RunState P E :=
  match insertPending env with
  | .error exc => (.returned {
      success := false
      executionId := env.executionId
      finalAttemptNo := 0
      errorSummary := some ("persistence:insert_pending:" ++ exc.type) }, { failures := 1 })
  | .ok s => attempts stages env (if env.invalidRetryEnabled then [1, 2] else [1]) s

end Run

/-! ### What is asked of a run -/

section Claims

variable {J P E : Type} (stages : Stages J P E) (env : Env)

/-- What is returned: a plan on success alone, which the stages let pass, from the last answer. -/
structure ResultOk (s : RunState P E) (result : PlannerResult P E) : Prop where
  success : result.success = true ↔ ∃ plan executionPlan, result.plan = some plan ∧
    stages.validatePlan plan = .ok [] ∧ stages.compilePlan plan = .ok executionPlan
  compiled : ∀ plan, result.plan = some plan → ∃ text executionPlan, s.rawResponses.getLast? = some text ∧
    judge stages text = .accepted plan executionPlan ∧ result.executionPlan = some executionPlan
  row : env.ephemeral = false → s.failures = 0 → ∃ row, s.row = some row ∧
    row.plannerStatus = if result.success then .valid else .invalid

/-- A right run: two calls at most, and a result. -/
def Right (o : Ending P E × RunState P E) : Prop :=
  o.2.calls ≤ 2 ∧ ∃ result, o.1 = .returned result ∧ ResultOk stages env o.2 result

/-- The answer that an attempt reads. -/
def answer (attemptNo : ℕ) (lastRaw lastErrors : String) : Option String :=
  match env.buildPrompt (feedback attemptNo lastRaw lastErrors) with
  | .error _ => none
  | .ok prompt =>
    match env.callPlanner prompt attemptNo with
    | .error _ => none
    | .ok call => if env.ephemeral ∨ (env.persist (.markReceived attemptNo)).isNone then some call.rawText else none

/-- An answer that comes to be judged: the first, or the second after a first that was rejected. -/
def Judged (text : String) : Prop :=
  (env.ephemeral ∨ (env.persist .insertPending).isNone) ∧
  (answer env 1 "" "" = some text ∨ env.invalidRetryEnabled = true ∧ ∃ raw errors, answer env 1 "" "" = some raw ∧
    judge stages raw = .rejected errors ∧ answer env 2 raw errors = some text)

/-- An exception that `run` does not catch. -/
def Escapes (text : String) : Prop := ∃ exc, judge stages text = .escapes exc

end Claims

/-! ### One attempt -/

section Attempt

variable {J P E : Type} {stages : Stages J P E} {env : Env} {s : RunState P E}

/-- The row is there, when rows are stored. -/
def HasRow (env : Env) (s : RunState P E) : Prop := env.ephemeral = false → ∃ row, s.row = some row

theorem mark_cases (hrow : HasRow env s) (stage : Stage) (set : Row P E → Row P E) :
    (∃ exc, mark env stage set s = .error exc ∧ ¬ (env.ephemeral = true ∨ (env.persist stage).isNone = true)) ∨
    ∃ row, mark env stage set s = .ok { s with row := row } ∧ (env.ephemeral = true ∨ (env.persist stage).isNone = true) ∧
      (env.ephemeral = false → ∃ before, s.row = some before ∧ row = some (set before)) := by
  unfold mark
  cases hephemeral : env.ephemeral with
  | true => exact .inr ⟨s.row, by simp, by simp, by simp⟩
  | false =>
    obtain ⟨row, hrow⟩ := hrow hephemeral
    cases hstage : env.persist stage with
    | some exc => exact .inl ⟨exc, by simp, by simp⟩
    | none => exact .inr ⟨some (set row), by simp [hrow], by simp, fun _ => ⟨row, hrow, rfl⟩⟩

theorem result_failed (result : PlannerResult P E) (hresult : result.success = false ∧ result.plan = none)
    (hrow : env.ephemeral = false → s.failures = 0 → ∃ row, s.row = some row ∧ row.plannerStatus = .invalid) :
    ResultOk stages env s result := by
  obtain ⟨hsuccess, hplan⟩ := hresult
  exact ⟨by simp [hsuccess, hplan], by simp [hplan], by simpa [hsuccess] using hrow⟩

/-- What is asked of an attempt that is the last of the run. -/
def Done (stages : Stages J P E) (env : Env) (before : RunState P E) (o : Outcome P E) : Prop :=
  ∃ result s, o = .done (.returned result) s ∧ s.calls ≤ before.calls + 1 ∧ ResultOk stages env s result

/-- After a failure without a transaction that failed, the row is invalid. -/
theorem done_terminate (hrow : HasRow env s) (attemptNo : ℕ) (errors summary : String) {before : RunState P E}
    (hcalls : s.calls ≤ before.calls + 1) :
    Done stages env before (failWith env attemptNo summary (terminateInvalid env errors s)) := by
  unfold terminateInvalid
  rcases mark_cases hrow .markInvalid fun row : Row P E => { row with
    plannerStatus := .invalid, validationErrors := some (String.ofList (errors.toList.take 2000)) } with
    ⟨exc, herror, -⟩ | ⟨row, hok, -, hset⟩
  · rw [herror]
    exact ⟨_, _, rfl, hcalls, result_failed _ ⟨rfl, rfl⟩ fun _ h => absurd h (Nat.succ_ne_zero _)⟩
  · rw [hok]
    refine ⟨_, _, rfl, hcalls, result_failed _ ⟨rfl, rfl⟩ fun hephemeral _ => ?_⟩
    obtain ⟨before, -, rfl⟩ := hset hephemeral
    exact ⟨_, rfl, rfl⟩

theorem done_failed (attemptNo : ℕ) (summary : String) {before : RunState P E} (hcalls : s.calls ≤ before.calls + 1) :
    Done stages env before (failWith env attemptNo summary s.failed) :=
  ⟨_, _, rfl, hcalls, result_failed _ ⟨rfl, rfl⟩ fun _ h => absurd h (Nat.succ_ne_zero _)⟩

/-- A plan that is accepted has no violations and is compiled. -/
theorem judge_accepted {text : String} {plan : P} {executionPlan : E} (h : judge stages text = .accepted plan executionPlan) :
    stages.validatePlan plan = .ok [] ∧ stages.compilePlan plan = .ok executionPlan := by
  have hverdict : ∀ {name : String} (error : StageError), error.verdict name ≠ (.accepted plan executionPlan : Verdict P E) := by
    rintro name (_ | _) h <;> cases h
  unfold judge at h
  split at h
  · exact absurd h (hverdict _)
  · split at h
    · exact absurd h (hverdict _)
    · split at h
      · cases h
      · cases h
      · next hvalid =>
        split at h
        · exact absurd h (hverdict _)
        · next hcompile =>
          cases h
          exact ⟨hvalid, hcompile⟩

/-- How an attempt goes on from its answer. -/
inductive Step (stages : Stages J P E) (env : Env) (isLast : Bool) (attemptNo : ℕ) (before : RunState P E) :
    Outcome P E → Prop where
  /-- It ends the run: what it judged, if it judged anything, did not escape and is not tried again. -/
  | done {o : Outcome P E} : Done stages env before o →
      (∀ text, answer env attemptNo before.lastRaw before.lastErrors = some text →
        ¬ Escapes stages text ∧ (isLast = false → ∀ errors, judge stages text ≠ .rejected errors)) →
      Step stages env isLast attemptNo before o
  | raised {text : String} {exc : PyException} {s : RunState P E} :
      answer env attemptNo before.lastRaw before.lastErrors = some text → judge stages text = .escapes exc →
      Step stages env isLast attemptNo before (.done (.raised exc) s)
  | retry {text errors : String} {s : RunState P E} : isLast = false →
      answer env attemptNo before.lastRaw before.lastErrors = some text → judge stages text = .rejected errors →
      s.lastRaw = text → s.lastErrors = errors → s.calls = before.calls + 1 → HasRow env s →
      Step stages env isLast attemptNo before (.retry s)

theorem conclude_spec (isLast : Bool) (attemptNo : ℕ) (call : PlannerCallResult) {before : RunState P E} (hrow : HasRow env s)
    (hanswer : answer env attemptNo before.lastRaw before.lastErrors = some call.rawText)
    (hcalls : s.calls = before.calls + 1) (hraw : s.lastRaw = call.rawText)
    (hlast : s.rawResponses.getLast? = some call.rawText) :
    Step stages env isLast attemptNo before (conclude stages env isLast attemptNo call s) := by
  have hcaught : ∀ {verdict : Verdict P E}, judge stages call.rawText = verdict → (∀ exc, verdict ≠ .escapes exc) →
      (isLast = false → ∀ errors, verdict ≠ .rejected errors) →
      ∀ text, answer env attemptNo before.lastRaw before.lastErrors = some text →
        ¬ Escapes stages text ∧ (isLast = false → ∀ errors, judge stages text ≠ .rejected errors) := by
    rintro verdict rfl hne hagain text htext
    obtain rfl := Option.some.inj (hanswer.symm.trans htext)
    exact ⟨fun ⟨exc, hescapes⟩ => hne exc hescapes, hagain⟩
  unfold conclude
  cases hjudge : judge stages call.rawText with
  | escapes exc => exact .raised hanswer hjudge
  | rejected errors =>
    cases isLast with
    | false => exact .retry rfl hanswer hjudge hraw rfl hcalls hrow
    | true =>
      have hrow' : HasRow env { s with lastErrors := errors } := hrow
      exact .done (done_terminate hrow' attemptNo errors "invalid_plan_after_retry" hcalls.le)
        (hcaught hjudge (by simp) (by simp))
  | accepted plan executionPlan =>
    refine .done ?_ (hcaught hjudge (by simp) (by simp))
    obtain ⟨hvalid, hcompile⟩ := judge_accepted hjudge
    rcases mark_cases hrow .markValid fun row : Row P E => { row with
      plannerStatus := .valid, plan := some plan, executionPlan := some executionPlan } with
      ⟨exc, herror, -⟩ | ⟨row, hok, -, hset⟩
    · simp only [herror]
      exact done_failed attemptNo _ hcalls.le
    · simp only [hok]
      refine ⟨_, _, rfl, hcalls.le, ⟨iff_of_true rfl ⟨plan, executionPlan, rfl, hvalid, hcompile⟩, ?_, fun hephemeral _ => ?_⟩⟩
      · rintro _ ⟨⟩
        exact ⟨call.rawText, executionPlan, hlast, hjudge, rfl⟩
      · obtain ⟨before, -, rfl⟩ := hset hephemeral
        exact ⟨_, rfl, rfl⟩

/-- **One attempt.** -/
theorem attempt_spec (isLast : Bool) (attemptNo : ℕ) (hrow : HasRow env s) :
    Step stages env isLast attemptNo s (attempt stages env isLast attemptNo s) := by
  unfold attempt
  cases hprompt : env.buildPrompt (feedback attemptNo s.lastRaw s.lastErrors) with
  | error message => exact .done (done_terminate hrow _ _ _ (Nat.le_succ _)) (by simp [answer, hprompt])
  | ok prompt =>
    dsimp only
    generalize hasked : ({ s with calls := s.calls + 1 } : RunState P E) = asked
    have hcalls : asked.calls = s.calls + 1 := by rw [← hasked]
    have hrow' : HasRow env asked := by
      rw [← hasked]
      exact hrow
    cases hcall : env.callPlanner prompt attemptNo with
    | error error => exact .done (done_terminate hrow' _ _ _ hcalls.le) (by simp [answer, hprompt, hcall])
    | ok call =>
      dsimp only
      have hanswered : HasRow env (asked.answered call) := hrow'
      rcases mark_cases hanswered (.markReceived attemptNo) fun row : Row P E => { row with
        plannerStatus := .received, rawPlannerResponse := some call.rawText
        plannerLatencyMs := (asked.answered call).cumulativeLatencyMs
        plannerProvider := call.provider, plannerModel := call.model } with
        ⟨exc, herror, hfails⟩ | ⟨row, hok, hstored, hset⟩
      · rw [herror]
        refine .done (done_failed attemptNo _ hcalls.le) fun text htext => ?_
        simp only [answer, hprompt, hcall] at htext
        rw [if_neg hfails] at htext
        cases htext
      · rw [hok]
        refine conclude_spec isLast attemptNo call (fun hephemeral => ?_) ?_ hcalls rfl (by simp [RunState.answered])
        · obtain ⟨before, -, rfl⟩ := hset hephemeral
          exact ⟨_, rfl⟩
        · simp only [answer, hprompt, hcall]
          exact if_pos hstored

/-! ### A run -/

theorem insertPending_cases : (∃ exc, (insertPending env : Except _ (RunState P E)) = .error exc ∧
      ¬ (env.ephemeral = true ∨ (env.persist .insertPending).isNone = true)) ∨
    ∃ s : RunState P E, insertPending env = .ok s ∧ HasRow env s ∧ s.calls = 0 ∧ s.lastRaw = "" ∧ s.lastErrors = "" ∧
      (env.ephemeral = true ∨ (env.persist .insertPending).isNone = true) := by
  unfold insertPending
  cases hephemeral : env.ephemeral with
  | true => exact .inr ⟨{}, by simp, by simp [HasRow, hephemeral], rfl, rfl, rfl, by simp⟩
  | false =>
    cases hstage : env.persist .insertPending with
    | some exc => exact .inl ⟨exc, by simp, by simp⟩
    | none => exact .inr ⟨_, by simp; rfl, fun _ => ⟨_, rfl⟩, rfl, rfl, rfl, by simp⟩

variable (stages env) in
/-- **A run is right** exactly when no answer that it judges raises what it does not catch. -/
theorem run_right_iff : Right stages env (run stages env) ↔ ∀ text, Judged stages env text → ¬ Escapes stages text := by
  have hdone : ∀ {before : RunState P E} {e : Ending P E} {s : RunState P E}, Done stages env before (.done e s) →
      before.calls ≤ 1 → Right stages env (e, s) := by
    rintro before e s ⟨result, _, ⟨⟩, hcalls, hok⟩ hbefore
    exact ⟨hcalls.trans (Nat.succ_le_succ hbefore), result, rfl, hok⟩
  have hraised : ∀ (exc : PyException) (s : RunState P E), ¬ Right stages env (.raised exc, s) := by
    rintro exc s ⟨-, result, h, -⟩
    cases h
  unfold run
  rcases (insertPending_cases : _ ∨ ∃ s : RunState P E, insertPending env = .ok s ∧ _) with ⟨exc, herror, hnot⟩ | ⟨s, hok, hrow, hcalls, hraw, herrors, hstored⟩
  · rw [herror]
    refine iff_of_true ⟨Nat.zero_le 2, _, rfl, result_failed _ ⟨rfl, rfl⟩ fun _ h => ?_⟩ fun _ h => absurd h.1 hnot
    exact absurd h Nat.one_ne_zero
  · rw [hok]
    have hfirst : ∀ {text : String}, answer env 1 s.lastRaw s.lastErrors = some text → answer env 1 "" "" = some text :=
      fun h => by rwa [hraw, herrors] at h
    have hfirst' : ∀ {text : String}, answer env 1 "" "" = some text → answer env 1 s.lastRaw s.lastErrors = some text :=
      fun h => by rwa [hraw, herrors]
    have hspec : Step stages env (!env.invalidRetryEnabled) 1 s (attempt stages env (!env.invalidRetryEnabled) 1 s) :=
      attempt_spec _ 1 hrow
    have hattempts : attempts stages env (if env.invalidRetryEnabled then [1, 2] else [1]) s =
        match attempt stages env (!env.invalidRetryEnabled) 1 s with
        | .done ending s => (ending, s)
        | .retry s => attempts stages env (if env.invalidRetryEnabled then [2] else []) s := by
      cases env.invalidRetryEnabled <;> rfl
    simp only [hattempts]
    generalize attempt stages env (!env.invalidRetryEnabled) 1 s = o at hspec
    cases hspec with
    | raised hanswer hjudge =>
      exact iff_of_false (hraised _ _) fun h => h _ ⟨hstored, .inl (hfirst hanswer)⟩ ⟨_, hjudge⟩
    | done hend hcaught =>
      obtain ⟨result, s', rfl, -⟩ := id hend
      refine iff_of_true (hdone hend (hcalls.le.trans (Nat.zero_le 1))) ?_
      rintro text ⟨-, h | ⟨hretry, raw, errors, h, hjudge, -⟩⟩
      · exact (hcaught text (hfirst' h)).1
      · exact absurd hjudge ((hcaught raw (hfirst' h)).2 (by simpa using hretry) errors)
    | @retry _ _ s₂ hlast hanswer hjudge hlastRaw hlastErrors hcalls' hrow' =>
      have hretry : env.invalidRetryEnabled = true := by simpa using hlast
      have hspec : Step stages env true 2 s₂ (attempt stages env true 2 s₂) := attempt_spec true 2 hrow'
      subst hlastRaw hlastErrors
      simp only [hretry, if_true, attempts, List.isEmpty_nil]
      generalize attempt stages env true 2 s₂ = o at hspec
      have hne : ¬ Escapes stages s₂.lastRaw := fun ⟨exc, hescapes⟩ => by
        rw [hjudge] at hescapes
        cases hescapes
      cases hspec with
      | raised hanswer₂ hjudge₂ =>
        exact iff_of_false (hraised _ _) fun h =>
          h _ ⟨hstored, .inr ⟨hretry, _, _, hfirst hanswer, hjudge, hanswer₂⟩⟩ ⟨_, hjudge₂⟩
      | retry hlast₂ => cases hlast₂
      | done hend hcaught =>
        obtain ⟨result, s', rfl, -⟩ := id hend
        refine iff_of_true (hdone hend (by omega)) ?_
        rintro text ⟨-, h | ⟨-, raw', errors', h, hjudge', hanswer₂⟩⟩
        · obtain rfl := Option.some.inj ((hfirst hanswer).symm.trans h)
          exact hne
        · obtain rfl := Option.some.inj ((hfirst hanswer).symm.trans h)
          rw [hjudge] at hjudge'
          cases hjudge'
          exact (hcaught text hanswer₂).1

end Attempt

/-! ### A number with too many digits -/

/-- `json.loads` of texts of digits: `int` refuses more than 4300 of them with a `ValueError` that is
no `JSONDecodeError`. No number is a plan. -/
def numbersOnly : Stages Unit Unit Unit where
  loads cs :=
    if cs.all Char.isDigit ∧ cs ≠ [] then
      if 4300 < cs.length then .error (.other ⟨"ValueError", "Exceeds the limit (4300 digits) for integer string conversion"⟩)
      else .ok ()
    else .error (.expected "Expecting value")
  modelValidate _ := .error (.expected "Input should be a valid dictionary")
  validatePlan _ := .ok []
  compilePlan _ := .ok ()

/-- `n + 1` ones. -/
def ones (n : ℕ) : String := String.ofList (List.replicate (n + 1) '1')

/-- A run in which nothing else fails, and the model answers with the ones. -/
def onesEnv (n : ℕ) : Env where
  executionId := "exec_1"
  ephemeral := false
  invalidRetryEnabled := true
  plannerProvider := ""
  buildPrompt _ := .ok ""
  callPlanner _ _ := .ok ⟨ones n, 1, 1, 1, "p", "m"⟩
  persist _ := none

theorem strip_ones (n : ℕ) : strip (List.replicate n '1') = List.replicate n '1' := by
  have hdrop : ∀ n, (List.replicate n '1').dropWhile Lib.PyText.isSpace = List.replicate n '1' := by
    intro n
    cases n with
    | zero => rfl
    | succ n => exact List.dropWhile_cons_of_neg (by decide)
  simp only [strip, Lib.PyText.lstrip, Lib.PyText.rstrip, Lib.PyText.rstripWhile, hdrop, List.reverse_replicate]

/-- What `json.loads` raises. -/
def tooManyDigits : PyException := ⟨"ValueError", "Exceeds the limit (4300 digits) for integer string conversion"⟩

theorem judge_ones {n : ℕ} (h : 4300 ≤ n) :
    judge numbersOnly (ones n) = .escapes tooManyDigits := by
  have hbom : (List.replicate (n + 1) '1').dropWhile (· = '\uFEFF') = List.replicate (n + 1) '1' :=
    List.dropWhile_cons_of_neg (by decide)
  have hfence : fenceBody (List.replicate (n + 1) '1') = none := rfl
  have hparse : parsePlannerJson numbersOnly (ones n) = .error (.other tooManyDigits) := by
    rw [parsePlannerJson, ones, String.toList_ofList, strip_ones, hbom, strip_ones, hfence, Option.map_none, Option.getD_none]
    refine (if_pos ⟨?_, List.cons_ne_nil _ _⟩).trans (if_pos ?_)
    · rw [List.length_replicate]
      omega
    · rw [List.all_replicate]
      rfl
  rw [judge, hparse]
  rfl

theorem received_of_many {n : ℕ} (h : 4300 ≤ n) :
    ∃ exc s, run numbersOnly (onesEnv n) = (.raised exc, s) ∧ s.failures = 0 ∧
      s.row.map Row.plannerStatus = some .received := by
  have hjudge := judge_ones h
  refine ⟨tooManyDigits, (run numbersOnly (onesEnv n)).2, Prod.ext ?_ rfl, ?_, ?_⟩
  all_goals simp [run, insertPending, attempts, attempt, onesEnv, conclude, hjudge, mark, RunState.answered]

/-- The exception leaves `run`, and the row stays received, though no transaction failed. -/
theorem manyOnes_received :
    (∃ exc s, run numbersOnly (onesEnv 4300) = (.raised exc, s) ∧ s.failures = 0 ∧
      s.row.map Row.plannerStatus = some .received) ∧
      ¬ Right numbersOnly (onesEnv 4300) (run numbersOnly (onesEnv 4300)) := by
  have hmany := received_of_many (Nat.le_refl 4300)
  refine ⟨hmany, ?_⟩
  obtain ⟨exc, s, hrun, -⟩ := hmany
  rw [hrun]
  rintro ⟨-, result, h, -⟩
  cases h

end Sreda.Planner.Orchestrator
