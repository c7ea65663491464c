import Sreda.Lib.Trace
import Sreda.Planner.Compiler

/-!
# The plan executor

The module `executor`: a compiled plan is run layer by layer, a layer in batches, a batch
with all its steps at once. What the model adds is the list of events: when a ledger row is
opened, when a tool is called and when the call is over. The steps of a batch run
concurrently, so their events are interleaved in any way that a scheduler picks; whatever
else happens is sequential. Latencies and log messages are left out.
-/

namespace Sreda.Planner

open Sreda.Lib

/-! ### Results -/

/-- The outcome of one step. -/
inductive StepStatus where
  | ok
  | error
  | timeout
  | unknownOutcome
  | planGap
  | argViolation
  | skipped
deriving DecidableEq

/-- The text of a status. -/
def StepStatus.text : StepStatus → String
  | ok => "ok"
  | error => "error"
  | timeout => "timeout"
  | unknownOutcome => "unknown_outcome"
  | planGap => "plan_gap"
  | argViolation => "arg_violation"
  | skipped => "skipped"

/-- `StepResult`. -/
structure StepResult where
  stepId : String
  tool : String
  status : StepStatus
  parsedOutput : Option Dict := none
  rawOutput : Option String := none
  errorSummary : Option String := none
  matchedBranchIndex : Option ℕ := none
  matchedStatus : Option String := none
  selectedCompose : Option ComposerCall := none

/-- The statuses that close a ledger row. -/
inductive LedgerStatus where
  | committed
  | unknown
  | unknownPending
deriving DecidableEq

/-- What happens in a run. -/
inductive ExecEvent where
  /-- The steps of a batch are started together, all with this snapshot of the outputs. -/
  | batch (stepIds : List String) (snapshot : List (String × Dict))
  /-- A selector of the batch is ambiguous in this snapshot: none of its steps is started. -/
  | barrier (stepIds : List String) (snapshot : List (String × Dict))
  /-- The ledger row of the step is opened with status `started`. -/
  | opened (stepId : String)
  /-- The tool of the step is called. -/
  | invoked (stepId : String) (args : Dict)
  /-- The call is over, with the result that the step ends with. -/
  | finished (result : StepResult)
  /-- The ledger row of the step is to be closed. -/
  | marked (stepId : String) (status : LedgerStatus)
  /-- The result is appended to the log. -/
  | logged (result : StepResult)

/-- The step that an event of a running step belongs to. -/
def ExecEvent.runs? : ExecEvent → Option String
  | opened stepId => some stepId
  | invoked stepId _ => some stepId
  | finished result => some result.stepId
  | marked stepId _ => some stepId
  | _ => none

/-- The steps of a batch that was to start, with the outputs that they see. -/
def ExecEvent.started? : ExecEvent → Option (List String × List (String × Dict))
  | batch stepIds snapshot => some (stepIds, snapshot)
  | barrier stepIds snapshot => some (stepIds, snapshot)
  | _ => none

/-- The result that an event appends to the log. -/
def ExecEvent.logged? : ExecEvent → Option StepResult
  | logged result => some result
  | _ => none

/-- The summary of a run. -/
inductive Outcome where
  | completed
  | partialFailure
  | failed
  | aborted
  | abortedPartial
deriving DecidableEq

/-- What is known about the selector that stopped a run: the number of items it found, the
step and the tool it was for, and its path. -/
structure SelectorAbort where
  count : ℕ
  sourceStepId : String
  targetTool : String
  argPath : RefPath

/-- `ExecutionLog`. -/
structure ExecutionLog where
  steps : List StepResult
  outcome : Outcome
  selectorAbort : Option SelectorAbort := none

/-- What `execute_plan` raises. -/
inductive ExecError where
  | executorError (message : String)
  /-- The ledger row of a step could not be opened. -/
  | ledgerError (exc : PyException)

/-! ### What a run needs -/

/-- The ledger of a run. -/
structure Ledger where
  executionId : String
  turnKey : Option String
  /-- `open_step` and the commit after it, for a step. -/
  openStep : String → Except PyException Unit

/-- The tools, the registry, the ledger when it is enabled, and the scheduler. -/
structure ExecEnv where
  py : Py
  registry : Registry
  toolsByName : String → Option Tool
  ledger : Option Ledger
  scheduler : Scheduler ExecEvent

/-! ### One step -/

section Step

variable (env : ExecEnv)

/-- `_match_branch`, from the branch with index `idx` on. -/
def matchBranchFrom (py : Py) (parsed : Dict) : ℕ → List OutcomeBranch → Option (ℕ × OutcomeBranch)
  | _, [] => none
  | idx, branch :: rest =>
    if branch.expected.isEmpty then
      -- a catch-all counts in the last place only
      if rest.isEmpty then some (idx, branch) else matchBranchFrom py parsed (idx + 1) rest
    else if branch.expected.all fun (field, value) => ((parsed.lookup field).getD .null).eq py value then
      some (idx, branch)
    else matchBranchFrom py parsed (idx + 1) rest

/-- `_match_branch`. -/
def matchBranch (py : Py) (branches : List OutcomeBranch) (parsed : Dict) : Option (ℕ × OutcomeBranch) :=
  matchBranchFrom py parsed 0 branches

/-- A step that ran to its result, with the events on the way. -/
structure StepRun where
  result : StepResult
  events : List ExecEvent

/-- The arguments of a step, resolved and validated, or the text of the `arg_violation`. -/
def resolveArgs (action : Action) (spec : ToolSpec) (snapshot : List (String × Dict)) : Except String Dict :=
  match resolveSelectorRefs env.py (.dict action.args) snapshot with
  | .error (.ambiguity path count) =>
    .error ("selector_ambiguity: Selector '.only' on ref path '$\x7b" ++ path.text ++ "\x7d' is ambiguous: "
      ++ (if count = 0 then "list is empty (0 items)" else toString count ++ " items found — need exactly 1") ++ ".")
  | .error (.invalidReference e) => .error ("selector_resolve_error: " ++ e.message)
  | .ok selected =>
    match resolveRefs env.py selected snapshot with
    | .error e => .error ("ref_resolve_error: " ++ e.message)
    | .ok resolved =>
      match spec.validateArgs (unwrapResolved resolved) with
      | .error (.validation errors) => .error ("execute_time_arg_violation: " ++ errors)
      | .error (.internal exc) => .error ("arg_validation_internal: " ++ exc.type ++ ": " ++ exc.message)
      | .ok args => .ok args

/-- The result of a step whose tool was called. -/
def callResult (stepId : String) (action : Action) (spec : ToolSpec) (call : ToolCall) : StepResult :=
  match call with
  | .timedOut => {
      stepId, tool := action.tool, status := .timeout
      errorSummary := some ("timeout after " ++ toString spec.timeoutSeconds ++ ".0s") }
  | .raised exc => {
      stepId, tool := action.tool, status := .error
      errorSummary := some ("tool_exception:" ++ exc.type ++ ": " ++ exc.message) }
  | .returned raw =>
    match spec.processOutput env.py raw with
    | .plannerGap message => {
        stepId, tool := action.tool, status := .planGap, rawOutput := some raw
        errorSummary := some ("contract_violation: " ++ message) }
    | .raised exc => {
        stepId, tool := action.tool, status := .planGap, rawOutput := some raw
        errorSummary := some ("process_output_failure: " ++ exc.type ++ ": " ++ exc.message) }
    | .output parsed =>
      match matchBranch env.py action.expectedOutcomes parsed with
      | none => {
          stepId, tool := action.tool, status := .unknownOutcome
          parsedOutput := some parsed, rawOutput := some raw
          errorSummary := some ("no expected_outcomes branch matched output with status="
            ++ ((parsed.lookup "status").getD .null).repr env.py) }
      | some (idx, branch) => {
          stepId, tool := action.tool, status := .ok
          parsedOutput := some parsed, rawOutput := some raw
          matchedBranchIndex := some idx
          matchedStatus := match branch.expected.lookup "status" with
            | some (.str status) => some status
            | _ => none
          selectedCompose := branch.compose }

/-- The terminal mark of the ledger row: `committed` after `ok`; for a durable write that
ended otherwise, what is not known about its commit; nothing for other tools. -/
def terminalMark (spec : ToolSpec) (status : StepStatus) : Option LedgerStatus :=
  match status with
  | .ok => some .committed
  | .timeout => if spec.isDurableWrite then some .unknownPending else none
  | _ => if spec.isDurableWrite then some .unknown else none

/-- `_execute_one_step`. A step whose arguments are refused calls no tool and opens no row. -/
def executeOneStep (stepId : String) (action : Action) (spec : ToolSpec) (tool : Tool)
    (snapshot : List (String × Dict)) : Except ExecError StepRun :=
  match resolveArgs env action spec snapshot with
  | .error summary => .ok {
      result := { stepId, tool := action.tool, status := .argViolation, errorSummary := some summary }
      events := [] }
  | .ok args =>
    let result := callResult env stepId action spec (tool stepId args)
    match env.ledger with
    | none => .ok { result, events := [.invoked stepId args, .finished result] }
    | some ledger =>
      match ledger.openStep stepId with
      | .error exc => .error (.ledgerError exc)
      | .ok () => .ok {
          result
          events := [.opened stepId, .invoked stepId args, .finished result]
            ++ ((terminalMark spec result.status).map (.marked stepId)).toList }

end Step

/-! ### The state of a run -/

/-- `_MutableState`, the local variables of `execute_plan` and the events so far. -/
structure ExecState where
  stepOutputs : List (String × Dict)
  /-- `per_layer_new_outputs`. -/
  newOutputs : List (String × Dict)
  failedIntentGroups : List String
  enabled : List String
  skippedStepIds : List String
  failedStepIds : List (String × StepStatus)
  results : List StepResult
  /-- `abort_reason`, when `aborted`. -/
  abortReason : Option String
  selectorAbort : Option SelectorAbort
  events : List ExecEvent

namespace ExecState

/-- `aborted`. -/
def aborted (st : ExecState) : Bool := st.abortReason.isSome

/-- Append a result to the log. -/
def log (st : ExecState) (result : StepResult) : ExecState :=
  { st with results := st.results ++ [result], events := st.events ++ [.logged result] }

end ExecState

/-- A step that is about to run, with its action. -/
abbrev Step := String × Action

section Run

variable (env : ExecEnv) (ep : ExecutionPlan)

/-- `_compute_enabled_initial`: the steps that no branch goes on with. -/
def computeEnabledInitial (plan : Plan) : List String :=
  plan.stepIds.filter fun stepId =>
    !plan.actions.any fun entry => entry.2.expectedOutcomes.any fun branch => branch.next = some stepId

/-- The state before the first layer. -/
def initialState : ExecState where
  stepOutputs := []
  newOutputs := []
  failedIntentGroups := []
  enabled := computeEnabledInitial ep.plan
  skippedStepIds := []
  failedStepIds := []
  results := []
  abortReason := none
  selectorAbort := none
  events := []

/-- `_skip_result`. -/
def skipResult (plan : Plan) (stepId reason : String) : StepResult where
  stepId := stepId
  tool := match plan.action? stepId with
    | some action => action.tool
    | none => "<unknown>"
  status := .skipped
  errorSummary := some reason

/-- `_record_skip`. -/
def recordSkip (st : ExecState) (stepId reason : String) : ExecState :=
  let st := st.log (skipResult ep.plan stepId reason)
  { st with skippedStepIds := stepId :: st.skippedStepIds }

/-- Skip all these steps. -/
def drain (reason : String) (stepIds : List String) (st : ExecState) : ExecState :=
  stepIds.foldl (fun st stepId => recordSkip ep st stepId reason) st

/-- The group of the step stops at its first failure. -/
def honest (action : Action) : Bool := ep.failMode action.intentGroup = .honestPartial

/-- The group of the step has been stopped by a failure. -/
def groupFailed (st : ExecState) (action : Action) : Bool :=
  honest ep action && action.intentGroup ∈ st.failedIntentGroups

/-- Why a step of the next layer does not run, or nothing if it does. A step that the plan
does not have is enabled by no branch. -/
def skipReason (st : ExecState) (stepId : String) : Option String :=
  match ep.plan.action? stepId with
  | none => some "branch_not_selected"
  | some action =>
    let deps := (producers env.py ep.plan stepId action).dedup
    let skipped := deps.filter (· ∈ st.skippedStepIds)
    let failed := deps.filterMap fun dep => (st.failedStepIds.lookup dep).map fun status => status.text ++ ":" ++ dep
    if stepId ∉ st.enabled then some "branch_not_selected"
    else if skipped ≠ [] then some ("upstream_skipped:" ++ ",".intercalate (sorted skipped))
    else if failed ≠ [] then some ("upstream_unavailable:" ++ ",".intercalate (sorted failed))
    else if groupFailed ep st action then some "honest_partial_group_failed"
    else none

/-- Decide about one step of a layer: skip it, or add it to the steps to run. -/
def admitStep (acc : ExecState × List Step) (stepId : String) : ExecState × List Step :=
  match skipReason env ep acc.1 stepId, ep.plan.action? stepId with
  | none, some action => (acc.1, acc.2 ++ [(stepId, action)])
  | reason, _ => (recordSkip ep acc.1 stepId (reason.getD ""), acc.2)

/-- One step of the loop of `_build_layer_batches`: the batches so far, the current one and
the `honest_partial` groups in it. -/
def batchStep (acc : List (List Step) × List Step × List String) (step : Step) :
    List (List Step) × List Step × List String :=
  let (batches, current, seen) := acc
  let group := step.2.intentGroup
  if honest ep step.2 ∧ group ∈ seen then (batches ++ [current], [step], [group])
  else (batches, current ++ [step], if honest ep step.2 then group :: seen else seen)

/-- `_build_layer_batches`. -/
def buildLayerBatches (steps : List Step) : List (List Step) :=
  let (batches, current, _) := steps.foldl (batchStep ep) ([], [], [])
  if current.isEmpty then batches else batches ++ [current]

/-- Drop the steps of a batch whose group an earlier batch has stopped. -/
def refilter (acc : ExecState × List Step) (step : Step) : ExecState × List Step :=
  if groupFailed ep acc.1 step.2 then (recordSkip ep acc.1 step.1 "honest_partial_group_failed", acc.2)
  else (acc.1, acc.2 ++ [step])

/-- The ambiguity of a step, if a selector in its arguments finds none or several items. -/
def ambiguityOf (snapshot : List (String × Dict)) (step : Step) : Option (Step × RefPath × ℕ) :=
  match resolveSelectorRefs env.py (.dict step.2.args) snapshot with
  | .error (.ambiguity path count) => some (step, path, count)
  | _ => none

/-- The result of a step with an ambiguous selector. -/
def haltResult (step : Step) (path : RefPath) (count : ℕ) : StepResult where
  stepId := step.1
  tool := step.2.tool
  status := .argViolation
  errorSummary := some ("selector_barrier_ambiguity: Selector '.only' on ref path '$\x7b" ++ path.text
    ++ "\x7d' is ambiguous: "
    ++ (if count = 0 then "list is empty (0 items)" else toString count ++ " items found — need exactly 1") ++ ".")

/-- The selector barrier stops a batch: the ambiguous step is logged and the run aborted. -/
def haltBatch (st : ExecState) (batch : List Step) (step : Step) (path : RefPath) (count : ℕ) : ExecState :=
  let st := { st with
    abortReason := some "arg_violation"
    selectorAbort := some {
      count, sourceStepId := extractStepId path, targetTool := step.2.tool, argPath := path }
    events := st.events ++ [ExecEvent.barrier (batch.map Prod.fst) st.stepOutputs] }
  st.log (haltResult step path count)

/-- The spec and the tool of a step. -/
def lookupTool (step : Step) : Except ExecError (Step × ToolSpec × Tool) :=
  match env.registry step.2.tool with
  | none => .error (.executorError ("step " ++ env.py.reprStr step.1 ++ " references tool "
      ++ env.py.reprStr step.2.tool ++ " missing from registry — caller must validate_plan first"))
  | some spec =>
    match env.toolsByName step.2.tool with
    | none => .error (.executorError ("step " ++ env.py.reprStr step.1 ++ " tool "
        ++ env.py.reprStr step.2.tool ++ " not in tools_by_name"))
    | some tool => .ok (step, spec, tool)

/-- Start all steps of a batch and wait for all of them. -/
def gather (snapshot : List (String × Dict)) (batch : List Step) : Except ExecError (List StepRun) := do
  let started ← batch.mapM (lookupTool env)
  started.mapM fun (step, spec, tool) => executeOneStep env step.1 step.2 spec tool snapshot

/-- A timeout of this tool may leave a write running. -/
def isWrite (registry : Registry) (tool : String) : Bool :=
  match registry tool with
  | none => true
  | some spec => spec.effect = .write

/-- Take the result of a step of a batch into the state. -/
def takeResult (st : ExecState) (entry : Step × StepRun) : ExecState :=
  let (step, run) := entry
  let result := run.result
  let st := st.log result
  match result.status with
  | .ok =>
    let next := do
      let idx ← result.matchedBranchIndex
      let branch ← step.2.expectedOutcomes[idx]?
      branch.next
    { st with
      newOutputs := (step.1, result.parsedOutput.getD []) :: st.newOutputs
      enabled := next.toList ++ st.enabled }
  | .unknownOutcome | .planGap | .argViolation =>
    { st with abortReason := some (st.abortReason.getD result.status.text) }
  | status =>
    let st := { st with failedStepIds := (step.1, status) :: st.failedStepIds }
    if status = .timeout ∧ isWrite env.registry step.2.tool ∧ ¬ st.aborted then
      { st with abortReason := some "write_timeout" }
    else if honest ep step.2 then { st with failedIntentGroups := step.2.intentGroup :: st.failedIntentGroups }
    else st

/-- Run a batch: the events of its steps are interleaved, then the results are taken in the
order of the batch. -/
def takeBatch (st : ExecState) (batch : List Step) (runs : List StepRun) : ExecState :=
  let st := { st with
    events := st.events ++ .batch (batch.map Prod.fst) st.stepOutputs :: env.scheduler.run (runs.map StepRun.events) }
  (batch.zip runs).foldl (takeResult env ep) st

/-- The batches of a layer, one after the other. An abort skips the rest. -/
def runBatches (snapshot : List (String × Dict)) : List (List Step) → ExecState → Except ExecError ExecState
  | [], st => .ok st
  | batch :: later, st =>
    let (st, batch) := batch.foldl (refilter ep) (st, [])
    let rest := later.flatten.map Prod.fst
    if batch.isEmpty then runBatches snapshot later st
    else match batch.findSome? (ambiguityOf env snapshot) with
      | some (step, path, count) =>
        let st := haltBatch st batch step path count
        .ok (drain ep "halted_arg_violation"
          ((batch.map Prod.fst).filter (· ≠ step.1) ++ rest) st)
      | none => do
        let runs ← gather env snapshot batch
        let st := takeBatch env ep st batch runs
        match st.abortReason with
        | some reason => .ok (drain ep ("halted_" ++ reason) rest st)
        | none => runBatches snapshot later st

/-- `state.step_outputs.update(per_layer_new_outputs)`. -/
def mergeOutputs (st : ExecState) : ExecState :=
  { st with stepOutputs := st.newOutputs ++ st.stepOutputs, newOutputs := [] }

/-- One layer. -/
def runLayer (st : ExecState) (layer : List String) : Except ExecError ExecState :=
  match st.abortReason with
  | some reason => .ok (drain ep ("halted_" ++ reason) layer st)
  | none =>
    let (st, runnable) := layer.foldl (admitStep env ep) (st, [])
    if runnable.isEmpty then .ok st
    else do
      let st ← runBatches env ep st.stepOutputs (buildLayerBatches ep runnable) st
      return mergeOutputs st

end Run

/-! ### The summary -/

/-- `_may_have_committed_write`. -/
def mayHaveCommittedWrite (registry : Registry) (result : StepResult) : Bool :=
  match result.status with
  | .ok | .unknownOutcome | .planGap | .timeout =>
    match registry result.tool with
    | none => true
    | some spec =>
      if spec.effect ≠ .write then false
      else match result.status, spec.committedStatuses with
        | .ok, some committed =>
          match (result.parsedOutput.getD []).lookup "status" with
          | some (.str status) => committed.contains status
          | _ => true
        | _, _ => true
  | _ => false

/-- `_summarise_outcome`. -/
def summariseOutcome (results : List StepResult) (aborted : Bool) (registry : Registry) : Outcome :=
  if aborted then
    if results.any (mayHaveCommittedWrite registry) then .abortedPartial else .aborted
  else
    let relevant := results.filter fun r => r.status ≠ .skipped
    let hasFailure := relevant.any fun r => r.status = .error ∨ r.status = .timeout
    let hasSuccess := relevant.any fun r => r.status = .ok
    if hasFailure && hasSuccess then .partialFailure
    else if hasFailure then .failed
    else .completed

/-! ### The whole run -/

/-- What a run leaves: its log, and what happened. -/
structure ExecRun where
  log : ExecutionLog
  events : List ExecEvent

/-- The check of the ledger identity at the start. -/
def checkLedger (env : ExecEnv) : Except ExecError Unit :=
  match env.ledger with
  | none => .ok ()
  | some ledger =>
    if ledger.turnKey.getD "" = "" then .error (.executorError (
      "execute_plan: ledger is enabled (execution_id set) but turn_key is empty or None. turn_key is part of the "
      ++ "globally-unique idempotency identity — a blank value would collide across unrelated executions. "
      ++ "System turns must mint an explicit stable key."))
    else if ledger.executionId = "" then .error (.executorError (
      "execute_plan: ledger is enabled but execution_id is empty. Pass a non-empty PlannerExecution.id."))
    else .ok ()

/-- `execute_plan`. -/
def executePlan (env : ExecEnv) (ep : ExecutionPlan) : Except ExecError ExecRun := do
  checkLedger env
  if ep.layers.isEmpty then
    return { log := { steps := [], outcome := .completed }, events := [] }
  else
    let st ← ep.layers.foldlM (runLayer env ep) (initialState ep)
    return {
      log := {
        steps := st.results
        outcome := summariseOutcome st.results st.aborted env.registry
        selectorAbort := st.selectorAbort }
      events := st.events }

end Sreda.Planner
