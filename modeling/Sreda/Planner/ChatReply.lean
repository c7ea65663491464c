import Sreda.Planner.Composer
import Sreda.Planner.ExecutorGuarantees

/-!
# The reply of a planned turn

`runtime/planner_chat.py` from the executed plan on: an aborted or failed run is answered without the composer, a run
that is completed or partly failed is composed and may be dressed by the voice, and when this stage raises, what was
done is said without it.

What `_selector_clarification_reply` answers is any text or nothing. Alerts, usage records and the recording of
candidates are left out; that one of them, or anything else of the stage, raises is `crashes`.

## What is proved

* what the outcome of a log says of its steps;
* a reply that says that the actions are done (`claims_done`): on a completed log every step is ok, on another one some
  step is. That one step is enough is what the code is written for; `claims_done_partly` is such a log.
-/

namespace Sreda.Planner

open Sreda.Lib

/-! ### Logs of the executor -/

namespace ExecutionLog

/-- A log of the executor: the outcome is computed from the steps, and no step stops a run that was not aborted. -/
def Computed (registry : Registry) (log : ExecutionLog) : Prop :=
  ∃ aborted, log.outcome = summariseOutcome log.steps aborted registry ∧
    (aborted = false → ∀ step ∈ log.steps, ¬ Stops registry step)

/-- Every step that was not skipped is ok. -/
def AllOk (log : ExecutionLog) : Prop := ∀ step ∈ log.steps, step.status ≠ .skipped → step.status = .ok

variable {registry : Registry} {log : ExecutionLog}

/-- **A completed log** has no step that failed. -/
theorem Computed.allOk (hlog : log.Computed registry) (hout : log.outcome = .completed) : log.AllOk := by
  obtain ⟨aborted, houtcome, hstops⟩ := hlog
  rw [houtcome] at hout
  cases aborted with
  | true =>
    simp only [summariseOutcome, if_true] at hout
    split at hout <;> cases hout
  | false =>
    intro step hstep hskipped
    have hnostop := hstops rfl step hstep
    have hfail : ¬ (step.status = .error ∨ step.status = .timeout) := by
      intro hfails
      have hany : ((log.steps.filter fun r => r.status ≠ .skipped).any fun r => r.status = .error ∨ r.status = .timeout) = true :=
        List.any_eq_true.mpr ⟨step, List.mem_filter.mpr ⟨hstep, by simpa using hskipped⟩, by simpa using hfails⟩
      simp only [summariseOutcome, Bool.false_eq_true, if_false, hany, Bool.true_and, if_true] at hout
      split at hout <;> cases hout
    unfold Stops at hnostop
    cases hstatus : step.status <;> simp_all

/-- A log that is partly failed has a step that is ok. -/
theorem Computed.someOk (hlog : log.Computed registry) (hout : log.outcome = .partialFailure) :
    ∃ step ∈ log.steps, step.status = .ok := by
  obtain ⟨aborted, houtcome, -⟩ := hlog
  rw [houtcome] at hout
  cases aborted with
  | true =>
    simp only [summariseOutcome, if_true] at hout
    split at hout <;> cases hout
  | false =>
    simp only [summariseOutcome, Bool.false_eq_true, if_false] at hout
    split at hout
    next hboth =>
      obtain ⟨step, hstep, hok⟩ := List.any_eq_true.mp (Bool.and_eq_true_iff.mp hboth).2
      exact ⟨step, (List.mem_filter.mp hstep).1, by simpa using hok⟩
    · split at hout <;> cases hout

end ExecutionLog

/-! ### The stages after the execution -/

/-- A turn with its executed plan. -/
structure ChatTurn where
  env : ComposeEnv
  /-- `plan.compose`. -/
  planCompose : ComposerCall
  ctx : ComposerContext
  /-- `registry_snapshot_hash`, taken when the turn began. -/
  snapshotHash : String
  /-- `DEFAULT_LLM_COMPOSER`. -/
  voice : LlmComposer
  userText : String
  /-- `_fallback_error`. -/
  fallbackError : String
  /-- `_selector_clarification_reply`. -/
  clarification : Option String
  crashes : Bool

/-- Where the reply comes from. -/
inductive ChatSource where
  | clarification
  | fallbackError
  | uncertain
  | composed (source : ReplySource) (dressed : Bool)
deriving DecidableEq

structure ChatReply where
  text : String
  source : ChatSource

/-- The template that says that the actions are done was rendered for the reply. -/
def ChatReply.ClaimsDone (reply : ChatReply) : Prop :=
  match reply.source with
  | .composed source _ => source.ClaimsDone
  | _ => False

/-- `_FALLBACK_UNCERTAIN`. -/
def fallbackUncertain : String := "Не уверена, что всё получилось сохранить — проверь, пожалуйста, и повтори при необходимости."

namespace ExecutionLog

variable (log : ExecutionLog)

/-- `called`: a step that was skipped, or had arguments of a wrong form, has called no tool. -/
def called : List String :=
  log.steps.filterMap fun step =>
    if step.tool ≠ "" ∧ step.status ≠ .skipped ∧ step.status ≠ .argViolation then some step.tool else none

/-- `ok_tools`. -/
def okTools : List String :=
  log.steps.filterMap fun step => if step.status = .ok ∧ step.tool ≠ "" then some step.tool else none

end ExecutionLog

namespace ChatTurn

variable (turn : ChatTurn)

/-- `_render_or`, for the template that says that the actions are done. -/
def renderOr : ChatReply :=
  match turn.env.render fallbackComposeError [] with
  | .ok text => { text, source := .composed (.template fallbackComposeError) false }
  | .error _ => { text := turn.fallbackError, source := .fallbackError }

/-- What the voice is given to dress. -/
def dressing (text : String) : Dict :=
  [("intent", .str (String.ofList (((if turn.userText = "" then "запрос пользователя" else turn.userText).toList).take 300))),
    ("actions", .list [.dict [("user_visible_summary", .str text), ("status", .str "ok")]])]

/-- The composed reply, dressed by the voice when it had no part in it. -/
def dress (log : ExecutionLog) (reply : ComposeResult) : ChatReply :=
  let text := stripText reply.text
  -- no `fallback_used` starts like this, so the code of the error decides
  let voiceBroken := "llm_composer".toList.isPrefixOf (reply.errorCode.getD "").toList
  if reply.voiced || voiceBroken || log.called.isEmpty || turn.env.breakdownPool.contains text then
    { text, source := .composed reply.source false }
  else match turn.voice "humanize_result" (turn.dressing text) log turn.ctx with
    | .error _ => { text, source := .composed reply.source false }
    | .ok voiced =>
      let voicedText := stripText voiced.text
      if voicedText = "" then { text, source := .composed reply.source false }
      else { text := voicedText, source := .composed reply.source true }

/-- The third stage; `none` when it raises. -/
def voiceStage (log : ExecutionLog) : Option ChatReply :=
  match compose turn.env turn.planCompose log {
      llmComposer := some turn.voice, ctx := some turn.ctx, expectedSnapshotHash := some turn.snapshotHash } with
  | .error _ => none
  | .ok reply => if stripText reply.text = "" ∨ turn.crashes then none else some (turn.dress log reply)

/-- The reply to a turn whose plan was executed. -/
def reply (log : ExecutionLog) : ChatReply :=
  if log.outcome = .aborted ∨ log.outcome = .failed then
    match turn.clarification with
    | some text => { text, source := .clarification }
    | none => { text := turn.fallbackError, source := .fallbackError }
  else if log.outcome = .abortedPartial then
    match turn.clarification with
    | some text => { text, source := .clarification }
    | none =>
      -- without one clean success nothing proves that anything was done
      if log.okTools.isEmpty then { text := fallbackUncertain, source := .uncertain } else turn.renderOr
  else match turn.voiceStage log with
    | some reply => reply
    | none =>
      if (log.outcome = .completed ∨ log.outcome = .partialFailure ∨ log.outcome = .abortedPartial) ∧ log.called ≠ [] then
        turn.renderOr
      else { text := turn.fallbackError, source := .fallbackError }

end ChatTurn

/-! ### When a reply says that the actions are done -/

/-- What the log of such a reply shows. -/
def ExecutionLog.Backs (log : ExecutionLog) : Prop :=
  (log.outcome = .completed ∧ log.AllOk) ∨
    ((log.outcome = .partialFailure ∨ log.outcome = .abortedPartial) ∧ ∃ step ∈ log.steps, step.status = .ok)

section Claims

variable {registry : Registry} {log : ExecutionLog}

theorem ExecutionLog.Computed.backs (hlog : log.Computed registry)
    (hout : log.outcome = .completed ∨ log.outcome = .partialFailure) : log.Backs := by
  rcases hout with hcompleted | hpartial
  · exact .inl ⟨hcompleted, hlog.allOk hcompleted⟩
  · exact .inr ⟨.inl hpartial, hlog.someOk hpartial⟩

theorem ExecutionLog.someOk_of_okTools (h : log.okTools ≠ []) : ∃ step ∈ log.steps, step.status = .ok := by
  obtain ⟨tool, htool⟩ := List.exists_mem_of_ne_nil _ h
  obtain ⟨step, hstep, hsome⟩ := List.mem_filterMap.mp htool
  split at hsome
  next hok => exact ⟨step, hstep, hok.1⟩
  · cases hsome

theorem ChatTurn.reply_backs (hlog : log.Computed registry) (turn : ChatTurn) (h : (turn.reply log).ClaimsDone) : log.Backs := by
  unfold ChatTurn.reply at h
  split at h
  · split at h <;> exact absurd h id
  next hended =>
    split at h
    next hpartial =>
      split at h
      · exact absurd h id
      split at h
      · exact absurd h id
      next hok =>
        exact .inr ⟨.inr hpartial, ExecutionLog.someOk_of_okTools (by simpa using hok)⟩
    next hwhole =>
      -- the third stage is only for these two outcomes
      refine hlog.backs ?_
      cases hout : log.outcome <;> simp_all

/-- **When a reply says that the actions are done.** The composer says so only of a call that it cannot compose: because
the snapshot of the registry is another one, a reference does not resolve, its template fails, or it is itself that
template; the answer of the voice, its failures, the normaliser and the overrides do not lead to it. Of a completed log
every step that was not skipped is then ok, both in `compose` and in the chat layer; on another log the chat layer says
so when it is partly failed or partly aborted, and has a step that is ok. -/
theorem claims_done (registry : Registry) (log : ExecutionLog) (hlog : log.Computed registry) :
    (∀ env call options r, compose env call log options = .ok r → r.source.ClaimsDone →
      Uncomposable env log options (pickEffectiveCall call log) ∧ (log.outcome = .completed → log.AllOk)) ∧
    ∀ turn : ChatTurn, (turn.reply log).ClaimsDone → log.Backs :=
  ⟨fun _ _ _ _ hr hclaims => ⟨compose_claims hr hclaims, hlog.allOk⟩, fun turn => turn.reply_backs hlog⟩

end Claims

/-! #### A log that is partly failed -/

/-- The first list was found, the second call has failed. -/
def partlyFailed : ExecutionLog where
  steps := [
    { stepId := "s1", tool := "list_tasks", status := .ok, parsedOutput := some [("status", .str "ok")] },
    { stepId := "s2", tool := "add_task", status := .error, errorSummary := some "tool_exception:ValueError: no" }]
  outcome := .partialFailure

/-- The reply was to name what the second step has added. -/
def addedTask : ComposerCall where
  kind := .template
  templateId := some "task_added"
  templateData := [("title", .str "${s2.title}")]
  llmPromptKey := none
  kind_consistent := by decide

/-- The templates, each one with its id as its text. -/
def plainTemplates : ComposeEnv where
  py := Py.ascii
  render id _ := .ok id
  snapshotHash := "v1"
  llmSnapshotHash := "v1"
  renderDisplayText _ _ _ := .ok ""
  renderExecutionFailure _ _ _ := .ok ""
  isKnownDomainStatus _ _ := true
  breakdownPool := []

theorem partlyFailed_computed : partlyFailed.Computed (fun _ => none) :=
  ⟨false, rfl, fun _ step hstep => by
    simp only [partlyFailed, List.mem_cons, List.not_mem_nil, or_false] at hstep
    rcases hstep with rfl | rfl <;> simp [Stops]⟩

/-- A step has failed, and the reply says that the actions are done. -/
theorem claims_done_partly : ¬ ∀ (registry : Registry) (log : ExecutionLog), log.Computed registry →
    ∀ env call options r, compose env call log options = .ok r → r.source.ClaimsDone → log.AllOk := by
  intro hall
  have hcompose : ∃ r, compose plainTemplates addedTask partlyFailed {} = .ok r ∧
      r.source = .template fallbackComposeError := ⟨_, rfl, rfl⟩
  obtain ⟨r, hr, hsource⟩ := hcompose
  have hok := hall _ _ partlyFailed_computed _ _ _ r hr (by rw [hsource]; rfl) _ (List.mem_cons_of_mem _ (List.mem_singleton_self _))
    (by decide)
  exact absurd hok (by decide)

theorem claims_done_partlyFailed :
    (∀ env call options r, compose env call partlyFailed options = .ok r → r.source.ClaimsDone →
      Uncomposable env partlyFailed options (pickEffectiveCall call partlyFailed) ∧
        (partlyFailed.outcome = .completed → partlyFailed.AllOk)) ∧
    ∀ turn : ChatTurn, (turn.reply partlyFailed).ClaimsDone → partlyFailed.Backs :=
  claims_done _ _ partlyFailed_computed

end Sreda.Planner
