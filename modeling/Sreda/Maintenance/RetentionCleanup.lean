import Mathlib.Algebra.Order.Ring.Int
import Mathlib.Data.List.Dedup
import Mathlib.Data.List.Sort
import Sreda.Lib.Statements
import Sreda.Services.Subscriptions

/-!
# The cleanup of the logs

`maintenance/retention_cleanup.py`, `cleanup_runtime_retention`: the rows of the operational logs past their
windows are deleted, children before their parents. The windows of `inbound_messages` and `jobs` are shorter
than the one of the agent runs that name them: there the names are cleared first, a chunk at a time.

The script gives the store after each statement. A status is any text, as the columns have it. Instants are
microseconds.

Left out: the counts of the result, and the table of plans, which a function of its own prunes under a savepoint.

## What is proved

* every statement leaves the foreign keys intact (`ForeignKeys.deleteSkillRuns` and the lemmas after it);
* the cleanup comes to an end, and it deletes as if every row were judged on the store at the start
  (`retention_cleanup`); planner executions have a window of their own (`own_window`).
-/

namespace Sreda.Maintenance

open Sreda.Lib
open Sreda.Services (days)

/-! ### The tables -/

/-- `AgentRun`. -/
structure AgentRun where
  id : String
  jobId : Option String
  inboundMessageId : Option String
  status : String
  createdAt : ℤ
  deriving DecidableEq

/-- `PlannerExecution`. -/
structure PlannerExecution where
  id : String
  runId : String
  executionStatus : String
  createdAt : ℤ
  deriving DecidableEq

/-- `StepExecutionLedger`. -/
structure StepExecutionLedger where
  id : String
  executionId : String
  deriving DecidableEq

/-- `PlannerGap`. -/
structure PlannerGap where
  id : String
  executionId : Option String
  deriving DecidableEq

/-- `PlannerLlmReservation`. -/
structure PlannerLlmReservation where
  id : String
  executionId : Option String
  deriving DecidableEq

/-- `SkillRun`. -/
structure SkillRun where
  id : String
  status : String
  createdAt : ℤ
  deriving DecidableEq

/-- `SkillRunAttempt`. -/
structure SkillRunAttempt where
  id : String
  runId : String
  deriving DecidableEq

/-- `InboundMessage`. -/
structure InboundMessage where
  id : String
  createdAt : ℤ
  deriving DecidableEq

/-- `Job`. -/
structure Job where
  id : String
  status : String
  createdAt : ℤ
  deriving DecidableEq

/-- `OutboxMessage`. -/
structure OutboxMessage where
  id : String
  status : String
  createdAt : ℤ
  deriving DecidableEq

/-- `SkillAIExecution`. -/
structure SkillAIExecution where
  id : String
  tenantId : String
  featureKey : String
  creditsConsumed : ℤ
  createdAt : ℤ
  deriving DecidableEq

/-- `SkillEvent`. -/
structure SkillEvent where
  id : String
  severity : String
  createdAt : ℤ
  deriving DecidableEq

/-- `ReactTurnTrace`. -/
structure ReactTurnTrace where
  id : String
  createdAt : ℤ
  deriving DecidableEq

/-- `ReactCheckpoint`: the thread, the namespace and the id are its key. -/
structure ReactCheckpoint where
  key : String × String × String
  createdAt : ℤ
  deriving DecidableEq

/-- `ReactCheckpointWrite`: the key of its checkpoint, the task and the index are its key. -/
structure ReactCheckpointWrite where
  key : String × String × String × String × ℤ
  deriving DecidableEq

/-- `ReactSummary`. -/
structure ReactSummary where
  threadId : String
  updatedAt : ℤ
  deriving DecidableEq

/-- The tables with foreign keys among them. -/
@[ext]
structure LinkedTables where
  agentRuns : Keyed AgentRun.id
  plannerExecutions : Keyed PlannerExecution.id
  stepExecutionLedger : Keyed StepExecutionLedger.id
  plannerGaps : Keyed PlannerGap.id
  plannerLlmReservations : Keyed PlannerLlmReservation.id
  skillRuns : Keyed SkillRun.id
  skillRunAttempts : Keyed SkillRunAttempt.id
  inboundMessages : Keyed InboundMessage.id
  jobs : Keyed Job.id

/-- The tables that nothing refers to. -/
structure LogTables where
  skillAiExecutions : Keyed SkillAIExecution.id
  skillEvents : Keyed SkillEvent.id
  outboxMessages : Keyed OutboxMessage.id
  reactTurnTraces : Keyed ReactTurnTrace.id
  reactCheckpoints : Keyed ReactCheckpoint.key
  reactCheckpointWrites : Keyed ReactCheckpointWrite.key
  reactSummaries : Keyed ReactSummary.threadId

/-- What the cleanup works on. -/
@[ext]
structure RuntimeStore where
  linked : LinkedTables
  logs : LogTables

/-- The foreign keys. -/
structure ForeignKeys (t : LinkedTables) : Prop where
  run_job : References t.agentRuns AgentRun.jobId t.jobs
  run_inbound : References t.agentRuns AgentRun.inboundMessageId t.inboundMessages
  execution_run : References t.plannerExecutions (fun e => some e.runId) t.agentRuns
  ledger_execution : References t.stepExecutionLedger (fun l => some l.executionId) t.plannerExecutions
  gap_execution : References t.plannerGaps PlannerGap.executionId t.plannerExecutions
  reservation_execution : References t.plannerLlmReservations PlannerLlmReservation.executionId t.plannerExecutions
  attempt_run : References t.skillRunAttempts (fun a => some a.runId) t.skillRuns

/-! ### The windows -/

def agentRunsDays : ℤ := 90

def plannerExecutionsDays : ℤ := 90

/-- `_PLANNER_LIVE_STATUSES`. -/
def plannerLiveStatuses : List String := ["pending", "in_progress"]

def inboundMessagesDays : ℤ := 30

def jobsDays : ℤ := 30

def outboxSentDays : ℤ := 30

def outboxFailedDays : ℤ := 60

def outboxDroppedDays : ℤ := 60

def skillAiExecutionsDays : ℤ := 30

def skillEventsDebugInfoDays : ℤ := 30

def skillEventsWarnErrorDays : ℤ := 90

def skillAttemptsDays : ℤ := 90

def skillRunsDays : ℤ := 90

def reactCheckpointDays : ℤ := 30

def reactTurnTraceDays : ℤ := 14

def terminalRunStatuses : List String := ["succeeded", "failed", "cancelled"]

def terminalJobStatuses : List String := ["completed", "failed", "cancelled"]

def terminalAgentRunStatuses : List String := ["completed", "failed"]

section Predicates

variable (now : ℤ)

/-- `created_at < now - timedelta(days=window)`. -/
def pastWindow (window createdAt : ℤ) : Bool := createdAt < now - days window

/-- A run of a skill that is over, and past a window. -/
def skillRunDue (window : ℤ) (run : SkillRun) : Bool :=
  run.status ∈ terminalRunStatuses && pastWindow now window run.createdAt

/-- `run_id.in_(terminal_old_run_ids)`. -/
def attemptDue (runs : Keyed SkillRun.id) (attempt : SkillRunAttempt) : Bool :=
  runs.rows.any fun run => run.id = attempt.runId && skillRunDue now skillAttemptsDays run

/-- `doomed_agent_run_ids`. -/
def agentRunDue (run : AgentRun) : Bool :=
  run.status ∈ terminalAgentRunStatuses && pastWindow now agentRunsDays run.createdAt

/-- `_deletable_exec`. -/
def executionDue (runs : Keyed AgentRun.id) (execution : PlannerExecution) : Bool :=
  (runs.rows.any fun run => run.id = execution.runId && agentRunDue now run) ||
    (decide (execution.executionStatus ∉ plannerLiveStatuses) &&
      pastWindow now plannerExecutionsDays execution.createdAt)

/-- `execution_id.in_(deletable_exec_ids)`. -/
def underDueExecution (runs : Keyed AgentRun.id) (executions : Keyed PlannerExecution.id)
    (executionId : Option String) : Bool :=
  executions.rows.any fun execution => some execution.id = executionId && executionDue now runs execution

def inboundDue (message : InboundMessage) : Bool := pastWindow now inboundMessagesDays message.createdAt

def jobDue (job : Job) : Bool := job.status ∈ terminalJobStatuses && pastWindow now jobsDays job.createdAt

/-! ### The statements -/

/-- The statements that touch the linked tables. -/
def onLinked (f : LinkedTables → LinkedTables) : Script RuntimeStore :=
  Script.statement fun s => { s with linked := f s.linked }

/-- The statements that touch the logs. -/
def onLogs (f : LogTables → LogTables) : Script RuntimeStore := Script.statement fun s => { s with logs := f s.logs }

def deleteSkillAiExecutions (t : LogTables) : LogTables :=
  { t with skillAiExecutions := t.skillAiExecutions.delete fun e => pastWindow now skillAiExecutionsDays e.createdAt }

def deleteSkillEvents (severities : List String) (window : ℤ) (t : LogTables) : LogTables :=
  { t with skillEvents := t.skillEvents.delete fun e => e.severity ∈ severities && pastWindow now window e.createdAt }

def deleteOutbox (status : String) (window : ℤ) (t : LogTables) : LogTables :=
  { t with outboxMessages := t.outboxMessages.delete fun m => m.status = status && pastWindow now window m.createdAt }

def deleteReactTurnTraces (t : LogTables) : LogTables :=
  { t with reactTurnTraces := t.reactTurnTraces.delete fun r => pastWindow now reactTurnTraceDays r.createdAt }

/-- `delete_summaries_older_than`. -/
def deleteReactSummaries (t : LogTables) : LogTables :=
  { t with reactSummaries := t.reactSummaries.delete fun r => pastWindow now reactCheckpointDays r.updatedAt }

/-- A checkpoint of the thread. -/
def ReactCheckpoint.within (thread : String × String) (c : ReactCheckpoint) : Bool := (c.key.1, c.key.2.1) = thread

def ReactCheckpointWrite.within (thread : String × String) (w : ReactCheckpointWrite) : Bool :=
  (w.key.1, w.key.2.1) = thread

/-- `stale_threads`: `GROUP BY thread_id, checkpoint_ns HAVING max(created_at) < cp_cutoff`. -/
def staleThreads (t : LogTables) : List (String × String) :=
  ((t.reactCheckpoints.rows.map fun c => (c.key.1, c.key.2.1)).dedup).filter fun thread =>
    (t.reactCheckpoints.rows.filter (ReactCheckpoint.within thread)).all fun c => pastWindow now reactCheckpointDays c.createdAt

def deleteCheckpointWrites (thread : String × String) (t : LogTables) : LogTables :=
  { t with reactCheckpointWrites := t.reactCheckpointWrites.delete (ReactCheckpointWrite.within thread) }

def deleteCheckpoints (thread : String × String) (t : LogTables) : LogTables :=
  { t with reactCheckpoints := t.reactCheckpoints.delete (ReactCheckpoint.within thread) }

def deleteSkillRunAttempts (t : LinkedTables) : LinkedTables :=
  { t with skillRunAttempts := t.skillRunAttempts.delete (attemptDue now t.skillRuns) }

def deleteSkillRuns (t : LinkedTables) : LinkedTables :=
  { t with skillRuns := t.skillRuns.delete (skillRunDue now skillRunsDays) }

def deleteStepExecutionLedger (t : LinkedTables) : LinkedTables :=
  { t with stepExecutionLedger := t.stepExecutionLedger.delete fun l =>
      underDueExecution now t.agentRuns t.plannerExecutions (some l.executionId) }

def deletePlannerGaps (t : LinkedTables) : LinkedTables :=
  { t with plannerGaps := t.plannerGaps.delete fun g =>
      underDueExecution now t.agentRuns t.plannerExecutions g.executionId }

def deletePlannerLlmReservations (t : LinkedTables) : LinkedTables :=
  { t with plannerLlmReservations := t.plannerLlmReservations.delete fun r =>
      underDueExecution now t.agentRuns t.plannerExecutions r.executionId }

def deletePlannerExecutions (t : LinkedTables) : LinkedTables :=
  { t with plannerExecutions := t.plannerExecutions.delete (executionDue now t.agentRuns) }

def deleteAgentRuns (t : LinkedTables) : LinkedTables := { t with agentRuns := t.agentRuns.delete (agentRunDue now) }

/-! ### Chunks -/

/-- `_unlink_then_delete_chunked`. -/
def unlinkThenDeleteChunked (selectIds : LinkedTables → List String) (makeUnlink makeDelete : List String → LinkedTables → LinkedTables)
    (chunkSize fuel : ℕ) : Script RuntimeStore :=
  Script.chunked chunkSize (fun s => selectIds s.linked)
    (fun ids => Script.sequence [onLinked (makeUnlink ids), onLinked (makeDelete ids)]) fuel

/-- `ORDER BY created_at, id`. -/
def orderIds (rows : List (ℤ × String)) : List String :=
  (rows.insertionSort fun a b => a.1 < b.1 ∨ a.1 = b.1 ∧ a.2 ≤ b.2).map (·.2)

def selectInbound (t : LinkedTables) : List String :=
  orderIds ((t.inboundMessages.rows.filter (inboundDue now)).map fun m => (m.createdAt, m.id))

/-- `values(inbound_message_id=None)`. -/
def AgentRun.clearInbound (run : AgentRun) : AgentRun := { run with inboundMessageId := none }

theorem AgentRun.clearInbound_id (run : AgentRun) : run.clearInbound.id = run.id := rfl

def unlinkInbound (ids : List String) (t : LinkedTables) : LinkedTables :=
  { t with
    agentRuns := t.agentRuns.update (fun r => r.inboundMessageId.any (· ∈ ids)) AgentRun.clearInbound AgentRun.clearInbound_id }

def deleteInbound (ids : List String) (t : LinkedTables) : LinkedTables :=
  { t with inboundMessages := t.inboundMessages.delete fun m => m.id ∈ ids }

def selectJobs (t : LinkedTables) : List String :=
  orderIds ((t.jobs.rows.filter (jobDue now)).map fun j => (j.createdAt, j.id))

/-- `values(job_id=None)`. -/
def AgentRun.clearJob (run : AgentRun) : AgentRun := { run with jobId := none }

theorem AgentRun.clearJob_id (run : AgentRun) : run.clearJob.id = run.id := rfl

def unlinkJobs (ids : List String) (t : LinkedTables) : LinkedTables :=
  { t with agentRuns := t.agentRuns.update (fun r => r.jobId.any (· ∈ ids)) AgentRun.clearJob AgentRun.clearJob_id }

def deleteJobs (ids : List String) (t : LinkedTables) : LinkedTables :=
  { t with jobs := t.jobs.delete fun j => j.id ∈ ids }

/-! ### The cleanup -/

/-- `cleanup_runtime_retention`; the loops have fuel. -/
def cleanupRuntimeRetention (chunkSize fuel : ℕ) : Script RuntimeStore :=
  Script.sequence
    [onLogs (deleteSkillAiExecutions now),
      onLogs (deleteSkillEvents now ["debug", "info"] skillEventsDebugInfoDays),
      onLogs (deleteSkillEvents now ["warn", "error"] skillEventsWarnErrorDays),
      onLinked (deleteSkillRunAttempts now),
      onLinked (deleteSkillRuns now),
      onLinked (deleteStepExecutionLedger now),
      onLinked (deletePlannerGaps now),
      onLinked (deletePlannerLlmReservations now),
      onLinked (deletePlannerExecutions now),
      onLinked (deleteAgentRuns now),
      unlinkThenDeleteChunked (selectInbound now) unlinkInbound deleteInbound chunkSize fuel,
      unlinkThenDeleteChunked (selectJobs now) unlinkJobs deleteJobs chunkSize fuel,
      onLogs (deleteOutbox now "sent" outboxSentDays),
      onLogs (deleteOutbox now "failed" outboxFailedDays),
      onLogs (deleteOutbox now "dropped" outboxDroppedDays),
      onLogs (deleteReactTurnTraces now),
      Script.forEach (fun s => staleThreads now s.logs) fun thread =>
        Script.sequence [onLogs (deleteCheckpointWrites thread), onLogs (deleteCheckpoints thread)],
      onLogs (deleteReactSummaries now)]

/-! ### What is kept -/

/-- A thread none of whose checkpoints is young. -/
def threadDue (t : LogTables) (thread : String × String) : Bool :=
  (t.reactCheckpoints.rows.any (ReactCheckpoint.within thread)) &&
    t.reactCheckpoints.rows.all fun c => !c.within thread || pastWindow now reactCheckpointDays c.createdAt

/-- A run that names a row that goes keeps nothing of the name. -/
def unlinked (t : LinkedTables) (run : AgentRun) : AgentRun :=
  { run with
    jobId := run.jobId.filter fun id => !t.jobs.rows.any fun j => j.id = id && jobDue now j
    inboundMessageId := run.inboundMessageId.filter fun id => !t.inboundMessages.rows.any fun m => m.id = id && inboundDue now m }

theorem unlinked_id (t : LinkedTables) (run : AgentRun) : (unlinked now t run).id = run.id := rfl

/-- The linked tables without what is due, each row judged on the tables as they are. -/
def LinkedTables.retained (t : LinkedTables) : LinkedTables where
  agentRuns := (t.agentRuns.delete (agentRunDue now)).update (fun _ => true) (unlinked now t) (unlinked_id now t)
  plannerExecutions := t.plannerExecutions.delete (executionDue now t.agentRuns)
  stepExecutionLedger := t.stepExecutionLedger.delete fun l =>
    underDueExecution now t.agentRuns t.plannerExecutions (some l.executionId)
  plannerGaps := t.plannerGaps.delete fun g => underDueExecution now t.agentRuns t.plannerExecutions g.executionId
  plannerLlmReservations := t.plannerLlmReservations.delete fun r =>
    underDueExecution now t.agentRuns t.plannerExecutions r.executionId
  skillRuns := t.skillRuns.delete (skillRunDue now skillRunsDays)
  skillRunAttempts := t.skillRunAttempts.delete (attemptDue now t.skillRuns)
  inboundMessages := t.inboundMessages.delete (inboundDue now)
  jobs := t.jobs.delete (jobDue now)

/-- The logs without what is past its window. -/
def LogTables.retained (t : LogTables) : LogTables where
  skillAiExecutions := t.skillAiExecutions.delete fun e => pastWindow now skillAiExecutionsDays e.createdAt
  skillEvents := t.skillEvents.delete fun e =>
    e.severity ∈ ["debug", "info"] && pastWindow now skillEventsDebugInfoDays e.createdAt ||
      e.severity ∈ ["warn", "error"] && pastWindow now skillEventsWarnErrorDays e.createdAt
  outboxMessages := t.outboxMessages.delete fun m =>
    m.status = "sent" && pastWindow now outboxSentDays m.createdAt ||
      m.status = "failed" && pastWindow now outboxFailedDays m.createdAt ||
        m.status = "dropped" && pastWindow now outboxDroppedDays m.createdAt
  reactTurnTraces := t.reactTurnTraces.delete fun r => pastWindow now reactTurnTraceDays r.createdAt
  reactCheckpoints := t.reactCheckpoints.delete fun c => threadDue now t (c.key.1, c.key.2.1)
  reactCheckpointWrites := t.reactCheckpointWrites.delete fun w => threadDue now t (w.key.1, w.key.2.1)
  reactSummaries := t.reactSummaries.delete fun r => pastWindow now reactCheckpointDays r.updatedAt

def RuntimeStore.retained (s : RuntimeStore) : RuntimeStore := ⟨s.linked.retained now, s.logs.retained now⟩

end Predicates

variable {chunkSize fuel : ℕ} {id : String}

section Proofs

variable {now : ℤ}

/-! ### The foreign keys after each statement -/

namespace ForeignKeys

variable {t : LinkedTables}

theorem deleteSkillRunAttempts (now : ℤ) (h : ForeignKeys t) : ForeignKeys (deleteSkillRunAttempts now t) :=
  { h with attempt_run := h.attempt_run.delete_child _ }

/-- The attempts of the runs that go have gone. -/
theorem deleteSkillRuns (now : ℤ) (h : ForeignKeys t) (hattempts : ∀ a ∈ t.skillRunAttempts.rows, attemptDue now t.skillRuns a = false) :
    ForeignKeys (deleteSkillRuns now t) := by
  refine { h with attempt_run := h.attempt_run.delete_parent fun a ha run hrun href => ?_ }
  have hnone := List.any_eq_false.mp (hattempts a ha) run hrun
  simpa [(Option.some.inj href).symm, skillAttemptsDays, skillRunsDays] using hnone

theorem deleteStepExecutionLedger (now : ℤ) (h : ForeignKeys t) : ForeignKeys (deleteStepExecutionLedger now t) :=
  { h with ledger_execution := h.ledger_execution.delete_child _ }

theorem deletePlannerGaps (now : ℤ) (h : ForeignKeys t) : ForeignKeys (deletePlannerGaps now t) :=
  { h with gap_execution := h.gap_execution.delete_child _ }

theorem deletePlannerLlmReservations (now : ℤ) (h : ForeignKeys t) : ForeignKeys (deletePlannerLlmReservations now t) :=
  { h with reservation_execution := h.reservation_execution.delete_child _ }

theorem not_due_of_child {executionId : Option String} {execution : PlannerExecution}
    (hchild : underDueExecution now t.agentRuns t.plannerExecutions executionId = false)
    (hmem : execution ∈ t.plannerExecutions.rows) (href : executionId = some execution.id) :
    executionDue now t.agentRuns execution = false := by
  have hnone := List.any_eq_false.mp hchild execution hmem
  simpa [href] using hnone

/-- The children of the executions that go have gone. -/
theorem deletePlannerExecutions (now : ℤ) (h : ForeignKeys t)
    (hledger : ∀ l ∈ t.stepExecutionLedger.rows, underDueExecution now t.agentRuns t.plannerExecutions (some l.executionId) = false)
    (hgaps : ∀ g ∈ t.plannerGaps.rows, underDueExecution now t.agentRuns t.plannerExecutions g.executionId = false)
    (hreservations : ∀ r ∈ t.plannerLlmReservations.rows,
      underDueExecution now t.agentRuns t.plannerExecutions r.executionId = false) :
    ForeignKeys (deletePlannerExecutions now t) where
  run_job := h.run_job
  run_inbound := h.run_inbound
  execution_run := h.execution_run.delete_child _
  ledger_execution := h.ledger_execution.delete_parent fun l hl _ he href => not_due_of_child (hledger l hl) he href
  gap_execution := h.gap_execution.delete_parent fun g hg _ he href => not_due_of_child (hgaps g hg) he href
  reservation_execution :=
    h.reservation_execution.delete_parent fun r hr _ he href => not_due_of_child (hreservations r hr) he href
  attempt_run := h.attempt_run

/-- The executions under the runs that go have gone. -/
theorem deleteAgentRuns (now : ℤ) (h : ForeignKeys t)
    (hexecutions : ∀ e ∈ t.plannerExecutions.rows, executionDue now t.agentRuns e = false) :
    ForeignKeys (deleteAgentRuns now t) := by
  refine { h with
    run_job := h.run_job.delete_child _
    run_inbound := h.run_inbound.delete_child _
    execution_run := h.execution_run.delete_parent fun e he run hrun href => ?_ }
  have hnone := List.any_eq_false.mp (Bool.or_eq_false_iff.mp (hexecutions e he)).1 run hrun
  simpa [(Option.some.inj href).symm] using hnone

theorem unlinkInbound (h : ForeignKeys t) (ids : List String) : ForeignKeys (unlinkInbound ids t) :=
  { h with
    run_job := h.run_job.update_child AgentRun.clearInbound_id fun _ => .inr rfl
    run_inbound := h.run_inbound.update_child AgentRun.clearInbound_id fun _ => .inl rfl
    execution_run := h.execution_run.update_parent AgentRun.clearInbound_id }

/-- No run names the messages of a chunk any more. -/
theorem clearInbound (h : ForeignKeys t) (ids : List String) : ForeignKeys (deleteInbound ids (Maintenance.unlinkInbound ids t)) := by
  have hunlinked := h.unlinkInbound ids
  refine { hunlinked with run_inbound := hunlinked.run_inbound.delete_parent fun run hrun message _ href => ?_ }
  obtain ⟨before, -, rfl⟩ := (Keyed.mem_update AgentRun.clearInbound_id).mp hrun
  split at href
  · cases href
  next hids => simpa [href] using hids

theorem unlinkJobs (h : ForeignKeys t) (ids : List String) : ForeignKeys (unlinkJobs ids t) :=
  { h with
    run_job := h.run_job.update_child AgentRun.clearJob_id fun _ => .inl rfl
    run_inbound := h.run_inbound.update_child AgentRun.clearJob_id fun _ => .inr rfl
    execution_run := h.execution_run.update_parent AgentRun.clearJob_id }

theorem clearJobs (h : ForeignKeys t) (ids : List String) : ForeignKeys (deleteJobs ids (Maintenance.unlinkJobs ids t)) := by
  have hunlinked := h.unlinkJobs ids
  refine { hunlinked with run_job := hunlinked.run_job.delete_parent fun run hrun job _ href => ?_ }
  obtain ⟨before, -, rfl⟩ := (Keyed.mem_update AgentRun.clearJob_id).mp hrun
  split at href
  · cases href
  next hids => simpa [href] using hids

end ForeignKeys

/-! ### The chunks -/

/-- The foreign keys of the store. -/
def KeysHold (s : RuntimeStore) : Prop := ForeignKeys s.linked

theorem onLinked_takes {I : RuntimeStore → Prop} {f : LinkedTables → LinkedTables} {s : RuntimeStore}
    (h : I { s with linked := f s.linked }) : Takes (onLinked f) I s { s with linked := f s.linked } := .statement h

theorem onLogs_takes {I : RuntimeStore → Prop} {f : LogTables → LogTables} {s : RuntimeStore}
    (h : I { s with logs := f s.logs }) : Takes (onLogs f) I s { s with logs := f s.logs } := .statement h

/-- **Unlink, then delete**: the loop ends, and it has cleared what was selected at the start. -/
theorem unlinkThenDelete_takes {selectIds : LinkedTables → List String}
    {makeUnlink makeDelete : List String → LinkedTables → LinkedTables} (size : LinkedTables → ℕ)
    (hunlink : ∀ ids t, ForeignKeys t → ForeignKeys (makeUnlink ids t))
    (hdelete : ∀ ids t, ForeignKeys t → ForeignKeys (makeDelete ids (makeUnlink ids t)))
    (hnil : ∀ t, makeDelete [] (makeUnlink [] t) = t)
    (happend : ∀ ids ids' t, makeDelete ids' (makeUnlink ids' (makeDelete ids (makeUnlink ids t))) =
      makeDelete (ids ++ ids') (makeUnlink (ids ++ ids') t))
    (hcongr : ∀ ids ids' t, (∀ id, id ∈ ids ↔ id ∈ ids') →
      makeDelete ids (makeUnlink ids t) = makeDelete ids' (makeUnlink ids' t))
    (hselect : ∀ ids t id, id ∈ selectIds (makeDelete ids (makeUnlink ids t)) ↔ id ∈ selectIds t ∧ id ∉ ids)
    (hsize : ∀ ids t, ∀ id ∈ ids, id ∈ selectIds t → size (makeDelete ids (makeUnlink ids t)) < size t)
    {s : RuntimeStore} (hchunk : 1 ≤ chunkSize) (hfuel : size s.linked < fuel) (hs : KeysHold s) :
    Takes (unlinkThenDeleteChunked selectIds makeUnlink makeDelete chunkSize fuel) KeysHold s
      { s with linked := makeDelete (selectIds s.linked) (makeUnlink (selectIds s.linked) s.linked) } := by
  let clear (ids : List String) (u : RuntimeStore) : RuntimeStore := { u with linked := makeDelete ids (makeUnlink ids u.linked) }
  have hloop : ∃ ids, (∀ id ∈ ids, id ∈ selectIds s.linked) ∧ selectIds (clear ids s).linked = [] ∧
      Takes (unlinkThenDeleteChunked selectIds makeUnlink makeDelete chunkSize fuel) KeysHold s (clear ids s) := by
    refine Takes.chunked clear (fun u => size u.linked) hchunk (fun ids u hu _ => ?_) (fun u => ?_) (fun ids ids' u => ?_)
      (fun ids u id hid => ((hselect ids u.linked id).mp hid).1) (fun ids u hne hids => ?_) hfuel hs
    · exact (onLinked_takes (hunlink ids _ hu)).cons ((onLinked_takes (hdelete ids _ hu)).cons .skip)
    · simp only [clear, hnil]
    · simp only [clear, happend]
    · obtain ⟨id, hid⟩ := List.exists_mem_of_ne_nil ids hne
      exact hsize ids u.linked id hid (hids id hid)
  obtain ⟨ids, hfound, hempty, htakes⟩ := hloop
  have hall : ∀ id, id ∈ ids ↔ id ∈ selectIds s.linked := by
    refine fun id => ⟨hfound id, fun hid => by_contra fun hout => ?_⟩
    have hleft : id ∈ selectIds (clear ids s).linked := (hselect ids s.linked id).mpr ⟨hid, hout⟩
    rw [hempty] at hleft
    cases hleft
  have hclear : clear ids s = clear (selectIds s.linked) s := by simp only [clear, hcongr ids _ s.linked hall]
  rw [hclear] at htakes
  exact htakes

theorem mem_orderIds {rows : List (ℤ × String)} : id ∈ orderIds rows ↔ ∃ at', (at', id) ∈ rows := by
  simp [orderIds, List.mem_insertionSort]

theorem mem_selectInbound {t : LinkedTables} :
    id ∈ selectInbound now t ↔ ∃ m ∈ t.inboundMessages.rows, m.id = id ∧ inboundDue now m = true := by
  simp only [selectInbound, mem_orderIds, List.mem_map, List.mem_filter, Prod.mk.injEq]
  constructor
  · rintro ⟨_, m, ⟨hm, hdue⟩, rfl, rfl⟩
    exact ⟨m, hm, rfl, hdue⟩
  · rintro ⟨m, hm, rfl, hdue⟩
    exact ⟨_, m, ⟨hm, hdue⟩, rfl, rfl⟩

theorem mem_selectJobs {t : LinkedTables} :
    id ∈ selectJobs now t ↔ ∃ j ∈ t.jobs.rows, j.id = id ∧ jobDue now j = true := by
  simp only [selectJobs, mem_orderIds, List.mem_map, List.mem_filter, Prod.mk.injEq]
  constructor
  · rintro ⟨_, j, ⟨hj, hdue⟩, rfl, rfl⟩
    exact ⟨j, hj, rfl, hdue⟩
  · rintro ⟨j, hj, rfl, hdue⟩
    exact ⟨_, j, ⟨hj, hdue⟩, rfl, rfl⟩

theorem inbound_takes (now : ℤ) {s : RuntimeStore} (hchunk : 1 ≤ chunkSize)
    (hfuel : s.linked.inboundMessages.rows.length < fuel) (hs : KeysHold s) :
    Takes (unlinkThenDeleteChunked (selectInbound now) unlinkInbound deleteInbound chunkSize fuel) KeysHold s
      { s with linked := deleteInbound (selectInbound now s.linked) (unlinkInbound (selectInbound now s.linked) s.linked) } := by
  refine unlinkThenDelete_takes (fun t => t.inboundMessages.rows.length) (fun ids _ h => h.unlinkInbound ids)
    (fun ids _ h => h.clearInbound ids) ?_ ?_ ?_ ?_ ?_ hchunk hfuel hs
  · intro t
    simp only [deleteInbound, unlinkInbound]
    rw [Keyed.update_of_false fun r _ => by cases r.inboundMessageId <;> simp, Keyed.delete_of_false fun m _ => by simp]
  · intro ids ids' t
    simp only [deleteInbound, unlinkInbound]
    rw [Keyed.update_update fun r => rfl, Keyed.delete_delete]
    congr 1
    · exact Keyed.update_congr fun r _ => by cases r.inboundMessageId <;> simp
    · exact Keyed.delete_congr fun m _ => by simp
  · intro ids ids' t h
    simp only [deleteInbound, unlinkInbound, h]
  · intro ids t id
    simp only [mem_selectInbound, deleteInbound, unlinkInbound, Keyed.rows_delete, List.mem_filter]
    constructor
    · rintro ⟨m, ⟨hm, hout⟩, rfl, hdue⟩
      exact ⟨⟨m, hm, rfl, hdue⟩, by simpa using hout⟩
    · rintro ⟨⟨m, hm, rfl, hdue⟩, hout⟩
      exact ⟨m, ⟨hm, by simpa using hout⟩, rfl, hdue⟩
  · intro ids t id hid hselect
    obtain ⟨m, hm, rfl, -⟩ := mem_selectInbound.mp hselect
    exact Keyed.length_delete_lt hm (decide_eq_true hid)

theorem jobs_takes (now : ℤ) {s : RuntimeStore} (hchunk : 1 ≤ chunkSize)
    (hfuel : s.linked.jobs.rows.length < fuel) (hs : KeysHold s) :
    Takes (unlinkThenDeleteChunked (selectJobs now) unlinkJobs deleteJobs chunkSize fuel) KeysHold s
      { s with linked := deleteJobs (selectJobs now s.linked) (unlinkJobs (selectJobs now s.linked) s.linked) } := by
  refine unlinkThenDelete_takes (fun t => t.jobs.rows.length) (fun ids _ h => h.unlinkJobs ids)
    (fun ids _ h => h.clearJobs ids) ?_ ?_ ?_ ?_ ?_ hchunk hfuel hs
  · intro t
    simp only [deleteJobs, unlinkJobs]
    rw [Keyed.update_of_false fun r _ => by cases r.jobId <;> simp, Keyed.delete_of_false fun j _ => by simp]
  · intro ids ids' t
    simp only [deleteJobs, unlinkJobs]
    rw [Keyed.update_update fun r => rfl, Keyed.delete_delete]
    congr 1
    · exact Keyed.update_congr fun r _ => by cases r.jobId <;> simp
    · exact Keyed.delete_congr fun j _ => by simp
  · intro ids ids' t h
    simp only [deleteJobs, unlinkJobs, h]
  · intro ids t id
    simp only [mem_selectJobs, deleteJobs, unlinkJobs, Keyed.rows_delete, List.mem_filter]
    constructor
    · rintro ⟨j, ⟨hj, hout⟩, rfl, hdue⟩
      exact ⟨⟨j, hj, rfl, hdue⟩, by simpa using hout⟩
    · rintro ⟨⟨j, hj, rfl, hdue⟩, hout⟩
      exact ⟨j, ⟨hj, by simpa using hout⟩, rfl, hdue⟩
  · intro ids t id hid hselect
    obtain ⟨j, hj, rfl, -⟩ := mem_selectJobs.mp hselect
    exact Keyed.length_delete_lt hj (decide_eq_true hid)

/-! ### The stale threads -/

theorem mem_staleThreads {t : LogTables} {thread : String × String} :
    thread ∈ staleThreads now t ↔ threadDue now t thread = true := by
  simp only [staleThreads, threadDue, ReactCheckpoint.within, List.mem_filter, List.mem_dedup, List.mem_map, List.all_eq_true,
    Bool.and_eq_true, List.any_eq_true, decide_eq_true_eq, Bool.or_eq_true, Bool.not_eq_true', decide_eq_false_iff_not]
  refine and_congr_right fun _ => forall_congr' fun c => ?_
  constructor
  · exact fun h hc => or_iff_not_imp_left.mpr fun hthread => h ⟨hc, not_not.mp hthread⟩
  · exact fun h hc => (h hc.1).resolve_left (not_not.mpr hc.2)

/-- What the loop over the stale threads leaves. -/
def withoutThreads (threads : List (String × String)) (t : LogTables) : LogTables :=
  { t with
    reactCheckpoints := t.reactCheckpoints.delete fun c => (c.key.1, c.key.2.1) ∈ threads
    reactCheckpointWrites := t.reactCheckpointWrites.delete fun w => (w.key.1, w.key.2.1) ∈ threads }

theorem foldl_threads (threads : List (String × String)) (s : RuntimeStore) :
    threads.foldl (fun s thread => { s with logs := deleteCheckpoints thread (deleteCheckpointWrites thread s.logs) }) s =
      { s with logs := withoutThreads threads s.logs } := by
  induction threads generalizing s with
  | nil =>
    simp only [List.foldl_nil, withoutThreads]
    rw [Keyed.delete_of_false fun c _ => by simp, Keyed.delete_of_false fun w _ => by simp]
  | cons thread threads ih =>
    rw [List.foldl_cons, ih]
    simp only [withoutThreads, deleteCheckpoints, deleteCheckpointWrites, Keyed.delete_delete]
    congr 2
    · exact Keyed.delete_congr fun c _ => by simp [ReactCheckpoint.within]
    · exact Keyed.delete_congr fun w _ => by simp [ReactCheckpointWrite.within]

theorem staleThreads_takes (now : ℤ) {s : RuntimeStore} (hs : KeysHold s) :
    Takes (Script.forEach (fun s => staleThreads now s.logs) fun thread =>
        Script.sequence [onLogs (deleteCheckpointWrites thread), onLogs (deleteCheckpoints thread)]) KeysHold s
      { s with logs := withoutThreads (staleThreads now s.logs) s.logs } := by
  rw [← foldl_threads]
  exact Takes.forEach (fun thread u hu => (onLogs_takes hu).cons ((onLogs_takes hu).cons .skip)) hs

/-! ### The cleanup as a whole -/

/-- The store after the deletion of the runs. -/
def afterRuns (now : ℤ) (s : RuntimeStore) : RuntimeStore where
  linked := { s.linked.retained now with
    agentRuns := s.linked.agentRuns.delete (agentRunDue now)
    inboundMessages := s.linked.inboundMessages
    jobs := s.linked.jobs }
  logs := deleteSkillEvents now ["warn", "error"] skillEventsWarnErrorDays
    (deleteSkillEvents now ["debug", "info"] skillEventsDebugInfoDays (deleteSkillAiExecutions now s.logs))

/-- The runs and attempts, the planner executions and their children. -/
theorem runs_take (now : ℤ) {s : RuntimeStore} (hs : KeysHold s) :
    Takes (Script.sequence
      [onLogs (deleteSkillAiExecutions now),
        onLogs (deleteSkillEvents now ["debug", "info"] skillEventsDebugInfoDays),
        onLogs (deleteSkillEvents now ["warn", "error"] skillEventsWarnErrorDays),
        onLinked (deleteSkillRunAttempts now), onLinked (deleteSkillRuns now), onLinked (deleteStepExecutionLedger now),
        onLinked (deletePlannerGaps now), onLinked (deletePlannerLlmReservations now), onLinked (deletePlannerExecutions now),
        onLinked (deleteAgentRuns now)]) KeysHold s (afterRuns now s) := by
  have hout : ∀ {α κ : Type} {key : α → κ} {table : Keyed key} {p : α → Bool}, ∀ a ∈ (table.delete p).rows, p a = false :=
    fun a ha => by simpa using (List.mem_filter.mp ha).2
  have hattempts := ForeignKeys.deleteSkillRunAttempts now hs
  have hskills := hattempts.deleteSkillRuns now fun a ha => hout a ha
  have hledger := hskills.deleteStepExecutionLedger now
  have hgaps := hledger.deletePlannerGaps now
  have hreservations := hgaps.deletePlannerLlmReservations now
  have hexecutions := hreservations.deletePlannerExecutions now (fun l hl => hout l hl) (fun g hg => hout g hg) fun r hr => hout r hr
  have hruns := hexecutions.deleteAgentRuns now fun e he => hout e he
  refine (onLogs_takes hs).cons ((onLogs_takes hs).cons ((onLogs_takes hs).cons ?_))
  refine (onLinked_takes hattempts).cons ((onLinked_takes hskills).cons ((onLinked_takes hledger).cons ?_))
  refine (onLinked_takes hgaps).cons ((onLinked_takes hreservations).cons ((onLinked_takes hexecutions).cons ?_))
  exact (onLinked_takes hruns).cons .skip

theorem selectInbound_iff {t : LinkedTables} :
    id ∈ selectInbound now t ↔ (t.inboundMessages.rows.any fun m => m.id = id && inboundDue now m) = true := by
  simp [mem_selectInbound]

theorem selectJobs_iff {t : LinkedTables} :
    id ∈ selectJobs now t ↔ (t.jobs.rows.any fun j => j.id = id && jobDue now j) = true := by
  simp [mem_selectJobs]

/-- The ids that are selected are the rows that are due. -/
theorem delete_selectInbound (t : LinkedTables) :
    (t.inboundMessages.delete fun m => m.id ∈ selectInbound now t) = t.inboundMessages.delete (inboundDue now) := by
  refine Keyed.delete_congr fun m hm => Bool.eq_iff_iff.mpr ?_
  rw [decide_eq_true_iff, mem_selectInbound]
  constructor
  · rintro ⟨m', hm', hid, hdue⟩
    rwa [t.inboundMessages.eq_of_key hm hm' hid.symm]
  · exact fun hdue => ⟨m, hm, rfl, hdue⟩

theorem delete_selectJobs (t : LinkedTables) :
    (t.jobs.delete fun j => j.id ∈ selectJobs now t) = t.jobs.delete (jobDue now) := by
  refine Keyed.delete_congr fun j hj => Bool.eq_iff_iff.mpr ?_
  rw [decide_eq_true_iff, mem_selectJobs]
  constructor
  · rintro ⟨j', hj', hid, hdue⟩
    rwa [t.jobs.eq_of_key hj hj' hid.symm]
  · exact fun hdue => ⟨j, hj, rfl, hdue⟩

/-- A name that two loops have cleared, one column each. -/
theorem unlinked_eq (t : LinkedTables) (run : AgentRun) :
    (if (if run.inboundMessageId.any (· ∈ selectInbound now t) then run.clearInbound else run).jobId.any (· ∈ selectJobs now t)
      then (if run.inboundMessageId.any (· ∈ selectInbound now t) then run.clearInbound else run).clearJob
      else if run.inboundMessageId.any (· ∈ selectInbound now t) then run.clearInbound else run) = unlinked now t run := by
  obtain ⟨id, jobId, inboundMessageId, status, createdAt⟩ := run
  have hinbound : ∀ (o : Option String), (if o.any (· ∈ selectInbound now t) then none else o) =
      o.filter fun id => !t.inboundMessages.rows.any fun m => m.id = id && inboundDue now m := by
    rintro (_ | id)
    · rfl
    · simp only [Option.any_some, decide_eq_true_eq, selectInbound_iff, Option.filter]
      by_cases hdue : (t.inboundMessages.rows.any fun m => m.id = id && inboundDue now m) = true <;> simp only [hdue] <;> rfl
  have hjob : ∀ (o : Option String), (if o.any (· ∈ selectJobs now t) then none else o) =
      o.filter fun id => !t.jobs.rows.any fun j => j.id = id && jobDue now j := by
    rintro (_ | id)
    · rfl
    · simp only [Option.any_some, decide_eq_true_eq, selectJobs_iff, Option.filter]
      by_cases hdue : (t.jobs.rows.any fun j => j.id = id && jobDue now j) = true <;> simp only [hdue] <;> rfl
  rw [unlinked, ← hinbound, ← hjob]
  by_cases hi : inboundMessageId.any (· ∈ selectInbound now t) <;> by_cases hj : jobId.any (· ∈ selectJobs now t) <;>
    simp only [hi, hj, AgentRun.clearInbound, AgentRun.clearJob, if_true, if_false, Bool.false_eq_true]

theorem agentRuns_retained (t : LinkedTables) :
    ((t.agentRuns.delete (agentRunDue now)).update (fun r => r.inboundMessageId.any (· ∈ selectInbound now t))
        AgentRun.clearInbound AgentRun.clearInbound_id).update (fun r => r.jobId.any (· ∈ selectJobs now t))
        AgentRun.clearJob AgentRun.clearJob_id = (t.retained now).agentRuns := by
  refine Keyed.eq_of_rows ?_
  simp only [LinkedTables.retained, Keyed.rows_update, List.map_map]
  exact List.map_congr_left fun run _ => unlinked_eq t run

/-- The statements after the loops over messages and jobs. -/
theorem logs_take (now : ℤ) {s : RuntimeStore} (hs : KeysHold s) :
    Takes (Script.sequence
      [onLogs (deleteOutbox now "sent" outboxSentDays), onLogs (deleteOutbox now "failed" outboxFailedDays),
        onLogs (deleteOutbox now "dropped" outboxDroppedDays), onLogs (deleteReactTurnTraces now),
        Script.forEach (fun s => staleThreads now s.logs) fun thread =>
          Script.sequence [onLogs (deleteCheckpointWrites thread), onLogs (deleteCheckpoints thread)],
        onLogs (deleteReactSummaries now)]) KeysHold s
      { s with logs := deleteReactSummaries now (withoutThreads (staleThreads now s.logs)
          (deleteReactTurnTraces now (deleteOutbox now "dropped" outboxDroppedDays
            (deleteOutbox now "failed" outboxFailedDays (deleteOutbox now "sent" outboxSentDays s.logs))))) } := by
  refine (onLogs_takes hs).cons ((onLogs_takes hs).cons ((onLogs_takes hs).cons ((onLogs_takes hs).cons ?_)))
  refine Takes.cons (staleThreads_takes now ?_) ((onLogs_takes hs).cons .skip)
  exact hs

theorem logs_retained (t : LogTables) :
    deleteReactSummaries now (withoutThreads (staleThreads now t) (deleteReactTurnTraces now
      (deleteOutbox now "dropped" outboxDroppedDays (deleteOutbox now "failed" outboxFailedDays
        (deleteOutbox now "sent" outboxSentDays (deleteSkillEvents now ["warn", "error"] skillEventsWarnErrorDays
          (deleteSkillEvents now ["debug", "info"] skillEventsDebugInfoDays (deleteSkillAiExecutions now t)))))))) =
      t.retained now := by
  simp only [deleteReactSummaries, withoutThreads, deleteReactTurnTraces, deleteOutbox, deleteSkillEvents,
    deleteSkillAiExecutions, LogTables.retained, Keyed.delete_delete, mem_staleThreads, Bool.decide_eq_true]

theorem cleanup_takes {s : RuntimeStore} (hchunk : 1 ≤ chunkSize) (hs : KeysHold s)
    (hinbound : s.linked.inboundMessages.rows.length < fuel) (hjobs : s.linked.jobs.rows.length < fuel) :
    Takes (cleanupRuntimeRetention now chunkSize fuel) KeysHold s (s.retained now) := by
  let s₁ := afterRuns now s
  let s₂ : RuntimeStore :=
    { s₁ with linked := deleteInbound (selectInbound now s₁.linked) (unlinkInbound (selectInbound now s₁.linked) s₁.linked) }
  let s₃ : RuntimeStore :=
    { s₂ with linked := deleteJobs (selectJobs now s₂.linked) (unlinkJobs (selectJobs now s₂.linked) s₂.linked) }
  have hruns : Takes _ KeysHold s s₁ := runs_take now hs
  have h₁ : KeysHold s₁ := hruns.keeps hs
  have hfirst : Takes _ KeysHold s₁ s₂ := inbound_takes now (s := s₁) hchunk hinbound h₁
  have h₂ : KeysHold s₂ := hfirst.keeps h₁
  have hsecond : Takes _ KeysHold s₂ s₃ := jobs_takes now (s := s₂) hchunk hjobs h₂
  have hlast := logs_take now (hsecond.keeps h₂)
  have hend : { s₃ with logs := deleteReactSummaries now (withoutThreads (staleThreads now s₃.logs)
      (deleteReactTurnTraces now (deleteOutbox now "dropped" outboxDroppedDays
        (deleteOutbox now "failed" outboxFailedDays (deleteOutbox now "sent" outboxSentDays s₃.logs))))) } = s.retained now := by
    ext1
    · exact LinkedTables.ext (agentRuns_retained s.linked) rfl rfl rfl rfl rfl rfl (delete_selectInbound s.linked)
        (delete_selectJobs s.linked)
    · exact logs_retained s.logs
  rw [hend] at hlast
  exact hruns.append (hfirst.cons (hsecond.cons hlast))

/-! ### Another cleanup -/

theorem not_due_of_delete {α κ : Type*} {key : α → κ} {table : Keyed key} {p : α → Bool} :
    ∀ a ∈ (table.delete p).rows, p a = false :=
  fun a ha => by simpa using (List.mem_filter.mp ha).2

theorem agentRun_retained (t : LinkedTables) : ∀ run ∈ (t.retained now).agentRuns.rows, agentRunDue now run = false := by
  intro run hrun
  obtain ⟨before, hbefore, rfl⟩ := (Keyed.mem_update (unlinked_id now t)).mp hrun
  exact not_due_of_delete before hbefore

theorem execution_retained (t : LinkedTables) :
    ∀ e ∈ (t.retained now).plannerExecutions.rows, executionDue now (t.retained now).agentRuns e = false := by
  intro e he
  refine Bool.or_eq_false_iff.mpr ⟨List.any_eq_false.mpr fun run hrun => ?_, ?_⟩
  · simp [agentRun_retained t run hrun]
  · exact (Bool.or_eq_false_iff.mp (not_due_of_delete e he)).2

theorem child_retained (t : LinkedTables) (executionId : Option String) :
    underDueExecution now (t.retained now).agentRuns (t.retained now).plannerExecutions executionId = false :=
  List.any_eq_false.mpr fun e he => by simp [execution_retained t e he]

theorem attempt_retained (t : LinkedTables) (attempt : SkillRunAttempt) :
    attemptDue now (t.retained now).skillRuns attempt = false := by
  refine List.any_eq_false.mpr fun run hrun => ?_
  have hkept : skillRunDue now skillAttemptsDays run = false := not_due_of_delete run hrun
  simp [hkept]

theorem selectInbound_retained (t : LinkedTables) : selectInbound now (t.retained now) = [] := by
  refine List.eq_nil_iff_forall_not_mem.mpr fun id hid => ?_
  obtain ⟨m, hm, -, hdue⟩ := mem_selectInbound.mp hid
  exact absurd hdue (by rw [not_due_of_delete m hm]; exact Bool.false_ne_true)

theorem selectJobs_retained (t : LinkedTables) : selectJobs now (t.retained now) = [] := by
  refine List.eq_nil_iff_forall_not_mem.mpr fun id hid => ?_
  obtain ⟨j, hj, -, hdue⟩ := mem_selectJobs.mp hid
  exact absurd hdue (by rw [not_due_of_delete j hj]; exact Bool.false_ne_true)

/-- A thread that stays has a checkpoint that stays and is young. -/
theorem staleThreads_retained (t : LogTables) : staleThreads now (t.retained now) = [] := by
  refine List.eq_nil_iff_forall_not_mem.mpr fun thread hthread => ?_
  obtain ⟨hany, hall⟩ := Bool.and_eq_true_iff.mp (mem_staleThreads.mp hthread)
  obtain ⟨c, hc, hwithin⟩ := List.any_eq_true.mp hany
  have hkept : threadDue now t thread = false := by
    rw [← of_decide_eq_true hwithin]
    exact not_due_of_delete c hc
  have hsome : (t.reactCheckpoints.rows.any (ReactCheckpoint.within thread)) = true :=
    List.any_eq_true.mpr ⟨c, (List.mem_filter.mp hc).1, hwithin⟩
  have hyoung := hkept
  rw [threadDue, hsome, Bool.true_and, List.all_eq_false] at hyoung
  obtain ⟨young, hmem, hpast⟩ := hyoung
  rw [Bool.or_eq_true, Bool.not_eq_true', not_or, Bool.not_eq_false] at hpast
  have hstays : young ∈ (t.retained now).reactCheckpoints.rows := by
    refine List.mem_filter.mpr ⟨hmem, ?_⟩
    have hsame : (young.key.1, young.key.2.1) = thread := of_decide_eq_true hpast.1
    simp only [hsame, hkept, Bool.not_false]
  have hold := List.all_eq_true.mp hall young hstays
  rw [hpast.1] at hold
  exact hpast.2 hold

section Again

variable {s : RuntimeStore}

theorem onLinked_again {f : LinkedTables → LinkedTables} (h : f s.linked = s.linked) : Takes (onLinked f) (· = s) s s := by
  have hstay : { s with linked := f s.linked } = s := by rw [h]
  have htakes : Takes (onLinked f) (· = s) s { s with linked := f s.linked } := onLinked_takes hstay
  rwa [hstay] at htakes

theorem onLogs_again {f : LogTables → LogTables} (h : f s.logs = s.logs) : Takes (onLogs f) (· = s) s s := by
  have hstay : { s with logs := f s.logs } = s := by rw [h]
  have htakes : Takes (onLogs f) (· = s) s { s with logs := f s.logs } := onLogs_takes hstay
  rwa [hstay] at htakes

theorem chunks_again {selectIds : LinkedTables → List String} {makeUnlink makeDelete : List String → LinkedTables → LinkedTables}
    (hfuel : 0 < fuel) (h : selectIds s.linked = []) :
    Takes (unlinkThenDeleteChunked selectIds makeUnlink makeDelete chunkSize fuel) (· = s) s s := by
  obtain ⟨fuel, rfl⟩ := Nat.exists_eq_succ_of_ne_zero hfuel.ne'
  exact ⟨[], by simp [unlinkThenDeleteChunked, Script.chunked, h], rfl, fun _ hu => (by cases hu)⟩

end Again

/-- **Another cleanup changes nothing**, not even on the way. -/
theorem cleanup_again (hfuel : 0 < fuel) (s : RuntimeStore) :
    Takes (cleanupRuntimeRetention now chunkSize fuel) (· = s.retained now) (s.retained now) (s.retained now) := by
  refine (onLogs_again ?_).cons ((onLogs_again ?_).cons ((onLogs_again ?_).cons ?_))
  · exact congrArg (fun table => { (s.retained now).logs with skillAiExecutions := table }) (Keyed.delete_of_false not_due_of_delete)
  · exact congrArg (fun table : Keyed SkillEvent.id => { (s.retained now).logs with skillEvents := table }) (Keyed.delete_of_false fun e he => (Bool.or_eq_false_iff.mp (not_due_of_delete e he)).1)
  · exact congrArg (fun table : Keyed SkillEvent.id => { (s.retained now).logs with skillEvents := table }) (Keyed.delete_of_false fun e he => (Bool.or_eq_false_iff.mp (not_due_of_delete e he)).2)
  refine (onLinked_again ?_).cons ((onLinked_again ?_).cons ((onLinked_again ?_).cons ?_))
  · exact congrArg (fun table => { (s.retained now).linked with skillRunAttempts := table }) (Keyed.delete_of_false fun a _ => attempt_retained s.linked a)
  · exact congrArg (fun table => { (s.retained now).linked with skillRuns := table }) (Keyed.delete_of_false not_due_of_delete)
  · exact congrArg (fun table => { (s.retained now).linked with stepExecutionLedger := table }) (Keyed.delete_of_false fun _ _ => child_retained s.linked _)
  refine (onLinked_again ?_).cons ((onLinked_again ?_).cons ((onLinked_again ?_).cons ((onLinked_again ?_).cons ?_)))
  · exact congrArg (fun table => { (s.retained now).linked with plannerGaps := table }) (Keyed.delete_of_false fun _ _ => child_retained s.linked _)
  · exact congrArg (fun table => { (s.retained now).linked with plannerLlmReservations := table }) (Keyed.delete_of_false fun _ _ => child_retained s.linked _)
  · exact congrArg (fun table => { (s.retained now).linked with plannerExecutions := table }) (Keyed.delete_of_false (execution_retained s.linked))
  · exact congrArg (fun table => { (s.retained now).linked with agentRuns := table }) (Keyed.delete_of_false (agentRun_retained s.linked))
  refine (chunks_again hfuel (selectInbound_retained s.linked)).cons ((chunks_again hfuel (selectJobs_retained s.linked)).cons ?_)
  refine (onLogs_again ?_).cons ((onLogs_again ?_).cons ((onLogs_again ?_).cons ((onLogs_again ?_).cons ?_)))
  · exact congrArg (fun table : Keyed OutboxMessage.id => { (s.retained now).logs with outboxMessages := table }) (Keyed.delete_of_false fun m hm =>
      (Bool.or_eq_false_iff.mp (Bool.or_eq_false_iff.mp (not_due_of_delete m hm)).1).1)
  · exact congrArg (fun table : Keyed OutboxMessage.id => { (s.retained now).logs with outboxMessages := table }) (Keyed.delete_of_false fun m hm =>
      (Bool.or_eq_false_iff.mp (Bool.or_eq_false_iff.mp (not_due_of_delete m hm)).1).2)
  · exact congrArg (fun table : Keyed OutboxMessage.id => { (s.retained now).logs with outboxMessages := table }) (Keyed.delete_of_false fun m hm =>
      (Bool.or_eq_false_iff.mp (not_due_of_delete m hm)).2)
  · exact congrArg (fun table => { (s.retained now).logs with reactTurnTraces := table }) (Keyed.delete_of_false not_due_of_delete)
  have hthreads : Takes (Script.forEach (fun s => staleThreads now s.logs) fun thread =>
      Script.sequence [onLogs (deleteCheckpointWrites thread), onLogs (deleteCheckpoints thread)]) (· = s.retained now)
      (s.retained now) (s.retained now) := by
    refine ⟨[], ?_, rfl, fun _ hu => (by cases hu)⟩
    rw [Script.forEach, show staleThreads now (s.retained now).logs = [] from staleThreads_retained s.logs]
    rfl
  refine hthreads.cons ((onLogs_again ?_).cons .skip)
  exact congrArg (fun table => { (s.retained now).logs with reactSummaries := table }) (Keyed.delete_of_false not_due_of_delete)

/-! ### The cleanup -/

/-- A run that is not over stays, whatever is cleared of it. -/
theorem live_agentRun_stays {t : LinkedTables} {run : AgentRun} (hrun : run ∈ t.agentRuns.rows)
    (hlive : run.status ∉ terminalAgentRunStatuses) : unlinked now t run ∈ (t.retained now).agentRuns.rows := by
  refine (Keyed.mem_update (unlinked_id now t)).mpr ⟨run, List.mem_filter.mpr ⟨hrun, ?_⟩, rfl⟩
  simp [agentRunDue, hlive]

theorem live_skillRun_stays {t : LinkedTables} {run : SkillRun} (hrun : run ∈ t.skillRuns.rows)
    (hlive : run.status ∉ terminalRunStatuses) : run ∈ (t.retained now).skillRuns.rows :=
  List.mem_filter.mpr ⟨hrun, by simp [skillRunDue, hlive]⟩

theorem live_attempt_stays {t : LinkedTables} {run : SkillRun} {attempt : SkillRunAttempt} (hrun : run ∈ t.skillRuns.rows)
    (hlive : run.status ∉ terminalRunStatuses) (hattempt : attempt ∈ t.skillRunAttempts.rows) (hid : attempt.runId = run.id) :
    attempt ∈ (t.retained now).skillRunAttempts.rows := by
  refine List.mem_filter.mpr ⟨hattempt, ?_⟩
  rw [Bool.not_eq_true', attemptDue, List.any_eq_false]
  intro other hother hdue
  obtain ⟨hsame, hover⟩ := Bool.and_eq_true_iff.mp hdue
  have heq : other = run := t.skillRuns.eq_of_key hother hrun ((of_decide_eq_true hsame).trans hid)
  rw [heq, skillRunDue, decide_eq_false hlive, Bool.false_and] at hover
  cases hover

/-- **The cleanup**: it ends, no statement leaves a row without its parent, and what goes is what is due at the
start. Live runs stay, with their attempts, and a second cleanup changes nothing. -/
theorem retention_cleanup (now : ℤ) (chunkSize fuel : ℕ) (s : RuntimeStore) (hchunk : 1 ≤ chunkSize)
    (hkeys : ForeignKeys s.linked) (hinbound : s.linked.inboundMessages.rows.length < fuel)
    (hjobs : s.linked.jobs.rows.length < fuel) :
    Takes (cleanupRuntimeRetention now chunkSize fuel) (fun u => ForeignKeys u.linked) s (s.retained now) ∧
      (∀ run ∈ s.linked.agentRuns.rows, run.status ∉ terminalAgentRunStatuses →
        unlinked now s.linked run ∈ (s.retained now).linked.agentRuns.rows) ∧
      (∀ run ∈ s.linked.skillRuns.rows, run.status ∉ terminalRunStatuses → run ∈ (s.retained now).linked.skillRuns.rows ∧
        ∀ attempt ∈ s.linked.skillRunAttempts.rows, attempt.runId = run.id →
          attempt ∈ (s.retained now).linked.skillRunAttempts.rows) ∧
      Takes (cleanupRuntimeRetention now chunkSize fuel) (· = s.retained now) (s.retained now) (s.retained now) := by
  refine ⟨cleanup_takes hchunk hkeys hinbound hjobs, fun run hrun hlive => live_agentRun_stays hrun hlive, ?_,
    cleanup_again (by omega) s⟩
  exact fun run hrun hlive => ⟨live_skillRun_stays hrun hlive, fun _ hattempt hid => live_attempt_stays hrun hlive hattempt hid⟩

/-- A store of one live run with an execution that is over, and a message that the run names. -/
def oneRun : RuntimeStore where
  linked :=
    { agentRuns := ⟨[⟨"run", none, some "message", "running", 0⟩], by decide⟩
      plannerExecutions := ⟨[⟨"execution", "run", "completed", 0⟩], by decide⟩
      stepExecutionLedger := .empty
      plannerGaps := .empty
      plannerLlmReservations := .empty
      skillRuns := .empty
      skillRunAttempts := .empty
      inboundMessages := ⟨[⟨"message", 0⟩], by decide⟩
      jobs := .empty }
  logs :=
    { skillAiExecutions := .empty
      skillEvents := .empty
      outboxMessages := .empty
      reactTurnTraces := .empty
      reactCheckpoints := .empty
      reactCheckpointWrites := .empty
      reactSummaries := .empty }

theorem oneRun_keys : ForeignKeys oneRun.linked := by
  constructor <;> simp [References, oneRun]

theorem retention_cleanup_oneRun :
    Takes (cleanupRuntimeRetention (days 91) 1 2) (fun u => ForeignKeys u.linked) oneRun (oneRun.retained (days 91)) :=
  (retention_cleanup (days 91) 1 2 oneRun (by decide) oneRun_keys (by decide) (by decide)).1

/-- An execution that is over goes after a window of its own: its run stays. -/
theorem own_window :
    ¬ ∀ (now : ℤ) (s : RuntimeStore), ForeignKeys s.linked → ∀ states, cleanupRuntimeRetention now 1 2 s = some states →
      ∀ e ∈ s.linked.plannerExecutions.rows, e ∉ (states.getLastD s).linked.plannerExecutions.rows →
        ∃ run ∈ s.linked.agentRuns.rows, run.id = e.runId ∧
          ∀ run' ∈ (states.getLastD s).linked.agentRuns.rows, run'.id ≠ run.id := by
  intro h
  have htakes : Takes (cleanupRuntimeRetention (days 91) 1 2) KeysHold oneRun (oneRun.retained (days 91)) :=
    cleanup_takes le_rfl oneRun_keys (by decide) (by decide)
  obtain ⟨states, hstates, hlast, -⟩ := htakes
  obtain ⟨run, hrun, -, hgone⟩ := h (days 91) oneRun oneRun_keys states hstates ⟨"execution", "run", "completed", 0⟩ (by decide)
    (by rw [hlast]; decide)
  rw [hlast] at hgone
  have hid : run.id = "run" := by rw [List.mem_singleton.mp hrun]
  have hstays : ⟨"run", none, none, "running", 0⟩ ∈ (oneRun.retained (days 91)).linked.agentRuns.rows := by decide
  exact hgone _ hstays hid.symm

end Proofs

end Sreda.Maintenance
