import Mathlib.Logic.Function.Basic
import Sreda.Workers.OutboxDelivery

/-!
# The runtime of an action

`ActionRuntimeService.process_job` (`runtime/executor.py`) for one job, called any number of times at once, each call with a
session of its own. A call reads the job and its run, claims the job by a compare-and-set of its status, runs the graph under
a time limit, and finalises what the graph has left. The steps are the reads, the commits and the awaited calls.

What the graph does is left open: it may commit a terminal status for job and run, and then returns, raises or exceeds the
limit. So is what a notification answers. A session that rolls back reads again what is committed.

## What is proved

* one call at most runs the graph, and the call that has won the claim leaves job and run in one terminal status, with a
  committed `completed` not replaced, if and only if no exception gets out of it before the graph has committed and none is
  finalised after the graph has committed `completed` (`process_job_runs`). `unsettled_calls` has one call of either kind.
-/

namespace Sreda.Workers

open Sreda.Lib

/-! ### The rows -/

/-- The `status` of a job and of a run. -/
inductive ActionStatus where
  | pending | running | completed | failed
  deriving DecidableEq

/-- A terminal status. -/
inductive Terminal where
  | completed | failed
  deriving DecidableEq

def Terminal.status : Terminal → ActionStatus
  | .completed => .completed
  | .failed => .failed

/-- `AGENT_EXECUTE_ACTION_JOB`. -/
def agentExecuteActionJob : String := "agent.execute_action"

/-- `Job`; `runId` is `_extract_run_id` of its payload. -/
structure ActionJob where
  jobType : String
  status : ActionStatus
  runId : Option String

/-- What the finalisers read of an `ActionEnvelope`. -/
structure ActionEnvelope where
  channelType : String
  externalChatId : String
  botKey : String
  deriving DecidableEq

/-- `to_outbox_channel`. -/
def toOutboxChannel (channelType : String) : String :=
  if "telegram".toList.isPrefixOf channelType.toList then "telegram"
  else if "max".toList.isPrefixOf channelType.toList then "max"
  else channelType

/-- `AgentRun`; `action` is its decoded `input_json`, `outboxStatuses` the list in its `result_json`. -/
structure ActionRun where
  status : ActionStatus
  startedAt : Option ℤ
  action : Option ActionEnvelope
  outboxStatuses : Option (List OutboxStatus)
  errorCode : Option String
  errorMessage : Option String
  finishedAt : Option ℤ

/-- The message about a failure. -/
structure FailureMessage where
  channelType : String
  chatId : String
  text : String
  status : OutboxStatus
  botKey : String

/-! ### What the graph and the notification do -/

/-- The exceptions that the handlers tell apart; `asyncio.TimeoutError` is `TimeoutError`, and a `CancelledError` is no
`Exception`. -/
inductive Raised where
  | timeoutError | telegramDeliveryError | exception | baseException
  deriving DecidableEq

/-- How the awaited graph ends. -/
inductive GraphEnd where
  | returns (outcome : Option String)
  | raises (e : Raised)
  | exceedsLimit
  deriving DecidableEq

/-- What a terminal node of the graph commits on the run beside the status. -/
structure GraphWrite where
  outboxStatuses : List OutboxStatus
  error : Option (String × String)
  finishedAt : ℤ

/-- What the notification does; without an answer its own limit runs out, if it has one. -/
inductive NotifyAnswer where
  | sent
  | raises (e : Raised)
  | none
  deriving DecidableEq

/-- Which finaliser runs. -/
inductive Finalizer where
  | timeout | unexpectedFailure
  deriving DecidableEq

def Finalizer.errorCode : Finalizer → String
  | .timeout => "runtime_timeout"
  | .unexpectedFailure => "runtime_unexpected_error"

def Finalizer.message : Finalizer → String
  | .timeout => "Действие отменено по таймауту."
  | .unexpectedFailure => "Не удалось выполнить действие из-за технической ошибки."

/-! ### A call -/

/-- What has happened to the call that has won: what its graph has committed, how it has ended, and the answer to the
notification. -/
structure WinnerStory where
  persisted : Option Terminal
  graphEnd : Option GraphEnd
  answer : Option NotifyAnswer
  deriving DecidableEq

/-- How a call ends. -/
inductive CallResult where
  | returned (result : String)
  | raised (e : Raised)
  deriving DecidableEq

/-- Where a call is. -/
inductive CallStage where
  | loadJob
  | loadRun
  /-- At the commit of `failed` for a job without a run. -/
  | failJob
  /-- At the commit of `completed` for a job whose run is completed. -/
  | completeJob
  | claim
  /-- The claim is committed. -/
  | won
  | graph (action : ActionEnvelope) (persisted : Option Terminal)
  /-- In `_write_failure_with_notification`. -/
  | notify (finalizer : Finalizer) (action : ActionEnvelope) (persisted : Option Terminal) (graphEnd : GraphEnd)
  /-- In `_write_failure_row_only`. -/
  | rowOnly (finalizer : Finalizer) (story : WinnerStory)
  | ended (story : WinnerStory) (result : CallResult)
  /-- Ended without a claim. -/
  | lost (result : String)
  deriving DecidableEq

/-- The rows, the runs of the graph, and the calls. -/
structure ActionState (π : Type) where
  job : ActionJob
  run : Option ActionRun
  outbox : List FailureMessage
  graphRuns : ℕ
  stage : π → CallStage

/-- A step. -/
inductive ActionAct (π : Type) where
  | loadJob (p : π)
  | loadRun (p : π)
  | settle (p : π)
  | claim (p : π) (now : ℤ)
  | start (p : π)
  | persist (p : π) (terminal : Terminal) (write : GraphWrite)
  | finish (p : π) (graphEnd : GraphEnd)
  | notify (p : π) (answer : NotifyAnswer) (now : ℤ)
  | rowOnly (p : π) (now : ℤ)

/-- `sanitize_error_message`, and which call has a client for its notification. -/
structure ExecutorConfig (π : Type) where
  sanitizeErrorMessage : String → String
  hasClient : π → Bool

/-- What a call makes of the job. -/
def ActionJob.load (job : ActionJob) : CallStage :=
  if job.jobType ≠ agentExecuteActionJob then .lost "skipped"
  else
    match job.status with
    | .completed => .lost "completed"
    | .failed => .lost "skipped"
    | .pending | .running =>
      match job.runId with
      | none => .failJob
      | some _ => .loadRun

/-- What a call makes of the run. -/
def loadRun : Option ActionRun → CallStage
  | none => .failJob
  | some run =>
    match run.status with
    | .completed => .completeJob
    | .pending | .running | .failed => .claim

/-- Where a call goes on when the graph has ended; nothing when it returns without a terminal status. -/
def afterGraph (action : ActionEnvelope) (persisted : Option Terminal) : GraphEnd → Option CallStage
  | .returns outcome =>
    persisted.map fun _ =>
      .ended ⟨persisted, some (.returns outcome), none⟩ (.returned (if outcome = some "failed" then "failed" else "completed"))
  | .exceedsLimit => some (.notify .timeout action persisted .exceedsLimit)
  | .raises .timeoutError => some (.notify .timeout action persisted (.raises .timeoutError))
  | .raises .telegramDeliveryError => some (.notify .unexpectedFailure action persisted (.raises .telegramDeliveryError))
  | .raises .exception => some (.notify .unexpectedFailure action persisted (.raises .exception))
  | .raises .baseException =>
    some (.ended ⟨persisted, some (.raises .baseException), none⟩ (.raised .baseException))

namespace ActionState

variable {π : Type} [DecidableEq π] (cfg : ExecutorConfig π) (s : ActionState π)

/-- The call is at a stage. -/
def move (p : π) (stage : CallStage) : ActionState π := { s with stage := Function.update s.stage p stage }

/-- The writes of a claim. -/
def claimJob (now : ℤ) : ActionState π :=
  { s with
    job := { s.job with status := .running }
    run := s.run.map fun run => { run with status := .running, startedAt := run.startedAt.or (some now) } }

/-- The writes of a terminal node of the graph. -/
def persistTerminal (terminal : Terminal) (write : GraphWrite) : ActionState π :=
  { s with
    job := { s.job with status := terminal.status }
    run := s.run.map fun run =>
      { run with
        status := terminal.status, outboxStatuses := some write.outboxStatuses,
        errorCode := (write.error.map (·.1)).or run.errorCode,
        errorMessage := (write.error.map (·.2)).or run.errorMessage, finishedAt := some write.finishedAt } }

/-- `_write_failure_row_only`. -/
def writeFailureRowOnly (finalizer : Finalizer) (now : ℤ) : ActionState π :=
  { s with
    job := if s.job.status ≠ .failed then { s.job with status := .failed } else s.job
    run := s.run.map fun run =>
      { run with
        status := .failed, errorCode := some finalizer.errorCode,
        errorMessage := some (cfg.sanitizeErrorMessage finalizer.message), finishedAt := some now } }

/-- The end of `_write_failure_with_notification`. -/
def writeFailure (finalizer : Finalizer) (action : ActionEnvelope) (status : OutboxStatus) (now : ℤ) : ActionState π :=
  { s with
    job := { s.job with status := .failed }
    run := s.run.map fun run =>
      { run with
        status := .failed, outboxStatuses := some [status], errorCode := some finalizer.errorCode,
        errorMessage := some (cfg.sanitizeErrorMessage finalizer.message), finishedAt := some now }
    outbox := s.outbox ++
      [⟨toOutboxChannel action.channelType, action.externalChatId, cfg.sanitizeErrorMessage finalizer.message, status,
        action.botKey⟩] }

/-- The answer to a notification that is sent. -/
def answered (p : π) (finalizer : Finalizer) (action : ActionEnvelope) (story : WinnerStory) (now : ℤ) :
    NotifyAnswer → Option (ActionState π)
  | .sent => some ((s.writeFailure cfg finalizer action .sent now).move p (.ended story (.returned "failed")))
  | .raises .telegramDeliveryError =>
    some ((s.writeFailure cfg finalizer action .pending now).move p (.ended story (.returned "failed")))
  | .raises e =>
    match finalizer, e with
    -- `_finalize_timeout` catches its own `TimeoutError`, `_finalize_unexpected_failure` every `Exception`
    | .timeout, .timeoutError => some (s.move p (.rowOnly finalizer story))
    | .timeout, e => some (s.move p (.ended story (.raised e)))
    | .unexpectedFailure, .baseException => some (s.move p (.ended story (.raised .baseException)))
    | .unexpectedFailure, _ => some (s.move p (.rowOnly finalizer story))
  | .none =>
    match finalizer with
    | .timeout => some (s.move p (.rowOnly finalizer story))
    | .unexpectedFailure => none

/-- Whether a notification is sent inline. -/
def sends (p : π) (action : ActionEnvelope) : Bool := toOutboxChannel action.channelType = "telegram" ∧ cfg.hasClient p

/-- A step, if the call is where it is taken. -/
def exec : ActionAct π → Option (ActionState π)
  | .loadJob p =>
    match s.stage p with
    | .loadJob => some (s.move p s.job.load)
    | _ => none
  | .loadRun p =>
    match s.stage p with
    | .loadRun => some (s.move p (loadRun s.run))
    | _ => none
  | .settle p =>
    match s.stage p with
    | .failJob => some ({ s with job := { s.job with status := .failed } }.move p (.lost "failed"))
    | .completeJob => some ({ s with job := { s.job with status := .completed } }.move p (.lost "completed"))
    | _ => none
  | .claim p now =>
    match s.stage p with
    | .claim =>
      if s.job.status = .pending then
        some ((s.claimJob now).move p .won)
      else some (s.move p (.lost "claimed_by_other"))
    | _ => none
  | .start p =>
    match s.stage p with
    | .won =>
      match s.run.bind (·.action) with
      | none => some (s.move p (.rowOnly .unexpectedFailure ⟨none, none, none⟩))
      | some action => some ({ s with graphRuns := s.graphRuns + 1 }.move p (.graph action none))
    | _ => none
  | .persist p terminal write =>
    match s.stage p with
    | .graph action none => some ((s.persistTerminal terminal write).move p (.graph action (some terminal)))
    | _ => none
  | .finish p graphEnd =>
    match s.stage p with
    | .graph action persisted => (afterGraph action persisted graphEnd).map (s.move p)
    | _ => none
  | .notify p answer now =>
    match s.stage p with
    | .notify finalizer action persisted graphEnd =>
      if sends cfg p action then
        s.answered cfg p finalizer action ⟨persisted, some graphEnd, some answer⟩ now answer
      else
        some ((s.writeFailure cfg finalizer action .pending now).move p
          (.ended ⟨persisted, some graphEnd, none⟩ (.returned "failed")))
    | _ => none
  | .rowOnly p now =>
    match s.stage p with
    | .rowOnly finalizer story =>
      some ((s.writeFailureRowOnly cfg finalizer now).move p (.ended story (.returned "failed")))
    | _ => none

/-- Any number of calls for one pending job. -/
def processJob : Lts (ActionState π) (ActionAct π) where
  init s := s.job.status = .pending ∧ s.graphRuns = 0 ∧ ∀ p, s.stage p = .loadJob
  step s act s' := s.exec cfg act = some s'

end ActionState

/-! ### The condition -/

/-- The finaliser that an end of the graph leads to. -/
def GraphEnd.finalizer : GraphEnd → Option Finalizer
  | .returns _ | .raises .baseException => none
  | .exceedsLimit | .raises .timeoutError => some .timeout
  | .raises .telegramDeliveryError | .raises .exception => some .unexpectedFailure

/-- What the notification may raise inside a finaliser. -/
def Finalizer.Handles : Finalizer → Raised → Prop
  | .timeout, e => e = .timeoutError ∨ e = .telegramDeliveryError
  | .unexpectedFailure, e => e ≠ .baseException

namespace WinnerStory

variable (story : WinnerStory)

/-- The graph has returned. -/
def Returned : Prop := ∃ outcome, story.graphEnd = some (.returns outcome)

/-- An exception gets out of the call: no handler catches that of the graph, or that of the notification. -/
def Escapes : Prop :=
  story.graphEnd = some (.raises .baseException) ∨
    ∃ graphEnd ∈ story.graphEnd, ∃ finalizer ∈ graphEnd.finalizer, ∃ e, story.answer = some (.raises e) ∧ ¬ finalizer.Handles e

/-- **The condition**: no exception gets out before the graph has committed, and none is finalised after the graph has committed
`completed`. -/
def Covered : Prop :=
  (story.persisted = none → ¬ story.Escapes) ∧ (story.persisted = some .completed → story.Returned ∨ story.Escapes)

end WinnerStory

namespace ActionState

variable {π : Type} (s : ActionState π)

/-- Job and run have a status. -/
def Both (status : ActionStatus) : Prop := s.job.status = status ∧ ∀ run ∈ s.run, run.status = status

/-- **Job and run are settled**: in one terminal status, which is `completed` if the graph has committed that. -/
def Settled (persisted : Option Terminal) : Prop :=
  ∃ terminal : Terminal, s.run ≠ none ∧ s.Both terminal.status ∧ (persisted = some .completed → terminal = .completed)

end ActionState

/-! ### The invariant -/

/-- The statuses while the graph's commit stands. -/
def persistedStatus : Option Terminal → ActionStatus
  | none => .running
  | some terminal => terminal.status

/-- What the graph of a winner has committed. -/
def CallStage.persisted : CallStage → Option Terminal
  | .graph _ persisted | .notify _ _ persisted _ => persisted
  | .rowOnly _ story | .ended story _ => story.persisted
  | .loadJob | .loadRun | .failJob | .completeJob | .claim | .won | .lost _ => none

namespace ActionState

variable {π : Type} (s : ActionState π)

/-- What a winner has left at its end: the statuses of the graph's commit, or `failed`, where another call may have set the
job to `completed` again. -/
def Left (story : WinnerStory) : Prop :=
  ((story.Returned ∧ story.persisted ≠ none ∨ story.Escapes) ∧ s.Both (persistedStatus story.persisted)) ∨
    (¬ story.Returned ∧ ¬ story.Escapes ∧ (∀ run ∈ s.run, run.status = .failed) ∧
      (s.job.status = .failed ∨ s.job.status = .completed ∧ story.persisted = some .completed))

/-- What a winner holds. -/
def WinnerInv : CallStage → Prop
  | .won => s.graphRuns = 0 ∧ s.Both .running
  | .graph _ persisted => s.graphRuns ≤ 1 ∧ s.Both (persistedStatus persisted)
  | .notify finalizer _ persisted graphEnd =>
    s.graphRuns ≤ 1 ∧ s.Both (persistedStatus persisted) ∧ graphEnd.finalizer = some finalizer
  | .rowOnly _ story =>
    s.graphRuns ≤ 1 ∧ s.Both (persistedStatus story.persisted) ∧ ¬ story.Returned ∧ ¬ story.Escapes
  | .ended story _ => s.graphRuns ≤ 1 ∧ s.Left story
  | .loadJob | .loadRun | .failJob | .completeJob | .claim | .lost _ => False

/-- What a call holds before there is a winner. -/
def EarlyInv : CallStage → Prop
  | .loadJob | .lost _ => True
  | .loadRun => s.job.runId ≠ none
  | .failJob => s.job.runId = none ∨ s.run = none
  | .completeJob => ∃ run ∈ s.run, run.status = .completed
  | .claim => s.job.runId ≠ none ∧ ∃ run ∈ s.run, run.status ≠ .completed
  | .won | .graph .. | .notify .. | .rowOnly .. | .ended .. => False

/-- What a call holds beside the winner. -/
def LateInv (persisted : Option Terminal) : CallStage → Prop
  | .loadJob | .lost _ | .loadRun | .claim => True
  | .completeJob => persisted = some .completed
  | .failJob | .won | .graph .. | .notify .. | .rowOnly .. | .ended .. => False

/-- There is no winner. -/
structure Unclaimed : Prop where
  runs : s.graphRuns = 0
  calls : ∀ p, s.EarlyInv (s.stage p)

/-- The call `p` has won. -/
structure Claimed (p : π) : Prop where
  run : s.run ≠ none
  runId : s.job.runId ≠ none
  claimed : s.job.status ≠ .pending
  winner : s.WinnerInv (s.stage p)
  others : ∀ q, q ≠ p → LateInv (s.stage p).persisted (s.stage q)

/-- **The invariant.** -/
def Inv : Prop := s.Unclaimed ∨ ∃ p, s.Claimed p

variable {s}

/-- What an ended winner has left is settled iff its story is covered. -/
theorem settled_iff {story : WinnerStory} (hrun : s.run ≠ none) (h : s.Left story) :
    s.Settled story.persisted ↔ story.Covered := by
  obtain ⟨run, hsome⟩ := Option.ne_none_iff_exists'.mp hrun
  rcases h with ⟨hkept, hjob, hstatus⟩ | ⟨hreturned, hescapes, hstatus, hjob⟩
  · -- the statuses of the graph's commit
    constructor
    · rintro ⟨terminal, -, ⟨hterminal, -⟩, hcompleted⟩
      refine ⟨fun hnone _ => ?_, fun hpersisted => ?_⟩
      · rw [hjob, hnone] at hterminal
        cases terminal <;> cases hterminal
      · rcases hkept with ⟨hreturned, -⟩ | hescapes
        · exact .inl hreturned
        · exact .inr hescapes
    · rintro ⟨hnone, -⟩
      obtain ⟨terminal, hpersisted⟩ : ∃ terminal, story.persisted = some terminal := by
        refine Option.ne_none_iff_exists'.mp fun hpersisted => ?_
        rcases hkept with ⟨-, hne⟩ | hescapes
        · exact hne hpersisted
        · exact hnone hpersisted hescapes
      rw [hpersisted] at hjob hstatus
      exact ⟨terminal, hrun, ⟨hjob, hstatus⟩, fun heq => Option.some.inj (hpersisted.symm.trans heq)⟩
  · -- the finaliser has written
    constructor
    · rintro ⟨terminal, -, ⟨-, hterminal⟩, hcompleted⟩
      refine ⟨fun _ => hescapes, fun hpersisted => ?_⟩
      have hfailed := hterminal run hsome
      rw [hstatus run hsome, hcompleted hpersisted] at hfailed
      cases hfailed
    · rintro ⟨-, hcovered⟩
      have hne : story.persisted ≠ some .completed := by
        intro hpersisted
        rcases hcovered hpersisted with h | h
        · exact hreturned h
        · exact hescapes h
      refine ⟨.failed, hrun, ⟨?_, hstatus⟩, fun h => absurd h hne⟩
      rcases hjob with hjob | ⟨-, hpersisted⟩
      · exact hjob
      · exact absurd hpersisted hne

/-! #### Before there is a winner -/

theorem earlyInv_load (s : ActionState π) : s.EarlyInv s.job.load := by
  unfold ActionJob.load
  split
  · trivial
  · split
    · trivial
    · trivial
    all_goals
      split
      · next hnone => exact .inl hnone
      · next hsome =>
        show s.job.runId ≠ none
        rw [hsome]
        exact fun h => by cases h

theorem earlyInv_loadRun (hrunId : s.job.runId ≠ none) : s.EarlyInv (loadRun s.run) := by
  unfold loadRun
  split
  · next hnone => exact .inr hnone
  · next run hrun =>
    split
    · next hstatus => exact ⟨run, hrun, hstatus⟩
    all_goals
      next hstatus => exact ⟨hrunId, run, hrun, by rw [hstatus]; exact fun h => by cases h⟩

theorem Unclaimed.setJob (h : s.Unclaimed) (status : ActionStatus) :
    ({ s with job := { s.job with status } } : ActionState π).Unclaimed := ⟨h.runs, h.calls⟩

variable [DecidableEq π] {cfg : ExecutorConfig π} {s' : ActionState π} {act : ActionAct π}

theorem stage_move_self (s : ActionState π) (p : π) (stage : CallStage) : (s.move p stage).stage p = stage :=
  Function.update_self _ _ _

variable {p : π} {stage : CallStage} {graphEnd : GraphEnd} {finalizer : Finalizer}

theorem stage_move_of_ne (s : ActionState π) {q : π} (stage : CallStage) (hne : q ≠ p) :
    (s.move p stage).stage q = s.stage q := Function.update_of_ne hne _ _

theorem Unclaimed.move (h : s.Unclaimed) (p : π) (hstage : s.EarlyInv stage) : (s.move p stage).Unclaimed :=
  ⟨h.runs, (Function.forall_update_iff s.stage fun _ stage => s.EarlyInv stage).mpr ⟨hstage, fun q _ => h.calls q⟩⟩

/-- **The claim**. -/
theorem Unclaimed.claimJob (h : s.Unclaimed) (hp : s.stage p = .claim) (now : ℤ) :
    ((s.claimJob now).move p .won).Claimed p := by
  have hearly := h.calls p
  rw [hp] at hearly
  obtain ⟨hrunId, run, hrun, hstatus⟩ := hearly
  refine ⟨?_, hrunId, (fun heq => by cases heq), ?_, fun q hne => ?_⟩
  · show s.run.map _ ≠ none
    rw [Option.mem_def.mp hrun]
    exact fun h => by cases h
  · rw [stage_move_self]
    refine ⟨h.runs, rfl, fun claimed hclaimed => ?_⟩
    obtain ⟨old, -, rfl⟩ := Option.map_eq_some_iff.mp hclaimed
    rfl
  · rw [stage_move_self, stage_move_of_ne _ _ hne]
    have hother := h.calls q
    show LateInv none (s.stage q)
    cases hq : s.stage q with
    | loadJob | lost | loadRun | claim => trivial
    | failJob =>
      rw [hq] at hother
      rcases hother with hnone | hnone
      · exact absurd hnone hrunId
      · rw [hnone] at hrun
        cases hrun
    | completeJob =>
      rw [hq] at hother
      obtain ⟨other, hother, hcompleted⟩ := hother
      obtain rfl := Option.mem_unique hrun hother
      exact absurd hcompleted hstatus
    | won | graph | notify | rowOnly | ended =>
      rw [hq] at hother
      exact hother

/-- **A step before there is a winner.** -/
theorem Unclaimed.step (h : s.Unclaimed) (hexec : s.exec cfg act = some s') : s'.Inv := by
  cases act with
  | loadJob p =>
    simp only [exec] at hexec
    split at hexec
    · cases hexec
      exact .inl (h.move p (earlyInv_load s))
    · cases hexec
  | loadRun p =>
    have hearly := h.calls p
    simp only [exec] at hexec
    split at hexec
    · next hp =>
      cases hexec
      rw [hp] at hearly
      exact .inl (h.move p (earlyInv_loadRun hearly))
    · cases hexec
  | settle p =>
    simp only [exec] at hexec
    split at hexec
    · cases hexec
      exact .inl ((h.setJob .failed).move p trivial)
    · cases hexec
      exact .inl ((h.setJob .completed).move p trivial)
    · cases hexec
  | claim p now =>
    simp only [exec] at hexec
    split at hexec
    · next hp =>
      split at hexec
      · cases hexec
        exact .inr ⟨p, h.claimJob hp now⟩
      · cases hexec
        exact .inl (h.move p trivial)
    · cases hexec
  | start p | persist p | finish p | notify p | rowOnly p =>
    have hearly := h.calls p
    simp only [exec] at hexec
    split at hexec
    · next hp =>
      rw [hp] at hearly
      exact hearly.elim
    · cases hexec

/-! #### Beside a winner -/

omit [DecidableEq π] in
theorem WinnerInv.persisted_of_completed (h : s.WinnerInv stage) {run : ActionRun} (hrun : run ∈ s.run)
    (hcompleted : run.status = .completed) : stage.persisted = some .completed := by
  have hkept : ∀ persisted, s.Both (persistedStatus persisted) → persisted = some .completed := by
    intro persisted hboth
    have hstatus := (hboth.2 run hrun).symm.trans hcompleted
    cases persisted with
    | none => cases hstatus
    | some terminal =>
      cases terminal with
      | completed => rfl
      | failed => cases hstatus
  cases stage with
  | loadJob | loadRun | failJob | completeJob | claim | lost => exact h.elim
  | won =>
    have hrunning := (h.2.2 run hrun).symm.trans hcompleted
    cases hrunning
  | graph action persisted => exact hkept persisted h.2
  | notify finalizer action persisted graphEnd => exact hkept persisted h.2.1
  | rowOnly finalizer story => exact hkept story.persisted h.2.1
  | ended story result =>
    rcases h.2 with ⟨-, hboth⟩ | ⟨-, -, hfailed, -⟩
    · exact hkept story.persisted hboth
    · have hstatus := (hfailed run hrun).symm.trans hcompleted
      cases hstatus

omit [DecidableEq π] in
theorem WinnerInv.completeJob (h : s.WinnerInv stage) (hpersisted : stage.persisted = some .completed) :
    ({ s with job := { s.job with status := .completed } } : ActionState π).WinnerInv stage := by
  have hkept : ∀ persisted, persisted = some .completed → s.Both (persistedStatus persisted) →
      ({ s with job := { s.job with status := .completed } } : ActionState π).Both (persistedStatus persisted) := by
    rintro persisted rfl hboth
    exact ⟨rfl, hboth.2⟩
  cases stage with
  | loadJob | loadRun | failJob | completeJob | claim | lost => exact h.elim
  | won => cases hpersisted
  | graph action persisted => exact ⟨h.1, hkept persisted hpersisted h.2⟩
  | notify finalizer action persisted graphEnd => exact ⟨h.1, hkept persisted hpersisted h.2.1, h.2.2⟩
  | rowOnly finalizer story => exact ⟨h.1, hkept story.persisted hpersisted h.2.1, h.2.2⟩
  | ended story result =>
    refine ⟨h.1, ?_⟩
    rcases h.2 with ⟨hend, hboth⟩ | ⟨hreturned, hescapes, hfailed, -⟩
    · exact .inl ⟨hend, hkept story.persisted hpersisted hboth⟩
    · exact .inr ⟨hreturned, hescapes, hfailed, .inr ⟨rfl, hpersisted⟩⟩

theorem Claimed.moveOther {q : π} (h : s.Claimed p) (hne : q ≠ p)
    (hstage : LateInv (s.stage p).persisted stage) : (s.move q stage).Claimed p := by
  have hp := stage_move_of_ne s stage hne.symm
  refine ⟨h.run, h.runId, h.claimed, ?_, ?_⟩
  · rw [hp]
    exact h.winner
  · rw [hp]
    refine (Function.forall_update_iff s.stage fun q stage => q ≠ p → LateInv (s.stage p).persisted stage).mpr ⟨fun _ => hstage, ?_⟩
    exact fun q' _ hne' => h.others q' hne'

/-- The winner is past the steps that come before the claim. -/
theorem Claimed.exec_early (h : s.Claimed p) (hact : act = .loadJob p ∨ act = .loadRun p ∨ act = .settle p ∨
    ∃ now, act = .claim p now) : s.exec cfg act = none := by
  have hinv := h.winner
  rcases hact with rfl | rfl | rfl | ⟨now, rfl⟩
  · rw [exec]
    split
    · next hq =>
      rw [hq] at hinv
      exact hinv.elim
    · rfl
  · rw [exec]
    split
    · next hq =>
      rw [hq] at hinv
      exact hinv.elim
    · rfl
  · rw [exec]
    split
    · next hq =>
      rw [hq] at hinv
      exact hinv.elim
    · next hq =>
      rw [hq] at hinv
      exact hinv.elim
    · rfl
  · rw [exec]
    split
    · next hq =>
      rw [hq] at hinv
      exact hinv.elim
    · rfl

/-- **A step of another call.** -/
theorem Claimed.stepOther {q : π} (h : s.Claimed p) (hne : q ≠ p) (hact : act = .loadJob q ∨ act = .loadRun q ∨ act = .settle q ∨
    ∃ now, act = .claim q now) (hexec : s.exec cfg act = some s') : s'.Claimed p := by
  have hother := h.others q hne
  rcases hact with rfl | rfl | rfl | ⟨now, rfl⟩
  · simp only [exec] at hexec
    split at hexec
    · cases hexec
      refine h.moveOther hne ?_
      unfold ActionJob.load
      split
      · trivial
      · split
        · trivial
        · trivial
        all_goals
          split
          · next hnone => exact absurd hnone h.runId
          · trivial
    · cases hexec
  · simp only [exec] at hexec
    split at hexec
    · cases hexec
      refine h.moveOther hne ?_
      unfold loadRun
      split
      · next hnone => exact absurd hnone h.run
      · next run hrun =>
        split
        · next hcompleted => exact h.winner.persisted_of_completed hrun hcompleted
        all_goals trivial
    · cases hexec
  · simp only [exec] at hexec
    split at hexec
    · next hq =>
      rw [hq] at hother
      exact hother.elim
    · next hq =>
      cases hexec
      rw [hq] at hother
      have hset : ({ s with job := { s.job with status := .completed } } : ActionState π).Claimed p :=
        ⟨h.run, h.runId, (fun heq => by cases heq), h.winner.completeJob hother, h.others⟩
      exact hset.moveOther hne trivial
    · cases hexec
  · simp only [exec] at hexec
    split at hexec
    · rw [if_neg h.claimed] at hexec
      cases hexec
      exact h.moveOther hne trivial
    · cases hexec

/-! #### The winner -/

theorem Claimed.advance (h : s.Claimed p) {t : ActionState π} (hstages : t.stage = s.stage)
    (hrun : t.run ≠ none) (hrunId : t.job.runId = s.job.runId) (hjob : t.job.status ≠ .pending) (hwinner : t.WinnerInv stage)
    (hpersisted : (s.stage p).persisted = none ∨ stage.persisted = (s.stage p).persisted) : (t.move p stage).Claimed p := by
  refine ⟨hrun, fun hnone => h.runId (hrunId ▸ hnone), hjob, ?_, fun q hne => ?_⟩
  · rw [stage_move_self]
    exact hwinner
  · rw [stage_move_self, stage_move_of_ne _ _ hne, hstages]
    have hother := h.others q hne
    rcases hpersisted with hnone | hsame
    · rw [hnone] at hother
      cases hq : s.stage q with
      | loadJob | lost | loadRun | claim => trivial
      | completeJob =>
        rw [hq] at hother
        cases hother
      | failJob | won | graph | notify | rowOnly | ended =>
        rw [hq] at hother
        exact hother
    · rw [hsame]
      exact hother

theorem Claimed.eq_of_late {q : π} (h : s.Claimed p) (hq : ∀ persisted, ¬ LateInv persisted (s.stage q)) : q = p := by
  by_contra hne
  exact hq _ (h.others q hne)

omit [DecidableEq π] in
theorem afterGraph_spec {action : ActionEnvelope} {persisted : Option Terminal}
    (h : afterGraph action persisted graphEnd = some stage) (hruns : s.graphRuns ≤ 1)
    (hboth : s.Both (persistedStatus persisted)) : s.WinnerInv stage ∧ stage.persisted = persisted := by
  unfold afterGraph at h
  split at h
  · next outcome =>
    cases persisted with
    | none => cases h
    | some terminal =>
      cases h
      exact ⟨⟨hruns, .inl ⟨.inl ⟨⟨outcome, rfl⟩, fun hnone => by cases hnone⟩, hboth⟩⟩, rfl⟩
  all_goals cases h
  · exact ⟨⟨hruns, hboth, rfl⟩, rfl⟩
  · exact ⟨⟨hruns, hboth, rfl⟩, rfl⟩
  · exact ⟨⟨hruns, hboth, rfl⟩, rfl⟩
  · exact ⟨⟨hruns, hboth, rfl⟩, rfl⟩
  · exact ⟨⟨hruns, .inl ⟨.inr (.inl rfl), hboth⟩⟩, rfl⟩

/-- A finaliser has not been reached from a return. -/
theorem not_returned (persisted : Option Terminal) (answer : Option NotifyAnswer)
    (hfinalizer : graphEnd.finalizer = some finalizer) : ¬ (⟨persisted, some graphEnd, answer⟩ : WinnerStory).Returned := by
  rintro ⟨outcome, heq⟩
  obtain rfl := Option.some.inj heq
  cases hfinalizer

/-- In a finaliser an exception gets out iff the notification raises one that is not handled. -/
theorem escapes_iff (persisted : Option Terminal) (answer : Option NotifyAnswer)
    (hfinalizer : graphEnd.finalizer = some finalizer) :
    (⟨persisted, some graphEnd, answer⟩ : WinnerStory).Escapes ↔ ∃ e, answer = some (.raises e) ∧ ¬ finalizer.Handles e := by
  constructor
  · rintro (heq | ⟨graphEnd', hend, finalizer', hfinalizer', hraises⟩)
    · obtain rfl := Option.some.inj heq
      cases hfinalizer
    · obtain rfl := Option.some.inj hend
      obtain rfl := Option.some.inj (hfinalizer.symm.trans hfinalizer')
      exact hraises
  · intro hraises
    exact .inr ⟨graphEnd, rfl, finalizer, hfinalizer, hraises⟩

/-- **The answer to the notification.** -/
theorem Claimed.answered (h : s.Claimed p) {action : ActionEnvelope} {persisted : Option Terminal}
    (hp : s.stage p = .notify finalizer action persisted graphEnd) {answer : NotifyAnswer} {now : ℤ}
    (hexec : s.answered cfg p finalizer action ⟨persisted, some graphEnd, some answer⟩ now answer = some s') : s'.Claimed p := by
  have hinv := h.winner
  rw [hp] at hinv
  obtain ⟨hruns, hboth, hfinalizer⟩ := hinv
  have hreturned := not_returned persisted (some answer) hfinalizer
  have hescapes := escapes_iff persisted (some answer) hfinalizer
  have hpersisted : (s.stage p).persisted = persisted := by
    rw [hp]
    rfl
  have hrun : ∀ set : ActionRun → ActionRun, s.run.map set ≠ none := fun set hnone => h.run (Option.map_eq_none_iff.mp hnone)
  have hfailed : ∀ set : ActionRun → ActionRun, (∀ run, (set run).status = .failed) →
      ∀ run ∈ s.run.map set, run.status = .failed := by
    intro set hset run hmem
    obtain ⟨old, -, rfl⟩ := Option.map_eq_some_iff.mp hmem
    exact hset old
  -- the failure is written, or the row alone is to be written, or the exception gets out
  have hwrite : ∀ status, ¬ (⟨persisted, some graphEnd, some answer⟩ : WinnerStory).Escapes →
      ((s.writeFailure cfg finalizer action status now).move p
        (.ended ⟨persisted, some graphEnd, some answer⟩ (.returned "failed"))).Claimed p := by
    intro status hcaught
    refine h.advance rfl (hrun _) rfl (fun heq => by cases heq) ?_ (.inr hpersisted.symm)
    exact ⟨hruns, .inr ⟨hreturned, hcaught, hfailed _ fun _ => rfl, .inl rfl⟩⟩
  have hrow : ¬ (⟨persisted, some graphEnd, some answer⟩ : WinnerStory).Escapes →
      (s.move p (.rowOnly finalizer ⟨persisted, some graphEnd, some answer⟩)).Claimed p := fun hcaught =>
    h.advance rfl h.run rfl h.claimed ⟨hruns, hboth, hreturned, hcaught⟩ (.inr hpersisted.symm)
  have hraise : ∀ e, (⟨persisted, some graphEnd, some answer⟩ : WinnerStory).Escapes →
      (s.move p (.ended ⟨persisted, some graphEnd, some answer⟩ (.raised e))).Claimed p := fun _ hout =>
    h.advance rfl h.run rfl h.claimed ⟨hruns, .inl ⟨.inr hout, hboth⟩⟩ (.inr hpersisted.symm)
  rw [hescapes] at hwrite hrow hraise
  unfold ActionState.answered at hexec
  cases answer with
  | sent =>
    cases hexec
    exact hwrite .sent fun ⟨_, heq, _⟩ => by cases heq
  | none =>
    cases finalizer with
    | timeout =>
      cases hexec
      exact hrow fun ⟨_, heq, _⟩ => by cases heq
    | unexpectedFailure => cases hexec
  | raises e =>
    have hraised : (∃ e', some (NotifyAnswer.raises e) = some (.raises e') ∧ ¬ finalizer.Handles e') ↔ ¬ finalizer.Handles e :=
      ⟨fun ⟨e', heq, hout⟩ => by cases heq; exact hout, fun hout => ⟨e, rfl, hout⟩⟩
    rw [hraised] at hwrite hrow hraise
    cases finalizer with
    | timeout =>
      cases e with
      | telegramDeliveryError =>
        cases hexec
        exact hwrite .pending (not_not_intro (.inr rfl))
      | timeoutError =>
        cases hexec
        exact hrow (not_not_intro (.inl rfl))
      | exception =>
        cases hexec
        exact hraise .exception fun hhandled => by rcases hhandled with heq | heq <;> cases heq
      | baseException =>
        cases hexec
        exact hraise .baseException fun hhandled => by rcases hhandled with heq | heq <;> cases heq
    | unexpectedFailure =>
      cases e with
      | telegramDeliveryError =>
        cases hexec
        exact hwrite .pending (not_not_intro fun heq => by cases heq)
      | baseException =>
        cases hexec
        exact hraise .baseException fun hhandled => hhandled rfl
      | timeoutError | exception =>
        cases hexec
        exact hrow (not_not_intro fun heq => by cases heq)

/-- **A step beside or of the winner.** -/
theorem Claimed.step (h : s.Claimed p) (hexec : s.exec cfg act = some s') : s'.Claimed p := by
  have hrun : ∀ set : ActionRun → ActionRun, s.run.map set ≠ none := fun set hnone => h.run (Option.map_eq_none_iff.mp hnone)
  cases act with
  | loadJob q | loadRun q | settle q | claim q now =>
    by_cases hne : q = p
    · subst hne
      rw [h.exec_early (by simp)] at hexec
      cases hexec
    · exact h.stepOther hne (by simp) hexec
  | start q =>
    simp only [exec] at hexec
    split at hexec
    · next hq =>
      obtain rfl := h.eq_of_late fun _ hlate => by rw [hq] at hlate; exact hlate
      have hinv := h.winner
      rw [hq] at hinv
      obtain ⟨hruns, hboth⟩ := hinv
      have hnone : (s.stage q).persisted = none := by rw [hq]; rfl
      split at hexec
      · cases hexec
        refine h.advance rfl h.run rfl h.claimed ⟨hruns.trans_le (Nat.zero_le 1), hboth, ?_, ?_⟩ (.inl hnone)
        · rintro ⟨_, heq⟩
          cases heq
        · rintro (heq | ⟨_, heq, _⟩)
          · cases heq
          · cases heq
      · cases hexec
        refine h.advance rfl h.run rfl h.claimed ⟨?_, hboth⟩ (.inl hnone)
        show s.graphRuns + 1 ≤ 1
        omega
    · cases hexec
  | persist q terminal write =>
    simp only [exec] at hexec
    split at hexec
    · next hq =>
      obtain rfl := h.eq_of_late fun _ hlate => by rw [hq] at hlate; exact hlate
      have hinv := h.winner
      rw [hq] at hinv
      cases hexec
      refine h.advance rfl (hrun _) rfl (fun heq => ?_) ⟨hinv.1, rfl, ?_⟩ (.inl (by rw [hq]; rfl))
      · cases terminal <;> cases heq
      · intro run hmem
        obtain ⟨old, -, rfl⟩ := Option.map_eq_some_iff.mp hmem
        rfl
    · cases hexec
  | finish q graphEnd =>
    simp only [exec] at hexec
    split at hexec
    · next action persisted hq =>
      obtain rfl := h.eq_of_late fun _ hlate => by rw [hq] at hlate; exact hlate
      have hinv := h.winner
      rw [hq] at hinv
      obtain ⟨stage, hstage, rfl⟩ := Option.map_eq_some_iff.mp hexec
      obtain ⟨hwinner, hsame⟩ := afterGraph_spec hstage hinv.1 hinv.2
      exact h.advance rfl h.run rfl h.claimed hwinner (.inr (by rw [hsame, hq]; rfl))
    · cases hexec
  | notify q answer now =>
    simp only [exec] at hexec
    split at hexec
    · next finalizer action persisted graphEnd hq =>
      obtain rfl := h.eq_of_late fun _ hlate => by rw [hq] at hlate; exact hlate
      split at hexec
      · exact h.answered hq hexec
      · have hinv := h.winner
        rw [hq] at hinv
        obtain ⟨hruns, -, hfinalizer⟩ := hinv
        cases hexec
        refine h.advance rfl (hrun _) rfl (fun heq => by cases heq) ⟨hruns, .inr ⟨not_returned _ _ hfinalizer, ?_, ?_, .inl rfl⟩⟩
          (.inr (by rw [hq]; rfl))
        · rw [escapes_iff _ _ hfinalizer]
          rintro ⟨_, heq, -⟩
          cases heq
        · intro run hmem
          obtain ⟨old, -, rfl⟩ := Option.map_eq_some_iff.mp hmem
          rfl
    · cases hexec
  | rowOnly q now =>
    simp only [exec] at hexec
    split at hexec
    · next finalizer story hq =>
      obtain rfl := h.eq_of_late fun _ hlate => by rw [hq] at hlate; exact hlate
      have hinv := h.winner
      rw [hq] at hinv
      obtain ⟨hruns, -, hreturned, hescapes⟩ := hinv
      cases hexec
      have hjob : (s.writeFailureRowOnly cfg finalizer now).job.status = .failed := by
        simp only [writeFailureRowOnly]
        split
        · rfl
        · next hfailed => exact not_not.mp hfailed
      refine h.advance rfl (hrun _) ?_ (fun heq => ?_) ⟨hruns, .inr ⟨hreturned, hescapes, ?_, .inl hjob⟩⟩ (.inr (by rw [hq]; rfl))
      · simp only [writeFailureRowOnly]
        split <;> rfl
      · rw [hjob] at heq
        cases heq
      · intro run hmem
        obtain ⟨old, -, rfl⟩ := Option.map_eq_some_iff.mp hmem
        rfl
    · cases hexec

omit [DecidableEq π] in
theorem WinnerInv.runs_le (h : s.WinnerInv stage) : s.graphRuns ≤ 1 := by
  cases stage with
  | loadJob | loadRun | failJob | completeJob | claim | lost => exact h.elim
  | won => exact h.1.trans_le (Nat.zero_le 1)
  | graph | notify | rowOnly | ended => exact h.1

theorem inv_of_reachable (h : (processJob cfg).Reachable s) : s.Inv := by
  refine h.induct (P := Inv) ?_ ?_
  · rintro s ⟨-, hruns, hstage⟩
    refine .inl ⟨hruns, fun p => ?_⟩
    rw [hstage p]
    trivial
  · rintro s act s' - ih hstep
    rcases ih with hunclaimed | ⟨p, hclaimed⟩
    · exact hunclaimed.step hstep
    · exact .inr ⟨p, hclaimed.step hstep⟩

end ActionState

/-- **The calls**: one of them at most runs the graph, and what the winner leaves is settled iff its story is covered. -/
theorem process_job_runs {π : Type} [DecidableEq π] (cfg : ExecutorConfig π) :
    (∀ s, (ActionState.processJob cfg).Reachable s → s.graphRuns ≤ 1) ∧
    (∀ s p story result, (ActionState.processJob cfg).Reachable s → s.stage p = .ended story result →
      (s.Settled story.persisted ↔ story.Covered)) := by
  refine ⟨?_, ?_⟩
  · intro s hreach
    rcases ActionState.inv_of_reachable hreach with hunclaimed | ⟨p, hclaimed⟩
    · exact hunclaimed.runs.trans_le (Nat.zero_le 1)
    · exact hclaimed.winner.runs_le
  · intro s p story result hreach hended
    rcases ActionState.inv_of_reachable hreach with hunclaimed | ⟨q, hclaimed⟩
    · have hearly := hunclaimed.calls p
      rw [hended] at hearly
      exact hearly.elim
    · obtain rfl := hclaimed.eq_of_late fun _ hlate => by rw [hended] at hlate; exact hlate
      have hwinner := hclaimed.winner
      rw [hended] at hwinner
      exact ActionState.settled_iff hclaimed.run hwinner.2

/-- A pending job with its run. -/
def pendingAction : ActionState Unit where
  job := ⟨agentExecuteActionJob, .pending, some "run_1"⟩
  run := some ⟨.pending, none, some ⟨"telegram_dm", "1", "sreda"⟩, none, none, none, none⟩
  outbox := []
  graphRuns := 0
  stage := fun _ => .loadJob

/-- A call with a client. -/
def oneClient : ExecutorConfig Unit where
  sanitizeErrorMessage := id
  hasClient := fun _ => true

/-- The graph exceeds the limit, and the notification raises a connection error. -/
def unheardTimeout : List (ActionAct Unit) :=
  [.loadJob (), .loadRun (), .claim () 1, .start (), .finish () .exceedsLimit, .notify () (.raises .exception) 2]

/-- The graph commits `completed` and exceeds the limit, and the notification is sent. -/
def lateTimeout : List (ActionAct Unit) :=
  [.loadJob (), .loadRun (), .claim () 1, .start (), .persist () .completed ⟨[.sent], none, 2⟩, .finish () .exceedsLimit,
    .notify () .sent 3]

theorem left_running : ∃ s ∈ unheardTimeout.foldlM (fun s act => ActionState.exec oneClient s act) pendingAction,
    s.stage () = .ended ⟨none, some .exceedsLimit, some (.raises .exception)⟩ (.raised .exception) ∧
      s.job.status = .running := by
  decide +kernel

theorem completed_replaced : ∃ s ∈ lateTimeout.foldlM (fun s act => ActionState.exec oneClient s act) pendingAction,
    s.stage () = .ended ⟨some .completed, some .exceedsLimit, some .sent⟩ (.returned "failed") ∧ s.job.status = .failed := by
  decide +kernel

/-- **Unsettled calls**: a call that leaves its job running, and one that replaces a committed `completed`. -/
theorem unsettled_calls :
    (∃ s : ActionState Unit, (ActionState.processJob oneClient).Reachable s ∧
      s.stage () = .ended ⟨none, some .exceedsLimit, some (.raises .exception)⟩ (.raised .exception) ∧ ¬ s.Settled none) ∧
    ∃ s : ActionState Unit, (ActionState.processJob oneClient).Reachable s ∧
      s.stage () = .ended ⟨some .completed, some .exceedsLimit, some .sent⟩ (.returned "failed") ∧
      ¬ s.Settled (some .completed) := by
  have hinit : (ActionState.processJob oneClient).Reachable pendingAction := ⟨_, .init ⟨rfl, rfl, fun _ => rfl⟩⟩
  refine ⟨?_, ?_⟩
  · obtain ⟨s, hrun, hended, hstatus⟩ := left_running
    refine ⟨s, hinit.run (Lts.Run.of_foldlM (fun _ _ _ _ h => h) hrun), hended, ?_⟩
    rintro ⟨terminal, -, ⟨hjob, -⟩, -⟩
    rw [hstatus] at hjob
    cases terminal <;> cases hjob
  · obtain ⟨s, hrun, hended, hstatus⟩ := completed_replaced
    refine ⟨s, hinit.run (Lts.Run.of_foldlM (fun _ _ _ _ h => h) hrun), hended, ?_⟩
    rintro ⟨terminal, -, ⟨hjob, -⟩, hcompleted⟩
    rw [hstatus, hcompleted rfl] at hjob
    cases hjob

end Sreda.Workers
