import Sreda.Planner.ExecutorMachine

/-!
# Invariants of the executor

What holds of every state that the machine reaches. `LogInv` speaks of the log: what is
enabled and which outputs are visible is justified by it, and as long as the run goes on it
holds no result that stops the run. `TraceInv` speaks of the events: what stands between a
call and the events before it. Each phase of the machine keeps both.
-/

namespace Sreda.Planner

open Sreda.Lib

/-- The result enables the step: the branch that it matched goes on with it. -/
def Enables (plan : Plan) (r : StepResult) (stepId : String) : Prop :=
  r.status = .ok ∧ ∃ action idx branch, plan.action? r.stepId = some action ∧
    r.matchedBranchIndex = some idx ∧ action.expectedOutcomes[idx]? = some branch ∧ branch.next = some stepId

/-- The step is a root, or some result of the log enables it. -/
def Enabled (plan : Plan) (log : List StepResult) (stepId : String) : Prop :=
  stepId ∈ computeEnabledInitial plan ∨ ∃ r ∈ log, Enables plan r stepId

/-- The result ends the run: later steps are skipped. -/
def Stops (registry : Registry) (r : StepResult) : Prop :=
  r.status = .unknownOutcome ∨ r.status = .planGap ∨ r.status = .argViolation ∨
    (r.status = .timeout ∧ isWrite registry r.tool = true)

/-- The step failed without ending the run. -/
def Fails (r : StepResult) : Prop := r.status = .error ∨ r.status = .timeout

variable {stepId : String} {r : StepResult} {action : Action} {snapshot : List (String × Dict)} {phase : Phase}
variable {e : ExecEvent}

theorem Enabled.mono {plan : Plan} {log : List StepResult} (h : Enabled plan log stepId)
    (more : List StepResult) : Enabled plan (log ++ more) stepId := by
  rcases h with h | ⟨r, hr, h⟩
  · exact .inl h
  · exact .inr ⟨r, List.mem_append_left _ hr, h⟩

/-! ### The log -/

/-- What the log justifies, what is kept of it, and what it does not hold as long as the run
goes on. -/
structure LogInv (env : ExecEnv) (ep : ExecutionPlan) (st : ExecState) : Prop where
  enabled : ∀ stepId ∈ st.enabled, Enabled ep.plan st.results stepId
  outputs : ∀ entry ∈ st.newOutputs ++ st.stepOutputs, ∃ r ∈ st.results, r.stepId = entry.1 ∧ r.status = .ok ∧
    r.parsedOutput.getD [] = entry.2
  taken : ∀ r ∈ st.results, r.status = .ok → ∃ output, (r.stepId, output) ∈ st.newOutputs ++ st.stepOutputs
  skipped : ∀ r ∈ st.results, r.status = .skipped → r.stepId ∈ st.skippedStepIds
  failed : ∀ r ∈ st.results, Fails r → ∃ status, (r.stepId, status) ∈ st.failedStepIds
  tools : ∀ r ∈ st.results, r.status ≠ .skipped →
    ∃ action, ep.plan.action? r.stepId = some action ∧ r.tool = action.tool
  running : st.abortReason = none → ∀ r ∈ st.results, ¬ Stops env.registry r
  groups : st.abortReason = none → ∀ r ∈ st.results, Fails r → ∀ action, ep.plan.action? r.stepId = some action →
    honest ep action = true → action.intentGroup ∈ st.failedIntentGroups

/-- How a state changes when the result `r` is logged: what is kept of it besides the log. -/
structure Grows (env : ExecEnv) (ep : ExecutionPlan) (st : ExecState) (r : StepResult) (st' : ExecState) : Prop where
  results : st'.results = st.results ++ [r]
  enabled : ∀ stepId ∈ st'.enabled, stepId ∈ st.enabled ∨ Enables ep.plan r stepId
  outputs : st'.newOutputs ++ st'.stepOutputs =
    (if r.status = .ok then [(r.stepId, r.parsedOutput.getD [])] else []) ++ (st.newOutputs ++ st.stepOutputs)
  skippedStepIds : st.skippedStepIds ⊆ st'.skippedStepIds
  skipped : r.status = .skipped → r.stepId ∈ st'.skippedStepIds
  failedStepIds : st.failedStepIds ⊆ st'.failedStepIds
  failed : Fails r → ∃ status, (r.stepId, status) ∈ st'.failedStepIds
  tool : r.status ≠ .skipped → ∃ action, ep.plan.action? r.stepId = some action ∧ r.tool = action.tool
  running : st'.abortReason = none → st.abortReason = none ∧ ¬ Stops env.registry r
  failedIntentGroups : st.failedIntentGroups ⊆ st'.failedIntentGroups
  group : st'.abortReason = none → Fails r → ∀ action, ep.plan.action? r.stepId = some action →
    honest ep action = true → action.intentGroup ∈ st'.failedIntentGroups

section Log

variable {env : ExecEnv} {ep : ExecutionPlan}

theorem LogInv.init : LogInv env ep (initialState ep) := by
  refine ⟨fun stepId h => .inl h, ?_, ?_, ?_, ?_, ?_, ?_, ?_⟩ <;> simp [initialState]

/-- Logging a result keeps what the log justifies. -/
theorem LogInv.grow {st st' : ExecState} (h : LogInv env ep st) (hg : Grows env ep st r st') : LogInv env ep st' := by
  have hmem : ∀ {P : StepResult → Prop}, (∀ other ∈ st.results, P other) → P r → ∀ other ∈ st'.results, P other := by
    intro P hold hnew other ho
    rw [hg.results, List.mem_append, List.mem_singleton] at ho
    rcases ho with ho | rfl
    · exact hold other ho
    · exact hnew
  have hsub : ∀ other ∈ st.results, other ∈ st'.results := fun other ho => hg.results ▸ List.mem_append_left _ ho
  have hr : r ∈ st'.results := by simp [hg.results]
  have hout : ∀ entry ∈ st.newOutputs ++ st.stepOutputs, entry ∈ st'.newOutputs ++ st'.stepOutputs := fun entry he =>
    hg.outputs ▸ List.mem_append_right _ he
  refine ⟨fun stepId hs => ?_, fun entry he => ?_, hmem ?_ ?_, hmem ?_ hg.skipped, hmem ?_ hg.failed,
    hmem h.tools hg.tool, fun hab => ?_, fun hab => hmem ?_ (hg.group hab)⟩
  · rcases hg.enabled stepId hs with hold | hnew
    · rw [hg.results]
      exact (h.enabled stepId hold).mono [r]
    · exact .inr ⟨r, hr, hnew⟩
  · rw [hg.outputs, List.mem_append] at he
    rcases he with he | he
    · split at he
      · rename_i hok
        rw [List.mem_singleton] at he
        exact ⟨r, hr, by simp [he], hok, by simp [he]⟩
      · cases he
    · obtain ⟨other, ho, hent⟩ := h.outputs entry he
      exact ⟨other, hsub other ho, hent⟩
  · intro other ho hok
    obtain ⟨output, he⟩ := h.taken other ho hok
    exact ⟨output, hout _ he⟩
  · intro hok
    exact ⟨_, by rw [hg.outputs, if_pos hok]; exact List.mem_append_left _ (List.mem_singleton.2 rfl)⟩
  · exact fun other ho hs => hg.skippedStepIds (h.skipped other ho hs)
  · intro other ho hf
    obtain ⟨status, hs⟩ := h.failed other ho hf
    exact ⟨status, hg.failedStepIds hs⟩
  · exact hmem (h.running (hg.running hab).1) (hg.running hab).2
  · intro other ho hf action ha hhon
    exact hg.failedIntentGroups (h.groups (hg.running hab).1 other ho hf action ha hhon)

theorem recordSkip_grows (st : ExecState) (stepId reason : String) :
    Grows env ep st (skipResult ep.plan stepId reason) (recordSkip ep st stepId reason) where
  results := rfl
  enabled _ hs := .inl hs
  outputs := rfl
  skippedStepIds := List.subset_cons_self _ _
  skipped _ := List.mem_cons_self
  failedStepIds := List.Subset.refl _
  failed hf := by simp [Fails, skipResult] at hf
  tool hs := absurd rfl hs
  running hab := ⟨hab, by simp [Stops, skipResult]⟩
  failedIntentGroups := List.Subset.refl _
  group _ hf := by simp [Fails, skipResult] at hf

/-- Once the run is stopped by a result that is neither `ok` nor a failure, only the log grows. -/
theorem stopped_grows {st st' : ExecState} (hst : r.status ≠ .ok ∧ r.status ≠ .skipped ∧ ¬ Fails r)
    (htool : ∃ action, ep.plan.action? r.stepId = some action ∧ r.tool = action.tool)
    (hstop : st'.abortReason ≠ none)
    (hframe : st' = { st.log r with
      abortReason := st'.abortReason
      selectorAbort := st'.selectorAbort
      events := st'.events }) : Grows env ep st r st' := by
  refine ⟨?_, fun stepId hs => .inl ?_, ?_, ?_, fun hs => absurd hs hst.2.1, ?_, fun hf => absurd hf hst.2.2,
    fun _ => htool, fun hno => absurd hno hstop, ?_, fun hno => absurd hno hstop⟩
  · rw [hframe]; rfl
  · rw [hframe] at hs; exact hs
  · rw [hframe, if_neg hst.1]; rfl
  · rw [hframe]; exact List.Subset.refl _
  · rw [hframe]; exact List.Subset.refl _
  · rw [hframe]; exact List.Subset.refl _

/-- A failure is kept in mind for the step, and for its group unless it stops the run. -/
theorem failed_grows {st : ExecState} {status : StepStatus} {ab : Option String}
    {groups : List String} (hf : Fails r) (hact : ep.plan.action? r.stepId = some action) (htool : r.tool = action.tool)
    (hsub : st.failedIntentGroups ⊆ groups) (hab : ab = none → st.abortReason = none ∧ ¬ Stops env.registry r)
    (hgroup : ab = none → honest ep action = true → action.intentGroup ∈ groups) :
    Grows env ep st r { st.log r with
      failedStepIds := (r.stepId, status) :: st.failedStepIds
      abortReason := ab
      failedIntentGroups := groups } := by
  have hst : r.status ≠ .ok ∧ r.status ≠ .skipped := by
    rcases hf with hst | hst <;> simp [hst]
  refine ⟨rfl, fun stepId hs => .inl hs, ?_, List.Subset.refl _, fun hs => absurd hs hst.2, List.subset_cons_self _ _,
    fun _ => ⟨status, List.mem_cons_self⟩, fun _ => ⟨action, hact, htool⟩, hab, hsub, fun hno _ other ho hhon => ?_⟩
  · rw [if_neg hst.1]
    rfl
  · rw [hact] at ho
    obtain rfl := Option.some.inj ho
    exact hgroup hno hhon

theorem haltBatch_grows {st : ExecState} {batch : List Step} (hfresh : Fresh ep st batch) {step : Step}
    (hstep : step ∈ batch) (path : RefPath) (count : ℕ) :
    Grows env ep st (haltResult step path count) (haltBatch st batch step path count) := by
  refine stopped_grows ?_ ⟨step.2, hfresh.action step hstep, rfl⟩ ?_ rfl
  · simp [Fails, haltResult]
  · simp [haltBatch, ExecState.log]

/-- Taking the result of a step: an `ok` result makes its output and the next step of its
branch available, a failure stops its group, anything else stops the run. -/
theorem takeResult_grows (st : ExecState) {step : Step} {run : StepRun}
    (haction : ep.plan.action? step.1 = some step.2) (hrun : StepEnds env snapshot step run) :
    Grows env ep st run.result (takeResult env ep st (step, run)) := by
  obtain ⟨hid, htool⟩ := hrun.stepId
  have hact : ep.plan.action? run.result.stepId = some step.2 := hid ▸ haction
  have htools : ∃ action, ep.plan.action? run.result.stepId = some action ∧ run.result.tool = action.tool :=
    ⟨step.2, hact, htool⟩
  unfold takeResult
  simp only
  cases hst : run.result.status with
  | ok =>
    refine ⟨rfl, fun stepId hm => ?_, ?_, List.Subset.refl _, by simp [hst], List.Subset.refl _, by simp [Fails, hst],
      fun _ => htools, fun hab => ⟨hab, by simp [Stops, hst]⟩, List.Subset.refl _, by simp [Fails, hst]⟩
    · rcases List.mem_append.1 hm with hm | hm
      · -- the step is the next of the branch that was matched
        rw [Option.mem_toList] at hm
        obtain ⟨idx, hidx, hm⟩ := Option.bind_eq_some_iff.1 hm
        obtain ⟨branch, hbranch, hnext⟩ := Option.bind_eq_some_iff.1 hm
        exact .inr ⟨hst, step.2, idx, branch, hact, hidx, hbranch, hnext⟩
      · exact .inl hm
    · simp [hst, hid, ExecState.log]
  | unknownOutcome => exact stopped_grows (by simp [Fails, hst]) htools (by simp) rfl
  | planGap => exact stopped_grows (by simp [Fails, hst]) htools (by simp) rfl
  | argViolation => exact stopped_grows (by simp [Fails, hst]) htools (by simp) rfl
  | skipped => exact absurd hst hrun.not_skipped
  | error =>
    simp only [reduceCtorEq, false_and, if_false]
    have hfails : Fails run.result := .inl hst
    have hstop : ¬ Stops env.registry run.result := by simp [Stops, hst]
    rw [← hid]
    split
    · exact failed_grows hfails hact htool (List.subset_cons_self _ _) (fun hab => ⟨hab, hstop⟩)
        fun _ _ => List.mem_cons_self
    · rename_i hno
      exact failed_grows hfails hact htool (List.Subset.refl _) (fun hab => ⟨hab, hstop⟩)
        fun _ hyes => absurd hyes hno
  | timeout =>
    simp only [true_and]
    have hfails : Fails run.result := .inr hst
    rw [← hid]
    split
    · exact failed_grows hfails hact htool (List.Subset.refl _) (fun hab => by cases hab) (fun hab => by cases hab)
    · rename_i hgo
      -- without an abort so far, the timeout is not one of a write
      have hstop : st.abortReason = none → st.abortReason = none ∧ ¬ Stops env.registry run.result := by
        refine fun hab => ⟨hab, ?_⟩
        rintro (hs | hs | hs | ⟨-, hw⟩)
        · rw [hst] at hs; cases hs
        · rw [hst] at hs; cases hs
        · rw [hst] at hs; cases hs
        · exact hgo ⟨htool ▸ hw, by simp [ExecState.log, ExecState.aborted, hab]⟩
      split
      · exact failed_grows hfails hact htool (List.subset_cons_self _ _) hstop fun _ _ => List.mem_cons_self
      · rename_i hno
        exact failed_grows hfails hact htool (List.Subset.refl _) hstop fun _ hyes => absurd hyes hno

/-- The events are not part of what `LogInv` says. -/
theorem LogInv.events {st : ExecState} (h : LogInv env ep st) (events : List ExecEvent) :
    LogInv env ep { st with events := events } :=
  ⟨h.enabled, h.outputs, h.taken, h.skipped, h.failed, h.tools, h.running, h.groups⟩

theorem LogInv.takeResults {batch : List Step} {runs : List StepRun}
    (haction : ∀ step ∈ batch, ep.plan.action? step.1 = some step.2)
    (hruns : List.Forall₂ (StepEnds env snapshot) batch runs) {st : ExecState} (h : LogInv env ep st) :
    LogInv env ep ((batch.zip runs).foldl (takeResult env ep) st) := by
  induction hruns generalizing st with
  | nil => exact h
  | cons hstep _ ih =>
    rw [List.zip_cons_cons, List.foldl_cons]
    exact ih (fun step hs => haction step (by simp [hs])) (h.grow (takeResult_grows st (haction _ (by simp)) hstep))

theorem LogInv.step {st st' : ExecState} (h : LogInv env ep st)
    (hstep : (machine env ep).step st phase st') : LogInv env ep st' := by
  cases phase with
  | skip stepId reason => exact hstep.2 ▸ h.grow (recordSkip_grows st stepId reason)
  | halt batch step path count =>
    obtain ⟨hfresh, hmem, -, -, rfl⟩ := hstep
    exact h.grow (haltBatch_grows hfresh hmem path count)
  | batch batch =>
    obtain ⟨hready, -, -, runs, hruns, rfl⟩ := hstep
    exact (h.events _).takeResults hready.action (gather_ends hruns)
  | merge =>
    obtain rfl := hstep
    exact ⟨h.enabled, by simpa [mergeOutputs] using h.outputs, by simpa [mergeOutputs] using h.taken, h.skipped,
      h.failed, h.tools, h.running, h.groups⟩

theorem LogInv.reachable {st : ExecState} (h : (machine env ep).Reachable st) : LogInv env ep st :=
  h.induct (fun _ h => h ▸ .init) fun _ _ _ _ hinv hstep => hinv.step hstep

end Log

/-! ### The events -/

/-- The results that a trace has logged. -/
def loggedIn (events : List ExecEvent) : List StepResult := events.filterMap ExecEvent.logged?

/-- A call is justified by the events before it: its step is enabled, and every step that
its arguments refer to has an `ok` result. -/
def CallOk (py : Py) (plan : Plan) (pre : List ExecEvent) (e : ExecEvent) : Prop :=
  ∀ stepId args, e = .invoked stepId args → Enabled plan (loggedIn pre) stepId ∧
    ∃ action, plan.action? stepId = some action ∧ ∀ path ∈ iterRefs py (.dict action.args),
      ∃ r ∈ loggedIn pre, r.stepId = extractStepId path ∧ r.status = .ok

/-- The events of two steps of one group and layer come in the order of the layer. -/
def LayerOrder (ep : ExecutionPlan) (e f : ExecEvent) : Prop :=
  ∀ a b x y, Before ep a b → ep.plan.action? a = some x → ep.plan.action? b = some y → SameGroup ep x y →
    e.runs? = some b → f.runs? ≠ some a

/-- After a failed step no step of its `honest_partial` group is called. -/
def GroupStops (ep : ExecutionPlan) (e f : ExecEvent) : Prop :=
  ∀ r x stepId args y, e = .finished r → Fails r → ep.plan.action? r.stepId = some x →
    f = .invoked stepId args → ep.plan.action? stepId = some y → ¬ SameGroup ep x y

/-- After a result that stops the run nothing is run. -/
def RunStops (registry : Registry) (e f : ExecEvent) : Prop := ∀ r, e = .logged r → Stops registry r → f.runs? = none

/-- What the steps `stepIds` see are outputs of `ok` results of the log, those of all their
producers among them. -/
structure SnapshotOk (py : Py) (plan : Plan) (log : List StepResult) (stepIds : List String)
    (snapshot : List (String × Dict)) : Prop where
  outputs : ∀ entry ∈ snapshot, ∃ r ∈ log, r.stepId = entry.1 ∧ r.status = .ok ∧ r.parsedOutput.getD [] = entry.2
  supplied : ∀ stepId ∈ stepIds, ∀ action, plan.action? stepId = some action →
    Supplied py plan snapshot (stepId, action)

/-- What holds of the events of a run. -/
structure TraceInv (env : ExecEnv) (ep : ExecutionPlan) (st : ExecState) : Prop where
  logged : loggedIn st.events = st.results
  known : ∀ e ∈ st.events, ∀ stepId, e.runs? = some stepId → stepId ∈ st.ids
  finished : ∀ r, .finished r ∈ st.events → r ∈ st.results
  /-- Of the group of a step that was run, the steps before it in the layer are done. -/
  earlier : ∀ e ∈ st.events, ∀ a b x y, e.runs? = some b → Before ep a b → ep.plan.action? a = some x →
    ep.plan.action? b = some y → SameGroup ep x y → a ∈ st.ids
  barrier : ∀ stepIds snapshot, .barrier stepIds snapshot ∈ st.events → st.abortReason ≠ none ∧
    ∀ stepId ∈ stepIds, ∀ e ∈ st.events, e.runs? ≠ some stepId
  /-- A batch is started when no selector in it is ambiguous. -/
  selectors : ∀ stepIds snapshot, .batch stepIds snapshot ∈ st.events → ∀ stepId ∈ stepIds, ∀ action,
    ep.plan.action? stepId = some action → ambiguityOf env snapshot (stepId, action) = none
  snapshots : ∀ e ∈ st.events, ∀ stepIds snapshot, e.started? = some (stepIds, snapshot) →
    SnapshotOk env.py ep.plan st.results stepIds snapshot
  calls : Causal (CallOk env.py ep.plan) st.events
  order : st.events.Pairwise (LayerOrder ep)
  groupStops : st.events.Pairwise (GroupStops ep)
  runStops : st.events.Pairwise (RunStops env.registry)

section Trace

variable {env : ExecEnv} {ep : ExecutionPlan}

theorem TraceInv.init : TraceInv env ep (initialState ep) := by
  refine ⟨rfl, ?_, ?_, ?_, ?_, ?_, ?_, .nil, .nil, .nil, .nil⟩ <;> simp [initialState]

theorem SnapshotOk.mono {py : Py} {plan : Plan} {log : List StepResult} {stepIds : List String}
    (h : SnapshotOk py plan log stepIds snapshot) (more : List StepResult) :
    SnapshotOk py plan (log ++ more) stepIds snapshot := by
  refine ⟨fun entry he => ?_, h.supplied⟩
  obtain ⟨r, hr, hent⟩ := h.outputs entry he
  exact ⟨r, List.mem_append_left _ hr, hent⟩

/-- A snapshot taken of a state, for steps that it supplies. -/
theorem LogInv.snapshotOk {st : ExecState} (h : LogInv env ep st) {batch : List Step}
    (haction : ∀ step ∈ batch, ep.plan.action? step.1 = some step.2)
    (hsup : ∀ step ∈ batch, Supplied env.py ep.plan st.stepOutputs step) :
    SnapshotOk env.py ep.plan st.results (batch.map Prod.fst) st.stepOutputs := by
  refine ⟨fun entry he => h.outputs entry (List.mem_append_right _ he), fun stepId hs action ha => ?_⟩
  obtain ⟨step, hstep, rfl⟩ := List.mem_map.1 hs
  rw [haction step hstep] at ha
  obtain rfl := Option.some.inj ha
  exact hsup step hstep

theorem loggedIn_append (es fs : List ExecEvent) : loggedIn (es ++ fs) = loggedIn es ++ loggedIn fs :=
  List.filterMap_append

theorem CallOk.mono (pre more : List ExecEvent) (e : ExecEvent) (h : CallOk env.py ep.plan pre e) :
    CallOk env.py ep.plan (pre ++ more) e := by
  intro stepId args he
  obtain ⟨hen, action, haction, hrefs⟩ := h stepId args he
  rw [loggedIn_append]
  refine ⟨hen.mono _, action, haction, fun path hp => ?_⟩
  obtain ⟨r, hr, hid⟩ := hrefs path hp
  exact ⟨r, List.mem_append_left _ hr, hid⟩

/-! ### Phases that run no step -/

/-- A phase that runs no step: it logs `new`, and its events `more` are the logging and the
barrier. -/
structure QuietPhase (env : ExecEnv) (ep : ExecutionPlan) (st st' : ExecState) (more : List ExecEvent)
    (new : List StepResult) : Prop where
  events : st'.events = st.events ++ more
  results : st'.results = st.results ++ new
  logged : loggedIn more = new
  quiet : ∀ e ∈ more, e.runs? = none
  abort : st.abortReason ≠ none → st'.abortReason ≠ none
  barrier : ∀ stepIds snapshot, .barrier stepIds snapshot ∈ more → st'.abortReason ≠ none ∧
    ∀ stepId ∈ stepIds, stepId ∉ st.ids
  batch : ∀ stepIds snapshot, .batch stepIds snapshot ∉ more
  snapshots : ∀ e ∈ more, ∀ stepIds snapshot, e.started? = some (stepIds, snapshot) →
    SnapshotOk env.py ep.plan st.results stepIds snapshot

section Quiet

variable {st st' : ExecState} {more : List ExecEvent} {new : List StepResult}

theorem QuietPhase.mem_events (hq : QuietPhase env ep st st' more new) (he : e ∈ st'.events) :
    e ∈ st.events ∨ e ∈ more := by
  rwa [hq.events, List.mem_append] at he

theorem QuietPhase.runs? (hq : QuietPhase env ep st st' more new)
    (he : e ∈ st'.events) (hr : e.runs? = some stepId) : e ∈ st.events := by
  rcases hq.mem_events he with he | he
  · exact he
  · rw [hq.quiet e he] at hr
    cases hr

theorem QuietPhase.ids (hq : QuietPhase env ep st st' more new) (hm : stepId ∈ st.ids) : stepId ∈ st'.ids := by
  rw [ExecState.ids, hq.results, List.map_append]
  exact List.mem_append_left _ hm

/-- What holds of two events when the second belongs to no step goes on to hold. -/
theorem QuietPhase.pairwise (hq : QuietPhase env ep st st' more new) {R : ExecEvent → ExecEvent → Prop}
    (hR : st.events.Pairwise R) (hquiet : ∀ e f, f.runs? = none → R e f) : st'.events.Pairwise R := by
  rw [hq.events]
  refine List.pairwise_append.2 ⟨hR, ?_, fun e _ f hf => hquiet e f (hq.quiet f hf)⟩
  exact List.pairwise_of_forall_mem_list fun e _ f hf => hquiet e f (hq.quiet f hf)

theorem TraceInv.quiet (h : TraceInv env ep st) (hq : QuietPhase env ep st st' more new) : TraceInv env ep st' where
  logged := by rw [hq.events, loggedIn_append, h.logged, hq.logged, hq.results]
  known e he stepId hr := hq.ids (h.known e (hq.runs? he hr) stepId hr)
  finished r hr := by
    rw [hq.results]
    exact List.mem_append_left _ (h.finished r (hq.runs? hr rfl))
  earlier e he a b x y hr hbefore ha hb hsg := hq.ids (h.earlier e (hq.runs? he hr) a b x y hr hbefore ha hb hsg)
  barrier stepIds snapshot hm := by
    rcases hq.mem_events hm with hm | hm
    · obtain ⟨hab, hall⟩ := h.barrier stepIds snapshot hm
      exact ⟨hq.abort hab, fun stepId hs e he hr => hall stepId hs e (hq.runs? he hr) hr⟩
    · obtain ⟨hab, hfresh⟩ := hq.barrier stepIds snapshot hm
      exact ⟨hab, fun stepId hs e he hr => hfresh stepId hs (h.known e (hq.runs? he hr) stepId hr)⟩
  selectors stepIds snapshot hm := by
    rcases hq.mem_events hm with hm | hm
    · exact h.selectors stepIds snapshot hm
    · exact absurd hm (hq.batch stepIds snapshot)
  snapshots e he stepIds snapshot hs := by
    rw [hq.results]
    rcases hq.mem_events he with he | he
    · exact (h.snapshots e he stepIds snapshot hs).mono new
    · exact (hq.snapshots e he stepIds snapshot hs).mono new
  calls := by
    rw [hq.events]
    refine h.calls.append CallOk.mono fun e he stepId args heq => ?_
    have := hq.quiet e he
    rw [heq] at this
    cases this
  order := hq.pairwise h.order fun e f hf a b x y _ _ _ _ _ => by rw [hf]; simp
  groupStops := hq.pairwise h.groupStops fun e f hf r x stepId args y _ _ _ heq => by rw [heq] at hf; cases hf
  runStops := hq.pairwise h.runStops fun e f hf r _ _ => hf

end Quiet

theorem TraceInv.skip {st : ExecState} (h : TraceInv env ep st) (stepId reason : String) :
    TraceInv env ep (recordSkip ep st stepId reason) :=
  h.quiet {
    events := recordSkip_events st stepId reason
    results := recordSkip_results st stepId reason
    logged := rfl
    quiet := by simp [ExecEvent.runs?]
    abort := fun hab => hab
    barrier := by simp
    batch := by simp
    snapshots := by simp [ExecEvent.started?] }

theorem TraceInv.halt {st : ExecState} (h : TraceInv env ep st) (hlog : LogInv env ep st) {batch : List Step}
    (hfresh : Fresh ep st batch) (hsup : ∀ step ∈ batch, Supplied env.py ep.plan st.stepOutputs step)
    (step : Step) (path : RefPath) (count : ℕ) : TraceInv env ep (haltBatch st batch step path count) := by
  have hab : (haltBatch st batch step path count).abortReason ≠ none := by simp [haltBatch, ExecState.log]
  refine h.quiet {
    events := List.append_assoc st.events [.barrier (batch.map Prod.fst) st.stepOutputs] [.logged _]
    results := rfl
    logged := rfl
    quiet := by simp [ExecEvent.runs?]
    abort := fun _ => hab
    barrier := fun stepIds snapshot hm => ?_
    batch := by simp
    snapshots := fun e he stepIds snapshot hs => ?_ }
  · obtain ⟨rfl, -⟩ : stepIds = batch.map Prod.fst ∧ snapshot = st.stepOutputs := by simpa using hm
    refine ⟨hab, fun stepId hs => ?_⟩
    obtain ⟨other, hother, rfl⟩ := List.mem_map.1 hs
    exact hfresh.fresh other hother
  · have hfirst : e = .barrier (batch.map Prod.fst) st.stepOutputs ∨ e = .logged (haltResult step path count) := by
      simpa using he
    rcases hfirst with rfl | rfl
    · obtain ⟨rfl, rfl⟩ : batch.map Prod.fst = stepIds ∧ st.stepOutputs = snapshot := by
        simpa [ExecEvent.started?] using hs
      exact hlog.snapshotOk hfresh.action hsup
    · cases hs

/-! ### The events of a batch -/

/-- The arguments of a call refer to outputs that the step sees. -/
theorem resolveArgs_available {spec : ToolSpec} {args : Dict} (h : resolveArgs env action spec snapshot = .ok args) :
    ∀ path ∈ iterRefs env.py (.dict action.args), Available snapshot path := by
  unfold resolveArgs at h
  cases hsel : resolveSelectorRefs env.py (.dict action.args) snapshot with
  | error e => cases e <;> simp [hsel] at h
  | ok selected =>
    cases hres : resolveRefs env.py selected snapshot with
    | error e => simp [hsel, hres] at h
    | ok resolved => exact refs_available hsel hres

/-- An event of the steps of a batch is an event of one of them. -/
theorem mem_interleaved {batch : List Step} {runs : List StepRun}
    (hruns : List.Forall₂ (StepEnds env snapshot) batch runs)
    (he : e ∈ env.scheduler.run (runs.map StepRun.events)) :
    ∃ step ∈ batch, ∃ run ∈ runs, StepEnds env snapshot step run ∧ e ∈ run.events := by
  obtain ⟨es, hes, he⟩ := (env.scheduler.interleaving _).mem_iff.1 he
  obtain ⟨run, hrun, rfl⟩ := List.mem_map.1 hes
  obtain ⟨step, hstep, hends⟩ := forall₂_right hruns hrun
  exact ⟨step, hstep, run, hrun, hends, he⟩

/-- Steps that went through a batch without a group in common share no group. -/
theorem runs_pairwise {Q : Step → Step → Prop} {S : StepRun → StepRun → Prop}
    {batch : List Step} {runs : List StepRun} (hruns : List.Forall₂ (StepEnds env snapshot) batch runs)
    (hQ : batch.Pairwise Q) (hS : ∀ x ∈ batch, ∀ y ∈ batch, Q x y → ∀ run run', StepEnds env snapshot x run →
      StepEnds env snapshot y run' → S run run') : runs.Pairwise S := by
  induction hruns with
  | nil => exact .nil
  | @cons x run batch runs hx hrest ih =>
    obtain ⟨hfirst, hQ⟩ := List.pairwise_cons.1 hQ
    refine List.pairwise_cons.2 ⟨fun run' hrun' => ?_,
      ih hQ fun y hy z hz => hS y (List.mem_cons_of_mem _ hy) z (List.mem_cons_of_mem _ hz)⟩
    obtain ⟨y, hy, hend⟩ := forall₂_right hrest hrun'
    exact hS x List.mem_cons_self y (List.mem_cons_of_mem _ hy) (hfirst y hy) _ _ hx hend

/-- What a trace keeps when a batch is run: the pairs of an old and a new event, of two
events of one step and of two steps are left to look at. -/
theorem pairwise_batch {R : ExecEvent → ExecEvent → Prop} {old : List ExecEvent}
    {batch : List Step} {runs : List StepRun} (hruns : List.Forall₂ (StepEnds env snapshot) batch runs)
    (hold : old.Pairwise R) (hquiet : ∀ e f, f.runs? = none → R e f)
    (hbatch : ∀ ids outputs f, R (.batch ids outputs) f)
    (hnew : ∀ e ∈ old, ∀ step ∈ batch, ∀ run, StepEnds env snapshot step run → ∀ f ∈ run.events, R e f)
    (hown : ∀ step ∈ batch, ∀ run, StepEnds env snapshot step run → run.events.Pairwise R)
    (hcross : runs.Pairwise fun run run' => ∀ e ∈ run.events, ∀ f ∈ run'.events, R e f ∧ R f e) :
    (old ++ (ExecEvent.batch (batch.map Prod.fst) snapshot :: env.scheduler.run (runs.map StepRun.events)) ++
      runs.map (ExecEvent.logged ·.result)).Pairwise R := by
  have hinter := env.scheduler.interleaving (runs.map StepRun.events)
  have hlogs : ∀ f ∈ runs.map (ExecEvent.logged ·.result), f.runs? = none := by
    intro f hf
    obtain ⟨run, -, rfl⟩ := List.mem_map.1 hf
    rfl
  have hmid : (env.scheduler.run (runs.map StepRun.events)).Pairwise R := by
    refine hinter.pairwise (fun es hes => ?_) (List.pairwise_map.2 hcross)
    obtain ⟨run, hrun, rfl⟩ := List.mem_map.1 hes
    obtain ⟨step, hstep, hends⟩ := forall₂_right hruns hrun
    exact hown step hstep run hends
  refine List.pairwise_append.2 ⟨List.pairwise_append.2
      ⟨hold, List.pairwise_cons.2 ⟨fun f _ => hbatch _ _ f, hmid⟩, ?_⟩,
    List.pairwise_of_forall_mem_list fun e _ f hf => hquiet e f (hlogs f hf), fun e _ f hf => hquiet e f (hlogs f hf)⟩
  intro e he f hf
  rcases List.mem_cons.1 hf with rfl | hf
  · exact hquiet _ _ rfl
  · obtain ⟨step, hstep, run, -, hends, hf⟩ := mem_interleaved hruns hf
    exact hnew e he step hstep run hends f hf

/-- A batch that is run in the state `st`, with what its steps did. -/
structure BatchRun (env : ExecEnv) (ep : ExecutionPlan) (st : ExecState) (batch : List Step)
    (runs : List StepRun) : Prop extends Ready ep st batch where
  selectors : ∀ step ∈ batch, ambiguityOf env st.stepOutputs step = none
  supplied : ∀ step ∈ batch, Supplied env.py ep.plan st.stepOutputs step
  ends : List.Forall₂ (StepEnds env st.stepOutputs) batch runs

section Batch

variable {st : ExecState} {batch : List Step} {runs : List StepRun}

theorem BatchRun.action_eq (hb : BatchRun env ep st batch runs) {step : Step} (hs : step ∈ batch)
    (ha : ep.plan.action? step.1 = some action) : action = step.2 := by
  rw [hb.action step hs] at ha
  exact (Option.some.inj ha).symm

theorem BatchRun.results (hb : BatchRun env ep st batch runs) :
    (takeBatch env ep st batch runs).results = st.results ++ runs.map StepRun.result :=
  (takeBatch_frame ep hb.ends st).1

theorem BatchRun.events (hb : BatchRun env ep st batch runs) : (takeBatch env ep st batch runs).events =
    st.events ++ (.batch (batch.map Prod.fst) st.stepOutputs :: env.scheduler.run (runs.map StepRun.events)) ++
      runs.map (.logged ·.result) :=
  (takeBatch_frame ep hb.ends st).2.1

theorem BatchRun.ids (hb : BatchRun env ep st batch runs) :
    (takeBatch env ep st batch runs).ids = st.ids ++ batch.map Prod.fst :=
  (takeBatch_frame ep hb.ends st).2.2.1

/-- The events after a batch: those before it, its start, the events of its steps, the logging
of their results. -/
theorem BatchRun.mem_events (hb : BatchRun env ep st batch runs) (he : e ∈ (takeBatch env ep st batch runs).events) :
    e ∈ st.events ∨ e = .batch (batch.map Prod.fst) st.stepOutputs ∨
      (∃ step ∈ batch, ∃ run ∈ runs, StepEnds env st.stepOutputs step run ∧ e ∈ run.events) ∨
      ∃ run ∈ runs, e = .logged run.result := by
  rw [hb.events, List.mem_append, List.mem_append, List.mem_cons] at he
  rcases he with (he | he | he) | he
  · exact .inl he
  · exact .inr (.inl he)
  · exact .inr (.inr (.inl (mem_interleaved hb.ends he)))
  · obtain ⟨run, hrun, rfl⟩ := List.mem_map.1 he
    exact .inr (.inr (.inr ⟨run, hrun, rfl⟩))

/-- An event of a step after a batch: the step ran before, or is one of the batch. -/
theorem BatchRun.runs? (hb : BatchRun env ep st batch runs)
    (he : e ∈ (takeBatch env ep st batch runs).events) (hr : e.runs? = some stepId) :
    e ∈ st.events ∨ ∃ step ∈ batch, step.1 = stepId ∧
      ∃ run ∈ runs, StepEnds env st.stepOutputs step run ∧ e ∈ run.events := by
  rcases hb.mem_events he with he | rfl | ⟨step, hs, run, hrun, hends, he⟩ | ⟨run, -, rfl⟩
  · exact .inl he
  · cases hr
  · rw [hends.runs? e he] at hr
    exact .inr ⟨step, hs, Option.some.inj hr, run, hrun, hends, he⟩
  · cases hr

/-- A start that is in the events after a batch was there before, or is that of the batch. -/
theorem BatchRun.started (hb : BatchRun env ep st batch runs)
    {start : List String × List (String × Dict)} (he : e ∈ (takeBatch env ep st batch runs).events)
    (hs : e.started? = some start) : e ∈ st.events ∨ e = .batch (batch.map Prod.fst) st.stepOutputs := by
  rcases hb.mem_events he with he | he | ⟨step, -, run, -, hends, he⟩ | ⟨run, -, rfl⟩
  · exact .inl he
  · exact .inr he
  · have hrun := hends.runs? e he
    cases e <;> simp [ExecEvent.runs?, ExecEvent.started?] at hrun hs
  · cases hs

theorem BatchRun.logged (hb : BatchRun env ep st batch runs) :
    loggedIn (takeBatch env ep st batch runs).events = loggedIn st.events ++ runs.map StepRun.result := by
  have hstart : loggedIn (.batch (batch.map Prod.fst) st.stepOutputs :: env.scheduler.run (runs.map StepRun.events)) =
      loggedIn (env.scheduler.run (runs.map StepRun.events)) := List.filterMap_cons_none rfl
  have hmid : loggedIn (env.scheduler.run (runs.map StepRun.events)) = [] := by
    refine List.filterMap_eq_nil_iff.2 fun e he => ?_
    obtain ⟨step, hstep, run, -, hends, he⟩ := mem_interleaved hb.ends he
    have := hends.runs? e he
    cases e <;> first | rfl | cases this
  have hlogs : loggedIn (runs.map (.logged ·.result)) = runs.map StepRun.result := by
    rw [loggedIn, List.filterMap_map]
    exact List.filterMap_eq_map_iff_forall_eq_some.2 fun run _ => rfl
  rw [hb.events, loggedIn_append, loggedIn_append, hstart, hmid, hlogs, List.append_nil]

/-- A call of the batch is justified by what was logged before the batch. -/
theorem BatchRun.calls (hb : BatchRun env ep st batch runs) (h : TraceInv env ep st) (hlog : LogInv env ep st) :
    Causal (CallOk env.py ep.plan) (takeBatch env ep st batch runs).events := by
  rw [hb.events, List.append_assoc]
  refine h.calls.append CallOk.mono fun e he stepId args heq => ?_
  subst heq
  rw [List.mem_append, List.mem_cons] at he
  have hmid : ExecEvent.invoked stepId args ∈ env.scheduler.run (runs.map StepRun.events) := by
    rcases he with (he | he) | he
    · cases he
    · exact he
    · obtain ⟨run, -, heq⟩ := List.mem_map.1 he
      cases heq
  obtain ⟨step, hs, run, -, hends, hmem⟩ := mem_interleaved hb.ends hmid
  obtain ⟨rfl, spec, hargs⟩ := hends.invoked hmem
  rw [h.logged]
  refine ⟨hlog.enabled _ (hb.enabled step hs), step.2, hb.action step hs, fun path hp => ?_⟩
  obtain ⟨output, hlookup⟩ := resolveArgs_available hargs path hp
  obtain ⟨pre, post, heq, -⟩ := List.lookup_eq_some_iff.1 hlookup
  obtain ⟨r, hr, hid, hok, -⟩ := hlog.outputs (extractStepId path, output) (by simp [heq])
  exact ⟨r, hr, hid, hok⟩

/-- Steps of one group and layer: the earlier one is done before the batch of the later one. -/
theorem BatchRun.order (hnd : ep.layers.flatten.Nodup) (hb : BatchRun env ep st batch runs) (h : TraceInv env ep st) :
    (takeBatch env ep st batch runs).events.Pairwise (LayerOrder ep) := by
  rw [hb.events]
  refine pairwise_batch hb.ends h.order ?_ ?_ ?_ ?_ ?_
  · intro e f hf a b x y _ _ _ _ _
    rw [hf]
    simp
  · intro ids outputs f a b x y _ _ _ _ hr
    cases hr
  · -- the earlier step of the layer is done, so it is not in this batch
    intro e he step hs run hends f hf a b x y hbefore ha hb' hsg hr hrf
    rw [hends.runs? f hf] at hrf
    obtain rfl := Option.some.inj hrf
    exact hb.fresh step hs (h.earlier e he _ b x y hr hbefore ha hb' hsg)
  · intro step hs run hends
    refine List.pairwise_of_forall_mem_list fun e he f hf a b x y hbefore _ _ _ hr hrf => ?_
    rw [hends.runs? e he] at hr
    rw [hends.runs? f hf] at hrf
    obtain rfl := Option.some.inj hr
    obtain rfl := Option.some.inj hrf
    obtain ⟨layer, hl, hsub⟩ := hbefore
    have := hsub.nodup ((List.nodup_flatten.1 hnd).1 layer hl)
    simp at this
  · refine runs_pairwise hb.ends hb.groups fun x hx y hy hno run run' hends hends' e he f hf => ⟨?_, ?_⟩
    · intro a b u v _ ha hb' hsg hr hrf
      rw [hends.runs? e he] at hr
      rw [hends'.runs? f hf] at hrf
      obtain rfl := Option.some.inj hr
      obtain rfl := Option.some.inj hrf
      exact hno (hb.action_eq hx hb' ▸ hb.action_eq hy ha ▸ hsg.symm)
    · intro a b u v _ ha hb' hsg hr hrf
      rw [hends'.runs? f hf] at hr
      rw [hends.runs? e he] at hrf
      obtain rfl := Option.some.inj hr
      obtain rfl := Option.some.inj hrf
      exact hno (hb.action_eq hx ha ▸ hb.action_eq hy hb' ▸ hsg)

/-- A group that has failed has no step in a later batch. -/
theorem BatchRun.groupStops (hb : BatchRun env ep st batch runs) (h : TraceInv env ep st) (hlog : LogInv env ep st) :
    (takeBatch env ep st batch runs).events.Pairwise (GroupStops ep) := by
  rw [hb.events]
  refine pairwise_batch hb.ends h.groupStops ?_ ?_ ?_ ?_ ?_
  · intro e f hf r x stepId args y _ _ _ heq
    rw [heq] at hf
    cases hf
  · intro ids outputs f r x stepId args y heq
    cases heq
  · -- the group has failed, so none of its steps is in this batch
    intro e he step hs run hends f hf r x stepId args y heq hfail hx hinv hy hsg
    subst heq hinv
    obtain ⟨rfl, -⟩ := hends.invoked hf
    obtain rfl := hb.action_eq hs hy
    have hgroup := hlog.groups hb.running r (h.finished r he) hfail x hx hsg.1
    have hno := hb.group step hs
    rw [groupFailed, hsg.symm.1, Bool.true_and, decide_eq_false_iff_not] at hno
    exact hno (hsg.2 ▸ hgroup)
  · intro step hs run hends
    exact hends.own.imp fun hef r x stepId args y he _ _ hf => absurd hf (hef r stepId args he)
  · refine runs_pairwise hb.ends hb.groups fun x hx y hy hno run run' hends hends' e he f hf => ⟨?_, ?_⟩
    · intro r u stepId args v heq _ hu hinv hv hsg
      subst heq hinv
      rw [hends.finished he, hends.stepId.1] at hu
      obtain ⟨rfl, -⟩ := hends'.invoked hf
      exact hno (hb.action_eq hx hu ▸ hb.action_eq hy hv ▸ hsg)
    · intro r u stepId args v heq _ hu hinv hv hsg
      subst heq hinv
      rw [hends'.finished hf, hends'.stepId.1] at hu
      obtain ⟨rfl, -⟩ := hends.invoked he
      exact hno (hb.action_eq hx hv ▸ hb.action_eq hy hu ▸ hsg.symm)

/-- A result that stops the run is not in the log while the run goes on. -/
theorem BatchRun.runStops (hb : BatchRun env ep st batch runs) (h : TraceInv env ep st) (hlog : LogInv env ep st) :
    (takeBatch env ep st batch runs).events.Pairwise (RunStops env.registry) := by
  have hrun : ∀ {step : Step} {run : StepRun}, StepEnds env st.stepOutputs step run → ∀ e ∈ run.events, ∀ r,
      e ≠ .logged r := by
    intro step run hends e he r heq
    have := hends.runs? e he
    rw [heq] at this
    cases this
  rw [hb.events]
  refine pairwise_batch hb.ends h.runStops ?_ ?_ ?_ ?_ ?_
  · exact fun e f hf r _ _ => hf
  · intro ids outputs f r heq
    cases heq
  · intro e he step hs run hends f hf r heq hstop
    have hmem : r ∈ st.results := by
      rw [← h.logged]
      exact List.mem_filterMap.2 ⟨e, he, by rw [heq]; rfl⟩
    exact absurd hstop (hlog.running hb.running r hmem)
  · intro step hs run hends
    exact List.pairwise_of_forall_mem_list fun e he f _ r heq _ => absurd heq (hrun hends e he r)
  · exact runs_pairwise hb.ends hb.groups fun x _ y _ _ run run' hends hends' e he f hf =>
      ⟨fun r heq _ => absurd heq (hrun hends e he r), fun r heq _ => absurd heq (hrun hends' f hf r)⟩

/-- Running a batch keeps what holds of the events. -/
theorem TraceInv.takeBatch (hnd : ep.layers.flatten.Nodup) (h : TraceInv env ep st) (hlog : LogInv env ep st)
    (hb : BatchRun env ep st batch runs) : TraceInv env ep (Planner.takeBatch env ep st batch runs) where
  logged := by rw [hb.logged, h.logged, hb.results]
  known e he stepId hr := by
    rw [hb.ids, List.mem_append]
    rcases hb.runs? he hr with he | ⟨step, hs, rfl, -⟩
    · exact .inl (h.known e he stepId hr)
    · exact .inr (List.mem_map_of_mem hs)
  finished r hr := by
    rw [hb.results, List.mem_append]
    rcases hb.runs? hr rfl with hr | ⟨step, -, -, run, hrun, hends, hr⟩
    · exact .inl (h.finished r hr)
    · rw [hends.finished hr]
      exact .inr (List.mem_map_of_mem hrun)
  earlier e he a b x y hr hbefore ha hb' hsg := by
    rw [hb.ids]
    refine List.mem_append_left _ ?_
    rcases hb.runs? he hr with he | ⟨step, hs, rfl, -⟩
    · exact h.earlier e he a b x y hr hbefore ha hb' hsg
    · exact hb.earlier step hs a x hbefore ha (hb.action_eq hs hb' ▸ hsg)
  barrier stepIds snapshot hm := by
    rcases hb.started hm rfl with hm | hm
    · exact absurd hb.running (h.barrier stepIds snapshot hm).1
    · cases hm
  selectors stepIds snapshot hm stepId hstep action ha := by
    rcases hb.started hm rfl with hm | hm
    · exact h.selectors stepIds snapshot hm stepId hstep action ha
    · obtain ⟨rfl, rfl⟩ := ExecEvent.batch.inj hm
      obtain ⟨step, hs, rfl⟩ := List.mem_map.1 hstep
      exact hb.action_eq hs ha ▸ hb.selectors step hs
  snapshots e he stepIds snapshot hs := by
    rw [hb.results]
    rcases hb.started he hs with he | rfl
    · exact (h.snapshots e he stepIds snapshot hs).mono _
    · obtain ⟨rfl, rfl⟩ : batch.map Prod.fst = stepIds ∧ st.stepOutputs = snapshot := by
        simpa [ExecEvent.started?] using hs
      exact (hlog.snapshotOk hb.action hb.supplied).mono _
  calls := hb.calls h hlog
  order := hb.order hnd h
  groupStops := hb.groupStops h hlog
  runStops := hb.runStops h hlog

end Batch

/-- Every phase keeps what holds of the events. -/
theorem TraceInv.step (hnd : ep.layers.flatten.Nodup) {st st' : ExecState} (h : TraceInv env ep st)
    (hlog : LogInv env ep st) (hstep : (machine env ep).step st phase st') : TraceInv env ep st' := by
  cases phase with
  | skip stepId reason => exact hstep.2 ▸ h.skip stepId reason
  | halt batch step path count =>
    obtain ⟨hfresh, -, -, hsup, rfl⟩ := hstep
    exact h.halt hlog hfresh hsup step path count
  | batch batch =>
    obtain ⟨hready, hselectors, hsup, runs, hruns, rfl⟩ := hstep
    exact h.takeBatch hnd hlog ⟨hready, hselectors, hsup, gather_ends hruns⟩
  | merge =>
    obtain rfl := hstep
    exact ⟨h.logged, h.known, h.finished, h.earlier, h.barrier, h.selectors, h.snapshots, h.calls, h.order,
      h.groupStops, h.runStops⟩

theorem TraceInv.reachable (hnd : ep.layers.flatten.Nodup) {st : ExecState} (h : (machine env ep).Reachable st) :
    TraceInv env ep st :=
  h.induct (fun _ h => h ▸ .init) fun _ _ _ hr hinv hstep => hinv.step hnd (.reachable hr) hstep

end Trace

/-! ### Refused steps -/

/-- A step that was refused: it was started, and either the barrier found its selector
ambiguous or its arguments could not be made. -/
def Refused (env : ExecEnv) (ep : ExecutionPlan) (events : List ExecEvent) (r : StepResult) : Prop :=
  ∃ e ∈ events, ∃ stepIds snapshot action, e.started? = some (stepIds, snapshot) ∧ r.stepId ∈ stepIds ∧
    ep.plan.action? r.stepId = some action ∧
    ((∃ path count, resolveSelectorRefs env.py (.dict action.args) snapshot = .error (.ambiguity path count)) ∨
      ∃ spec summary, env.registry action.tool = some spec ∧ resolveArgs env action spec snapshot = .error summary ∧
        r.errorSummary = some summary)

/-- Every `arg_violation` in the log is of a step that was refused. -/
def RefusalInv (env : ExecEnv) (ep : ExecutionPlan) (st : ExecState) : Prop :=
  ∀ r ∈ st.results, r.status = .argViolation → Refused env ep st.events r

section Refusals

variable {env : ExecEnv} {ep : ExecutionPlan}

/-- More results, each of them no violation or explained. -/
theorem RefusalInv.more {st st' : ExecState} (h : RefusalInv env ep st) {new : List StepResult}
    {more : List ExecEvent} (hres : st'.results = st.results ++ new) (hev : st'.events = st.events ++ more)
    (hnew : ∀ r ∈ new, r.status = .argViolation → Refused env ep more r) : RefusalInv env ep st' := by
  intro r hr hst
  rw [hres, List.mem_append] at hr
  rw [hev]
  rcases hr with hr | hr
  · obtain ⟨e, he, hwhy⟩ := h r hr hst
    exact ⟨e, List.mem_append_left _ he, hwhy⟩
  · obtain ⟨e, he, hwhy⟩ := hnew r hr hst
    exact ⟨e, List.mem_append_right _ he, hwhy⟩

theorem ambiguityOf_some {step step' : Step} {path : RefPath} {count : ℕ}
    (h : ambiguityOf env snapshot step = some (step', path, count)) :
    step = step' ∧ resolveSelectorRefs env.py (.dict step.2.args) snapshot = .error (.ambiguity path count) := by
  unfold ambiguityOf at h
  split at h
  · rename_i heq
    obtain ⟨rfl, rfl, rfl⟩ := h
    exact ⟨rfl, heq⟩
  · cases h

theorem RefusalInv.step {st st' : ExecState} (h : RefusalInv env ep st)
    (hstep : (machine env ep).step st phase st') : RefusalInv env ep st' := by
  cases phase with
  | skip stepId reason =>
    obtain ⟨-, rfl⟩ := hstep
    refine h.more (recordSkip_results st stepId reason) (recordSkip_events st stepId reason) fun r hr hst => ?_
    rw [List.mem_singleton] at hr
    rw [hr] at hst
    cases hst
  | halt batch step path count =>
    obtain ⟨hfresh, hmem, hambiguous, -, rfl⟩ := hstep
    have hres : (haltBatch st batch step path count).results = st.results ++ [haltResult step path count] := rfl
    refine h.more hres (List.append_assoc st.events [_] [_]) fun r hr _ => ?_
    rw [List.mem_singleton] at hr
    subst hr
    exact ⟨_, List.mem_cons_self, batch.map Prod.fst, st.stepOutputs, step.2, rfl, List.mem_map_of_mem hmem,
      hfresh.action step hmem, .inl ⟨path, count, (ambiguityOf_some hambiguous).2⟩⟩
  | batch batch =>
    obtain ⟨hready, -, -, runs, hgather, rfl⟩ := hstep
    have hruns := gather_ends hgather
    obtain ⟨hres, hev, -⟩ := takeBatch_frame ep hruns st
    rw [List.append_assoc] at hev
    refine h.more hres hev fun r hr hst => ?_
    obtain ⟨run, hrun, rfl⟩ := List.mem_map.1 hr
    obtain ⟨step, hs, hends⟩ := forall₂_right hruns hrun
    have hid := hends.stepId.1
    cases hends with
    | refused hspec hargs =>
      exact ⟨_, List.mem_append_left _ List.mem_cons_self, batch.map Prod.fst, st.stepOutputs, step.2, rfl,
        List.mem_map_of_mem hs, hready.action step hs, .inr ⟨_, _, hspec, hargs, rfl⟩⟩
    | called => exact absurd hst (callResult_status _ _ _ _).1
  | merge =>
    obtain rfl := hstep
    exact h

theorem RefusalInv.reachable {st : ExecState} (h : (machine env ep).Reachable st) : RefusalInv env ep st := by
  refine h.induct (fun st hinit => ?_) fun _ _ _ _ hinv hstep => hinv.step hstep
  obtain rfl := hinit
  intro r hr
  cases hr

end Refusals

end Sreda.Planner
