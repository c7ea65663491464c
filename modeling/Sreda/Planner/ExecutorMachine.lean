import Sreda.Lib.Transition
import Sreda.Planner.Executor

/-!
# The executor as a state machine

A run of the executor is a sequence of four kinds of phases: a step is skipped, a batch is
stopped by the selector barrier, a batch is run, the outputs of a layer become visible.
`machine` says when each phase may come and what it does to the state, without the loops
of the executor. Invariants are proved of the machine, one phase at a time. What one step
does and what a phase leaves alone is here too.
-/

namespace Sreda.Planner

open Sreda.Lib

/-- The steps whose results are in the log, in its order. -/
def ExecState.ids (st : ExecState) : List String := st.results.map StepResult.stepId

/-- One phase of a run. -/
inductive Phase where
  | skip (stepId reason : String)
  | halt (batch : List Step) (step : Step) (path : RefPath) (count : ℕ)
  | batch (batch : List Step)
  | merge

/-- `a` stands before `b` in one layer. -/
def Before (ep : ExecutionPlan) (a b : String) : Prop := ∃ layer ∈ ep.layers, [a, b].Sublist layer

/-- Two steps of one `honest_partial` group. -/
def SameGroup (ep : ExecutionPlan) (x y : Action) : Prop := honest ep x = true ∧ x.intentGroup = y.intentGroup

theorem SameGroup.symm {ep : ExecutionPlan} {x y : Action} (h : SameGroup ep x y) : SameGroup ep y x := by
  refine ⟨?_, h.2.symm⟩
  have hx := h.1
  unfold honest at hx ⊢
  rwa [h.2] at hx

/-- The snapshot has an output of every producer of the step. -/
def Supplied (py : Py) (plan : Plan) (snapshot : List (String × Dict)) (step : Step) : Prop :=
  ∀ dep ∈ producers py plan step.1 step.2, ∃ output, (dep, output) ∈ snapshot

/-- Steps of the plan that are not in the log yet. -/
structure Fresh (ep : ExecutionPlan) (st : ExecState) (batch : List Step) : Prop where
  action : ∀ step ∈ batch, ep.plan.action? step.1 = some step.2
  nodup : (batch.map Prod.fst).Nodup
  fresh : ∀ step ∈ batch, step.1 ∉ st.ids

/-- A batch that may be run. -/
structure Ready (ep : ExecutionPlan) (st : ExecState) (batch : List Step) : Prop extends Fresh ep st batch where
  running : st.abortReason = none
  enabled : ∀ step ∈ batch, step.1 ∈ st.enabled
  group : ∀ step ∈ batch, groupFailed ep st step.2 = false
  /-- No two steps of one `honest_partial` group. -/
  groups : batch.Pairwise fun x y => ¬ SameGroup ep x.2 y.2
  /-- Of such a group, all steps that stand earlier in the layer have their results. -/
  earlier : ∀ step ∈ batch, ∀ a action, Before ep a step.1 → ep.plan.action? a = some action →
    SameGroup ep action step.2 → a ∈ st.ids

/-- The executor, one phase at a time. -/
def machine (env : ExecEnv) (ep : ExecutionPlan) : Lts ExecState Phase where
  init st := st = initialState ep
  step st phase st' := match phase with
    | .skip stepId reason => stepId ∉ st.ids ∧ st' = recordSkip ep st stepId reason
    | .halt batch step path count => Fresh ep st batch ∧ step ∈ batch ∧
        ambiguityOf env st.stepOutputs step = some (step, path, count) ∧
        (∀ step ∈ batch, Supplied env.py ep.plan st.stepOutputs step) ∧ st' = haltBatch st batch step path count
    | .batch batch => Ready ep st batch ∧ (∀ step ∈ batch, ambiguityOf env st.stepOutputs step = none) ∧
        (∀ step ∈ batch, Supplied env.py ep.plan st.stepOutputs step) ∧
        ∃ runs, gather env st.stepOutputs batch = .ok runs ∧ st' = takeBatch env ep st batch runs
    | .merge => st' = mergeOutputs st

/-! ### What one step does -/

variable {snapshot : List (String × Dict)} {step : Step} {run : StepRun}

section Step

variable {env : ExecEnv} {ep : ExecutionPlan}

theorem callResult_id (stepId : String) (action : Action) (spec : ToolSpec) (call : ToolCall) :
    (callResult env stepId action spec call).stepId = stepId ∧
      (callResult env stepId action spec call).tool = action.tool := by
  unfold callResult
  split
  · exact ⟨rfl, rfl⟩
  · exact ⟨rfl, rfl⟩
  · split
    · exact ⟨rfl, rfl⟩
    · exact ⟨rfl, rfl⟩
    · split <;> exact ⟨rfl, rfl⟩

theorem callResult_status (stepId : String) (action : Action) (spec : ToolSpec) (call : ToolCall) :
    (callResult env stepId action spec call).status ≠ .argViolation ∧
      (callResult env stepId action spec call).status ≠ .skipped := by
  unfold callResult
  split
  · simp
  · simp
  · split
    · simp
    · simp
    · split <;> simp

/-- How a step ended: it was refused before the tool was called, or the tool was called with
the arguments that its references resolve to. -/
inductive StepEnds (env : ExecEnv) (snapshot : List (String × Dict)) (step : Step) : StepRun → Prop where
  | refused {spec : ToolSpec} {summary : String} : env.registry step.2.tool = some spec →
      resolveArgs env step.2 spec snapshot = .error summary →
      StepEnds env snapshot step {
        result := {
          stepId := step.1, tool := step.2.tool, status := .argViolation, errorSummary := some summary }
        events := [] }
  | called {spec : ToolSpec} {tool : Tool} {args : Dict} {pre : List ExecEvent} {marks : List ExecEvent} :
      env.registry step.2.tool = some spec → env.toolsByName step.2.tool = some tool →
      resolveArgs env step.2 spec snapshot = .ok args →
      pre = [] ∨ pre = [.opened step.1] →
      (∀ e ∈ marks, ∃ status, e = .marked step.1 status) →
      StepEnds env snapshot step ⟨callResult env step.1 step.2 spec (tool step.1 args),
        pre ++ .invoked step.1 args :: .finished (callResult env step.1 step.2 spec (tool step.1 args)) :: marks⟩

theorem executeOneStep_ends {spec : ToolSpec} {tool : Tool}
    (hspec : env.registry step.2.tool = some spec) (htool : env.toolsByName step.2.tool = some tool)
    (h : executeOneStep env step.1 step.2 spec tool snapshot = .ok run) : StepEnds env snapshot step run := by
  unfold executeOneStep at h
  cases hargs : resolveArgs env step.2 spec snapshot with
  | error summary =>
    simp only [hargs, Except.ok.injEq] at h
    exact h ▸ .refused hspec hargs
  | ok args =>
    simp only [hargs] at h
    cases hl : env.ledger with
    | none =>
      simp only [hl, Except.ok.injEq] at h
      exact h ▸ .called hspec htool hargs (.inl rfl) (List.forall_mem_nil _)
    | some ledger =>
      simp only [hl] at h
      cases ho : ledger.openStep step.1 with
      | error exc => simp [ho] at h
      | ok _ =>
        simp only [ho, Except.ok.injEq] at h
        refine h ▸ .called hspec htool hargs (.inr rfl) ?_
        intro e he
        obtain ⟨status, -, rfl⟩ := Option.map_eq_some_iff.1 (Option.mem_toList.1 he)
        exact ⟨status, rfl⟩

theorem StepEnds.stepId
    (h : StepEnds env snapshot step run) : run.result.stepId = step.1 ∧ run.result.tool = step.2.tool := by
  cases h with
  | refused => exact ⟨rfl, rfl⟩
  | called => exact callResult_id _ _ _ _

theorem StepEnds.not_skipped (h : StepEnds env snapshot step run) : run.result.status ≠ .skipped := by
  cases h with
  | refused => simp
  | called => exact (callResult_status _ _ _ _).2

theorem StepEnds.runs? (h : StepEnds env snapshot step run) : ∀ e ∈ run.events, e.runs? = some step.1 := by
  cases h with
  | refused => simp
  | called _ _ _ hpre hmarks =>
    intro e he
    rcases List.mem_append.1 he with he | he
    · rcases hpre with rfl | rfl
      · cases he
      · rw [List.mem_singleton] at he
        rw [he]; rfl
    · rcases List.mem_cons.1 he with rfl | he
      · rfl
      · rcases List.mem_cons.1 he with rfl | he
        · simp [ExecEvent.runs?, (callResult_id _ _ _ _).1]
        · obtain ⟨status, rfl⟩ := hmarks e he
          rfl

/-- A call that is over is over with the result of the step. -/
theorem StepEnds.finished
    (h : StepEnds env snapshot step run) {r : StepResult} (hr : .finished r ∈ run.events) : r = run.result := by
  cases h with
  | refused => cases hr
  | called _ _ _ hpre hmarks =>
    rcases List.mem_append.1 hr with hr | hr
    · rcases hpre with rfl | rfl <;> simp at hr
    · rcases List.mem_cons.1 hr with hr | hr
      · cases hr
      · rcases List.mem_cons.1 hr with hr | hr
        · exact ExecEvent.finished.inj hr
        · obtain ⟨status, heq⟩ := hmarks _ hr
          cases heq

/-- A call is made for the step itself, and its arguments have been resolved. -/
theorem StepEnds.invoked
    (h : StepEnds env snapshot step run) {stepId : String} {args : Dict} (hr : .invoked stepId args ∈ run.events) :
    stepId = step.1 ∧ ∃ spec, resolveArgs env step.2 spec snapshot = .ok args := by
  cases h with
  | refused => cases hr
  | called _ _ hargs hpre hmarks =>
    rcases List.mem_append.1 hr with hr | hr
    · rcases hpre with rfl | rfl <;> simp at hr
    · rcases List.mem_cons.1 hr with hr | hr
      · obtain ⟨rfl, rfl⟩ := ExecEvent.invoked.inj hr
        exact ⟨rfl, _, hargs⟩
      · rcases List.mem_cons.1 hr with hr | hr
        · cases hr
        · obtain ⟨status, heq⟩ := hmarks _ hr
          cases heq

/-- In the events of one step nothing is called after the call is over. -/
theorem StepEnds.own (h : StepEnds env snapshot step run) :
    run.events.Pairwise fun e f => ∀ r stepId args, e = .finished r → f ≠ .invoked stepId args := by
  cases h with
  | refused => exact .nil
  | @called _ _ _ _ marks _ _ _ hpre hmarks =>
    have hcall : ∀ (r : StepResult) (args : Dict),
        (.invoked step.1 args :: .finished r :: marks : List ExecEvent).Pairwise
          fun e f => ∀ r stepId args, e = .finished r → f ≠ .invoked stepId args := by
      intro r args
      refine List.pairwise_cons.2 ⟨fun f _ r stepId args he => (by cases he), List.pairwise_cons.2
        ⟨fun f hf r stepId args _ => ?_, List.pairwise_of_forall_mem_list fun e he f _ r stepId args heq => ?_⟩⟩
      · obtain ⟨status, rfl⟩ := hmarks f hf
        simp
      · obtain ⟨status, rfl⟩ := hmarks e he
        cases heq
    rcases hpre with rfl | rfl
    · exact hcall _ _
    · exact List.pairwise_cons.2 ⟨fun f _ r stepId args he => (by cases he), hcall _ _⟩

theorem mapM_ok_forall₂ {α β ε : Type} {f : α → Except ε β} : ∀ {as : List α} {bs : List β},
    as.mapM f = .ok bs → List.Forall₂ (fun a b => f a = .ok b) as bs
  | [], bs, h => by
    obtain rfl : [] = bs := by simpa [pure, Except.pure] using h
    exact .nil
  | a :: as, bs, h => by
    rw [List.mapM_cons] at h
    obtain ⟨b, hb, h⟩ := Value.bind_ok.1 h
    obtain ⟨rest, hrest, h⟩ := Value.bind_ok.1 h
    obtain rfl : b :: rest = bs := by simpa [pure, Except.pure] using h
    exact .cons hb (mapM_ok_forall₂ hrest)

/-- What is on the right of two related lists has a partner on the left. -/
theorem forall₂_right {α β : Type} {R : α → β → Prop} {as : List α} {bs : List β} (h : List.Forall₂ R as bs) {b : β}
    (hb : b ∈ bs) : ∃ a ∈ as, R a b := by
  induction h with
  | nil => cases hb
  | @cons a _ as _ hab _ ih =>
    rcases List.mem_cons.1 hb with rfl | hb
    · exact ⟨a, List.mem_cons_self, hab⟩
    · obtain ⟨a', ha', hrel⟩ := ih hb
      exact ⟨a', List.mem_cons_of_mem _ ha', hrel⟩

theorem gather_ends {batch : List Step} {runs : List StepRun}
    (h : gather env snapshot batch = .ok runs) : List.Forall₂ (StepEnds env snapshot) batch runs := by
  obtain ⟨started, hstarted, hruns⟩ := Value.bind_ok.1 h
  have h₁ := mapM_ok_forall₂ hstarted
  have h₂ := mapM_ok_forall₂ hruns
  clear hstarted hruns h
  induction h₁ generalizing runs with
  | nil => cases h₂; exact .nil
  | @cons step entry batch started hstep _ ih =>
    cases h₂ with
    | cons hrun hrest =>
      refine .cons ?_ (ih hrest)
      unfold lookupTool at hstep
      cases hspec : env.registry step.2.tool with
      | none => simp [hspec] at hstep
      | some spec =>
        cases htool : env.toolsByName step.2.tool with
        | none => simp [hspec, htool] at hstep
        | some tool =>
          simp only [hspec, htool, Except.ok.injEq] at hstep
          subst hstep
          exact executeOneStep_ends hspec htool hrun

end Step

/-! ### What the phases leave alone -/

section Frame

variable {env : ExecEnv} {ep : ExecutionPlan}

@[simp] theorem log_results (st : ExecState) (r : StepResult) : (st.log r).results = st.results ++ [r] := rfl
@[simp] theorem recordSkip_results (st : ExecState) (stepId reason : String) :
    (recordSkip ep st stepId reason).results = st.results ++ [skipResult ep.plan stepId reason] := rfl
@[simp] theorem recordSkip_events (st : ExecState) (stepId reason : String) :
    (recordSkip ep st stepId reason).events = st.events ++ [.logged (skipResult ep.plan stepId reason)] := rfl

@[simp] theorem recordSkip_ids (st : ExecState) (stepId reason : String) :
    (recordSkip ep st stepId reason).ids = st.ids ++ [stepId] := by
  simp [ExecState.ids, skipResult]

@[simp] theorem haltBatch_ids (st : ExecState) (batch : List Step) (step : Step) (path : RefPath) (count : ℕ) :
    (haltBatch st batch step path count).ids = st.ids ++ [step.1] := by
  simp [ExecState.ids, haltBatch, haltResult]

/-- Taking a result logs it, and keeps the outputs that the steps of the layer see and what
has been enabled. -/
theorem takeResult_frame (env : ExecEnv) (ep : ExecutionPlan) (st : ExecState) (entry : Step × StepRun) :
    (takeResult env ep st entry).results = st.results ++ [entry.2.result] ∧
    (takeResult env ep st entry).events = st.events ++ [.logged entry.2.result] ∧
    (takeResult env ep st entry).stepOutputs = st.stepOutputs ∧
    st.enabled ⊆ (takeResult env ep st entry).enabled := by
  unfold takeResult
  simp only
  split
  · exact ⟨rfl, rfl, rfl, List.subset_append_right _ _⟩
  · exact ⟨rfl, rfl, rfl, List.Subset.refl _⟩
  · exact ⟨rfl, rfl, rfl, List.Subset.refl _⟩
  · exact ⟨rfl, rfl, rfl, List.Subset.refl _⟩
  · split
    · exact ⟨rfl, rfl, rfl, List.Subset.refl _⟩
    · split <;> exact ⟨rfl, rfl, rfl, List.Subset.refl _⟩

theorem takeResults_frame (env : ExecEnv) (ep : ExecutionPlan) (entries : List (Step × StepRun)) (st : ExecState) :
    (entries.foldl (takeResult env ep) st).results = st.results ++ entries.map (·.2.result) ∧
    (entries.foldl (takeResult env ep) st).events = st.events ++ entries.map (.logged ·.2.result) ∧
    (entries.foldl (takeResult env ep) st).stepOutputs = st.stepOutputs ∧
    st.enabled ⊆ (entries.foldl (takeResult env ep) st).enabled := by
  induction entries generalizing st with
  | nil => simp
  | cons entry entries ih =>
    obtain ⟨hr, he, ho, hen⟩ := takeResult_frame env ep st entry
    obtain ⟨ihr, ihe, iho, ihen⟩ := ih (takeResult env ep st entry)
    rw [List.foldl_cons]
    refine ⟨by rw [ihr, hr]; simp, by rw [ihe, he]; simp, iho.trans ho, List.Subset.trans hen ihen⟩

theorem takeBatch_frame (ep : ExecutionPlan) {batch : List Step} {runs : List StepRun}
    (h : List.Forall₂ (StepEnds env snapshot) batch runs) (st : ExecState) :
    (takeBatch env ep st batch runs).results = st.results ++ runs.map StepRun.result ∧
    (takeBatch env ep st batch runs).events = st.events ++
      (.batch (batch.map Prod.fst) st.stepOutputs :: env.scheduler.run (runs.map StepRun.events)) ++
        runs.map (.logged ·.result) ∧
    (takeBatch env ep st batch runs).ids = st.ids ++ batch.map Prod.fst ∧
    (takeBatch env ep st batch runs).stepOutputs = st.stepOutputs ∧
    st.enabled ⊆ (takeBatch env ep st batch runs).enabled := by
  obtain ⟨hr, he, ho, hen⟩ := takeResults_frame env ep (batch.zip runs) { st with
    events := st.events ++ .batch (batch.map Prod.fst) st.stepOutputs :: env.scheduler.run (runs.map StepRun.events) }
  have hzip : ∀ {γ : Type} (f : StepRun → γ), (batch.zip runs).map (fun entry => f entry.2) = runs.map f := by
    intro γ f
    have hmap : ((batch.zip runs).map Prod.snd).map f = (batch.zip runs).map (f ∘ Prod.snd) := List.map_map
    rw [List.map_snd_zip (by rw [h.length_eq])] at hmap
    exact hmap.symm
  have hids : runs.map (fun run => run.result.stepId) = batch.map Prod.fst := by
    clear hr he ho hen hzip
    induction h with
    | nil => rfl
    | cons hstep _ ih => simp [hstep.stepId.1, ih]
  unfold takeBatch
  rw [hzip StepRun.result] at hr
  rw [hzip fun run => ExecEvent.logged run.result] at he
  refine ⟨hr, he, ?_, ho, hen⟩
  unfold ExecState.ids
  rw [hr, List.map_append, List.map_map]
  exact congrArg _ hids

end Frame

end Sreda.Planner
