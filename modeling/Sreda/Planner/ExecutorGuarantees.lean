import Sreda.Planner.ExecutorLoops

/-!
# What the executor guarantees

The results about `execute_plan`: every step gets one result, a tool is called for an
enabled step with results to refer to (`executePlan_results`); an outcome that says that
nothing was changed is right about it (`executePlan_outcome_sound`); failures and aborts
stop what comes after them (`executePlan_order`). They follow from the invariants of the
machine and from `executePlan_run`.
-/

namespace Sreda.Planner

open Sreda.Lib

/-! ### A run comes to its end -/

/-- The run has what the executor checks for: the tools of the plan, and a ledger that can be
written when there is one. -/
structure ExecEnv.Supplies (env : ExecEnv) (plan : Plan) : Prop where
  spec : ToolsKnown env.registry plan
  tool : ∀ entry ∈ plan.actions, ∃ tool, env.toolsByName entry.2.tool = some tool
  identity : ∀ ledger ∈ env.ledger, ledger.turnKey.getD "" ≠ "" ∧ ledger.executionId ≠ ""
  opens : ∀ ledger ∈ env.ledger, ∀ stepId ∈ plan.stepIds, ledger.openStep stepId = .ok ()

section Total

variable {env : ExecEnv} {ep : ExecutionPlan}

theorem mapM_total {α β ε : Type} {f : α → Except ε β} : ∀ {as : List α}, (∀ a ∈ as, ∃ b, f a = .ok b) →
    ∃ bs, as.mapM f = .ok bs
  | [], _ => ⟨[], rfl⟩
  | a :: as, h => by
    obtain ⟨b, hb⟩ := h a (by simp)
    obtain ⟨bs, hbs⟩ := mapM_total fun a' ha' => h a' (List.mem_cons_of_mem _ ha')
    exact ⟨b :: bs, by simp [List.mapM_cons, hb, hbs, bind, Except.bind, pure, Except.pure]⟩

theorem executeOneStep_total (hs : env.Supplies ep.plan) {step : Step} (ha : ep.plan.action? step.1 = some step.2)
    (spec : ToolSpec) (tool : Tool) (snapshot : List (String × Dict)) :
    ∃ run, executeOneStep env step.1 step.2 spec tool snapshot = .ok run := by
  have hid : step.1 ∈ ep.plan.stepIds := Plan.action?_isSome.1 ⟨step.2, ha⟩
  unfold executeOneStep
  cases resolveArgs env step.2 spec snapshot with
  | error summary => exact ⟨_, rfl⟩
  | ok args =>
    simp only
    cases hl : env.ledger with
    | none => exact ⟨_, rfl⟩
    | some ledger =>
      simp only [hs.opens ledger hl step.1 hid]
      exact ⟨_, rfl⟩

theorem gather_total (hs : env.Supplies ep.plan) (snapshot : List (String × Dict)) {batch : List Step}
    (ha : ∀ step ∈ batch, ep.plan.action? step.1 = some step.2) : ∃ runs, gather env snapshot batch = .ok runs := by
  have hlookup : ∀ step ∈ batch, ∃ entry, lookupTool env step = .ok entry := by
    intro step hstep
    have hmem := Plan.mem_of_action? (ha step hstep)
    obtain ⟨spec, hspec⟩ := hs.spec _ hmem
    obtain ⟨tool, htool⟩ := hs.tool _ hmem
    exact ⟨(step, spec, tool), by simp [lookupTool, hspec, htool]⟩
  obtain ⟨started, hstarted⟩ := mapM_total hlookup
  have hentry : ∀ entry ∈ started, entry.1 ∈ batch := by
    intro entry hentry
    obtain ⟨step, hstep, heq⟩ := forall₂_right (mapM_ok_forall₂ hstarted) hentry
    obtain rfl : entry.1 = step := by
      unfold lookupTool at heq
      split at heq
      · cases heq
      · split at heq
        · cases heq
        · exact congrArg Prod.fst (Except.ok.inj heq).symm
    exact hstep
  obtain ⟨runs, hruns⟩ := mapM_total (f := fun (entry : Step × ToolSpec × Tool) =>
      executeOneStep env entry.1.1 entry.1.2 entry.2.1 entry.2.2 snapshot)
    fun entry he => executeOneStep_total hs (ha _ (hentry entry he)) entry.2.1 entry.2.2 snapshot
  exact ⟨runs, Value.bind_ok.2 ⟨started, hstarted, hruns⟩⟩

/-- The second look at a batch adds no step to it. -/
theorem refilter_subset (batch : List Step) (acc : ExecState × List Step) :
    ∀ step ∈ (batch.foldl (refilter ep) acc).2, step ∈ acc.2 ∨ step ∈ batch := by
  induction batch generalizing acc with
  | nil => exact fun step hs => .inl hs
  | cons first batch ih =>
    intro step hs
    rw [List.foldl_cons] at hs
    rcases ih _ step hs with hin | hin
    · unfold refilter at hin
      split at hin
      · exact .inl hin
      · rcases List.mem_append.1 hin with hin | hin
        · exact .inl hin
        · rw [List.mem_singleton] at hin
          exact .inr (hin ▸ List.mem_cons_self)
    · exact .inr (List.mem_cons_of_mem _ hin)

theorem runBatches_total (hs : env.Supplies ep.plan) (snapshot : List (String × Dict)) :
    ∀ (batches : List (List Step)) (st : ExecState), (∀ step ∈ batches.flatten, ep.plan.action? step.1 = some step.2) →
      ∃ st', runBatches env ep snapshot batches st = .ok st'
  | [], st, _ => ⟨st, rfl⟩
  | batch :: later, st, ha => by
    have hlater : ∀ step ∈ later.flatten, ep.plan.action? step.1 = some step.2 := fun step hstep =>
      ha step (by simp [hstep])
    have hkept : ∀ step ∈ (batch.foldl (refilter ep) (st, [])).2, ep.plan.action? step.1 = some step.2 := by
      intro step hstep
      rcases refilter_subset batch (st, []) step hstep with hin | hin
      · cases hin
      · exact ha step (by simp [hin])
    rw [runBatches]
    cases hfold : batch.foldl (refilter ep) (st, []) with
    | mk st₁ kept =>
      rw [hfold] at hkept
      simp only
      split
      · exact runBatches_total hs snapshot later st₁ hlater
      · split
        · exact ⟨_, rfl⟩
        · obtain ⟨runs, hruns⟩ := gather_total hs snapshot hkept
          simp only [hruns, bind, Except.bind]
          split
          · exact ⟨_, rfl⟩
          · exact runBatches_total hs snapshot later _ hlater

/-- What is admitted to a layer are steps of the plan. -/
theorem admitStep_action (env : ExecEnv) (ep : ExecutionPlan) (layer : List String) (acc : ExecState × List Step)
    (h : ∀ step ∈ acc.2, ep.plan.action? step.1 = some step.2) :
    ∀ step ∈ (layer.foldl (admitStep env ep) acc).2, ep.plan.action? step.1 = some step.2 := by
  induction layer generalizing acc with
  | nil => exact h
  | cons stepId layer ih =>
    rw [List.foldl_cons]
    refine ih _ fun step hstep => ?_
    rcases admitStep_cases env ep acc.1 acc.2 stepId with ⟨reason, heq⟩ | ⟨action, ha, -, -, heq⟩
    · exact h step (by rwa [heq] at hstep)
    · rw [heq] at hstep
      rcases List.mem_append.1 hstep with hin | hin
      · exact h step hin
      · rw [List.mem_singleton] at hin
        exact hin ▸ ha

theorem runLayer_total (hs : env.Supplies ep.plan) (st : ExecState) (layer : List String) :
    ∃ st', runLayer env ep st layer = .ok st' := by
  have haction := admitStep_action env ep layer (st, []) (by simp)
  unfold runLayer
  split
  · exact ⟨_, rfl⟩
  · cases hfold : layer.foldl (admitStep env ep) (st, []) with
    | mk st₁ runnable =>
      rw [hfold] at haction
      simp only
      split
      · exact ⟨_, rfl⟩
      · obtain ⟨st₂, hst₂⟩ := runBatches_total hs st₁.stepOutputs (buildLayerBatches ep runnable) st₁
          (by rw [(buildLayerBatches_spec ep runnable).1]; exact haction)
        exact ⟨mergeOutputs st₂, by simp [hst₂, bind, Except.bind, pure, Except.pure]⟩

/-- With the tools and the ledger in place, every run comes to its end. -/
theorem executePlan_total (ep : ExecutionPlan) (hs : env.Supplies ep.plan) : ∃ run, executePlan env ep = .ok run := by
  have hledger : checkLedger env = .ok () := by
    unfold checkLedger
    cases hl : env.ledger with
    | none => rfl
    | some ledger =>
      obtain ⟨hkey, hid⟩ := hs.identity ledger hl
      simp [hkey, hid]
  have hlayers : ∀ (layers : List (List String)) (st : ExecState),
      ∃ st', layers.foldlM (runLayer env ep) st = .ok st' := by
    intro layers
    induction layers with
    | nil => exact fun st => ⟨st, rfl⟩
    | cons layer layers ih =>
      intro st
      obtain ⟨st₁, hst₁⟩ := runLayer_total hs st layer
      obtain ⟨st₂, hst₂⟩ := ih st₁
      exact ⟨st₂, by rw [List.foldlM_cons]; exact Value.bind_ok.2 ⟨st₁, hst₁, hst₂⟩⟩
  obtain ⟨st, hst⟩ := hlayers ep.layers (initialState ep)
  unfold executePlan
  rw [hledger]
  simp only [bind, Except.bind]
  split
  · exact ⟨_, rfl⟩
  · rw [hst]
    exact ⟨_, rfl⟩

end Total

/-! ### A plan with two groups -/

/-- A write tool of one domain, which answers with its status. -/
def writeSpec (name domain : String) : ToolSpec where
  name := name
  effect := .write
  readDomains := []
  writeDomains := [domain]
  parallelSafe := true
  timeoutSeconds := 15
  sideEffectClass := .transactionalWrite
  requestLocal := false
  committedStatuses := some ["ok"]
  validateArgs := fun args => match args with
    | .dict kvs => .ok kvs
    | _ => .error (.validation "[]")
  parse := fun raw => .output [("status", .str raw)]
  outputModel := {
    members := [[("status", .literal ["ok", "error"])]], models := fun _ => []
    discriminated := List.pairwise_singleton _ _ }
  validateOutput := .ok
  timeout_pos := by decide
  domains_ok := by simp
  request_local_ok := by simp
  read_only_ok := by simp

/-- Three write tools of different domains. -/
def writeRegistry : Registry := fun tool =>
  match tool with
  | "add_task" => some (writeSpec "add_task" "tasks")
  | "save_recipe" => some (writeSpec "save_recipe" "recipes")
  | "create_checklist" => some (writeSpec "create_checklist" "checklists")
  | _ => none

/-- A run without a ledger in which every tool gives the same answer and the steps of a batch
take turns. -/
def answering (answer : ToolCall) : ExecEnv where
  py := Py.ascii
  registry := writeRegistry
  toolsByName := fun _ => some fun _ _ => answer
  ledger := none
  scheduler := Scheduler.turns

theorem plainStep_ne_nil : [OutcomeBranch.mk [("status", .str "ok")] none none terminus_none] ≠ [] := List.cons_ne_nil _ _

/-- A step that runs a tool without arguments and ends. -/
def plainStep (stepId tool group : String) : Step := (stepId, {
  tool, args := [], intentGroup := group, dependsOn := []
  expectedOutcomes := [{ expected := [("status", .str "ok")], next := none, compose := none, terminus := terminus_none }]
  expectedOutcomes_ne_nil := plainStep_ne_nil })

/-- Two groups, both of which write to one domain twice. -/
def twoGroups : Plan where
  actions := [plainStep "s2" "add_task" "tasks", plainStep "s3" "add_task" "tasks",
    plainStep "s4" "create_checklist" "lists", plainStep "s5" "create_checklist" "lists",
    plainStep "s10" "save_recipe" "tasks"]
  keys_nodup := by decide
  keys_format := by decide
  dependsOn_ok := by decide
  next_ok := by decide
  dependsOn_acyclic := dependsOn_acyclic_of_nil (by decide)

/-- The plan `twoGroups`, compiled. -/
def twoGroupsCompiled : ExecutionPlan where
  layers := [["s10", "s2", "s4"], ["s3", "s5"]]
  failModes := [("lists", .honestPartial), ("tasks", .honestPartial)]
  plan := twoGroups

theorem twoGroups_compiled : compile Py.ascii writeRegistry twoGroups = .ok twoGroupsCompiled := rfl

theorem twoGroups_supplied (answer : ToolCall) : (answering answer).Supplies twoGroups :=
  ⟨(compile_layers twoGroups_compiled).1, fun _ _ => ⟨_, rfl⟩, fun _ h => (by cases h), fun _ h => (by cases h)⟩

/-! ### One result for each step -/

section Results

variable {plan : Plan} {ep : ExecutionPlan} {registry : Registry}

theorem compile_layered {py : Py} (h : compile py registry plan = .ok ep) : Layered py ep := by
  obtain ⟨-, hplan, -⟩ := compile_layers h
  refine ⟨(compile_perm h).nodup_iff.2 plan.keys_nodup, fun pre layer post hl stepId hs action ha dep hdep => ?_⟩
  rw [hplan] at ha hdep
  refine compile_dep h hl hs ⟨Plan.action?_isSome.1 ⟨action, ha⟩, ?_⟩
  simp only [buildFullDepGraph, fullDeps, ha]
  exact List.mem_append_left _ hdep

/-- **Every step of the plan gets one result, layer after layer, and a tool is called only
for an enabled step whose references have `ok` results.** Whatever the tools do, a run that
has its tools and its ledger comes to its end. -/
theorem executePlan_results (env : ExecEnv) (h : compile env.py env.registry plan = .ok ep) :
    (env.Supplies plan → ∃ run, executePlan env ep = .ok run) ∧
    ∀ run, executePlan env ep = .ok run →
      (run.log.steps.map StepResult.stepId).Perm plan.stepIds ∧
      (∃ blocks, List.Forall₂ List.Perm blocks ep.layers ∧ run.log.steps.map StepResult.stepId = blocks.flatten) ∧
      loggedIn run.events = run.log.steps ∧ Causal (CallOk env.py plan) run.events := by
  obtain ⟨-, hplan, -⟩ := compile_layers h
  refine ⟨fun hs => executePlan_total ep (hplan ▸ hs), fun run hrun => ?_⟩
  obtain ⟨st, hreach, hev, hres, -, blocks, hblocks, hids⟩ := executePlan_run (compile_layered h) hrun
  have htrace := TraceInv.reachable (compile_layered h).nodup hreach
  rw [hres, hev]
  refine ⟨?_, ⟨blocks, hblocks, hids⟩, htrace.logged, hplan ▸ htrace.calls⟩
  have hsteps : (st.results.map StepResult.stepId).Perm ep.layers.flatten := by
    rw [show st.results.map StepResult.stepId = blocks.flatten from hids]
    exact List.Perm.flatten_congr hblocks
  exact hsteps.trans (compile_perm h)

theorem executePlan_results_twoGroups : ∃ run, executePlan (answering (.returned "ok")) twoGroupsCompiled = .ok run ∧
    (run.log.steps.map StepResult.stepId).Perm twoGroups.stepIds ∧ Causal (CallOk Py.ascii twoGroups) run.events := by
  obtain ⟨hends, hall⟩ := executePlan_results (answering (.returned "ok")) twoGroups_compiled
  obtain ⟨run, hrun⟩ := hends (twoGroups_supplied _)
  obtain ⟨hsteps, -, -, hcalls⟩ := hall run hrun
  exact ⟨run, hrun, hsteps, hcalls⟩

end Results

/-! ### The outcome and the writes -/

/-- The result of a write step under which its change may have been committed: it is `ok` and
the output does not name one of the statuses under which the tool changes nothing, or it is
not known how the call ended. -/
def MayHaveCommitted (registry : Registry) (r : StepResult) : Prop :=
  r.status = .unknownOutcome ∨ r.status = .planGap ∨ r.status = .timeout ∨
    (r.status = .ok ∧ ¬ ∃ spec committed status, registry r.tool = some spec ∧ spec.committedStatuses = some committed ∧
      (r.parsedOutput.getD []).lookup "status" = some (.str status) ∧ status ∉ committed)

section Writes

variable {env : ExecEnv} {plan : Plan} {ep : ExecutionPlan} {registry : Registry}

/-- What the code looks for in an aborted run is what may have committed a write. -/
theorem mayHaveCommittedWrite_of_write {r : StepResult} (hw : isWrite registry r.tool = true)
    (h : MayHaveCommitted registry r) : mayHaveCommittedWrite registry r = true := by
  unfold mayHaveCommittedWrite
  unfold isWrite at hw
  cases hreg : registry r.tool with
  | none =>
    rcases h with hst | hst | hst | ⟨hst, -⟩ <;> simp [hst]
  | some spec =>
    have heff : spec.effect = .write := by simpa [hreg] using hw
    rcases h with hst | hst | hst | ⟨hst, hno⟩
    · simp [hst, heff]
    · simp [hst, heff]
    · simp [hst, heff]
    · simp only [hst, heff, ne_eq, not_true_eq_false, if_false]
      cases hc : spec.committedStatuses with
      | none => rfl
      | some committed =>
        simp only
        split
        · rename_i status hstatus
          by_contra hnot
          exact hno ⟨spec, committed, status, hreg, hc, hstatus, by simpa using hnot⟩
        · rfl

/-- **An outcome that says that nothing was changed is right**: after `failed` or `aborted` no
write step has a result under which its change may have been committed. -/
theorem executePlan_outcome_sound (h : compile env.py registry plan = .ok ep) {run : ExecRun}
    (hrun : executePlan env ep = .ok run) (hout : run.log.outcome = .failed ∨ run.log.outcome = .aborted) :
    ∀ r ∈ run.log.steps, isWrite env.registry r.tool = true → ¬ MayHaveCommitted env.registry r := by
  obtain ⟨st, hreach, -, hres, hsum, -⟩ := executePlan_run (compile_layered h) hrun
  have hlog := LogInv.reachable hreach
  rw [hres]
  intro r hr hw hmay
  rw [hsum] at hout
  unfold summariseOutcome at hout
  cases hab : st.abortReason with
  | some reason =>
    -- the run was aborted, and the results were searched for such a write
    have hany : st.results.any (mayHaveCommittedWrite env.registry) = true :=
      List.any_eq_true.2 ⟨r, hr, mayHaveCommittedWrite_of_write hw hmay⟩
    simp [ExecState.aborted, hab, hany] at hout
  | none =>
    -- the run was not aborted, so only an `ok` result could have committed, and it is a success
    have hgo := hlog.running hab r hr
    have hok : r.status = .ok := by
      rcases hmay with hst | hst | hst | ⟨hst, -⟩
      · exact absurd (.inl hst) hgo
      · exact absurd (.inr (.inl hst)) hgo
      · exact absurd (.inr (.inr (.inr ⟨hst, hw⟩))) hgo
      · exact hst
    have hsuccess : ((st.results.filter fun r => r.status ≠ .skipped).any fun r => r.status = .ok) = true :=
      List.any_eq_true.2 ⟨r, List.mem_filter.2 ⟨hr, by simp [hok]⟩, by simp [hok]⟩
    simp only [ExecState.aborted, hab, Option.isSome_none, Bool.false_eq_true, if_false, hsuccess,
      Bool.and_true] at hout
    split at hout <;> simp_all

theorem executePlan_outcome_sound_raising : ∃ run,
    executePlan (answering (.raised ⟨"ValueError", "no such list"⟩)) twoGroupsCompiled = .ok run ∧
      run.log.outcome = .failed ∧
      ∀ r ∈ run.log.steps, isWrite writeRegistry r.tool = true → ¬ MayHaveCommitted writeRegistry r := by
  obtain ⟨run, hrun⟩ :=
    executePlan_total twoGroupsCompiled (twoGroups_supplied (.raised ⟨"ValueError", "no such list"⟩))
  have hout : (executePlan (answering (.raised ⟨"ValueError", "no such list"⟩)) twoGroupsCompiled).map
      (fun run => run.log.outcome) = .ok .failed := rfl
  rw [hrun] at hout
  have hfailed : run.log.outcome = .failed := Except.ok.inj hout
  exact ⟨run, hrun, hfailed, executePlan_outcome_sound twoGroups_compiled hrun (.inl hfailed)⟩

end Writes

/-! ### What a failure stops -/

section Order

variable {env : ExecEnv} {plan : Plan} {ep : ExecutionPlan} {registry : Registry}

/-- **What the groups, the aborts and the selectors guarantee about the order of events.** Two
steps of one `honest_partial` group in one layer run one after the other, in the order of the
layer, and after a failure in such a group none of its steps is called. After a result that
stops the run no step runs. A batch is started when no selector in it is ambiguous; of a batch
that is stopped by the barrier no tool is called and no ledger row opened. -/
theorem executePlan_order (h : compile env.py registry plan = .ok ep) {run : ExecRun}
    (hrun : executePlan env ep = .ok run) :
    run.events.Pairwise (LayerOrder ep) ∧ run.events.Pairwise (GroupStops ep) ∧
    run.events.Pairwise (RunStops env.registry) ∧
    (∀ stepIds snapshot, .batch stepIds snapshot ∈ run.events → ∀ stepId ∈ stepIds, ∀ action,
      plan.action? stepId = some action → ambiguityOf env snapshot (stepId, action) = none) ∧
    ∀ stepIds snapshot, .barrier stepIds snapshot ∈ run.events → ∀ stepId ∈ stepIds, ∀ e ∈ run.events,
      e.runs? ≠ some stepId := by
  obtain ⟨-, hplan, -⟩ := compile_layers h
  obtain ⟨st, hreach, hev, -⟩ := executePlan_run (compile_layered h) hrun
  have htrace := TraceInv.reachable (compile_layered h).nodup hreach
  rw [hev]
  exact ⟨htrace.order, htrace.groupStops, htrace.runStops, hplan ▸ htrace.selectors,
    fun stepIds snapshot hm => (htrace.barrier stepIds snapshot hm).2⟩

theorem executePlan_order_twoGroups : ∃ run,
    executePlan (answering (.returned "ok")) twoGroupsCompiled = .ok run ∧
      run.events.Pairwise (LayerOrder twoGroupsCompiled) ∧ run.events.Pairwise (GroupStops twoGroupsCompiled) := by
  obtain ⟨run, hrun⟩ := executePlan_total twoGroupsCompiled (twoGroups_supplied (.returned "ok"))
  obtain ⟨horder, hstops, -⟩ := executePlan_order twoGroups_compiled hrun
  exact ⟨run, hrun, horder, hstops⟩

/-- The step that a call begins (`true`) or ends. -/
def ExecEvent.call? : ExecEvent → Option (String × Bool)
  | invoked stepId _ => some (stepId, true)
  | finished result => some (result.stepId, false)
  | _ => none

/-- In a layer of two `honest_partial` groups the steps do not run one after the other, nor in
the order of the plan: `s10` runs before `s2`, and `s2` together with `s4`. -/
theorem twoGroups_overlap : twoGroups.stepIds = ["s2", "s3", "s4", "s5", "s10"] ∧
    compile Py.ascii writeRegistry twoGroups = .ok twoGroupsCompiled ∧
    twoGroupsCompiled.layers = [["s10", "s2", "s4"], ["s3", "s5"]] ∧
    (∀ entry ∈ twoGroups.actions, honest twoGroupsCompiled entry.2 = true) ∧
    ∃ run, executePlan (answering (.returned "ok")) twoGroupsCompiled = .ok run ∧
      run.events.filterMap ExecEvent.call? = [("s10", true), ("s10", false), ("s2", true), ("s4", true),
        ("s2", false), ("s4", false), ("s3", true), ("s5", true), ("s3", false), ("s5", false)] :=
  ⟨rfl, rfl, rfl, by decide, _, rfl, rfl⟩

end Order

end Sreda.Planner
