import Sreda.Lib.DepGraph
import Sreda.Planner.Selector
import Sreda.Planner.Schemas
import Sreda.Planner.ToolSpec

/-!
# From a plan to layers

The module `plan_compiler`, with the dependency graph and the cycle check of `validator`.
The layering and the search for cycles are those of `Sreda.Lib.DepGraph`; the graph, the
split of a layer into parts that may run side by side and the fail modes are here.
-/

namespace Sreda.Planner

open Sreda.Lib

section Graph

variable (py : Py) (plan : Plan)

/-- The producers of a step: the targets of its references and its `depends_on`, without the
step itself and without unknown steps (`_build_args_dep_graph`, `_build_data_dep_graph`). -/
def producers (stepId : String) (action : Action) : List String :=
  ((iterRefs py (.dict action.args)).map extractStepId ++ action.dependsOn).filter
    fun target => target ≠ stepId ∧ target ∈ plan.stepIds

/-- The steps of which a branch goes on with `stepId`. -/
def routers (stepId : String) : List String :=
  (plan.actions.filter fun (source, action) =>
    source ≠ stepId ∧ action.expectedOutcomes.any fun branch => branch.next = some stepId).map Prod.fst

/-- What a step depends on, by its data and by the branches that lead to it. -/
def fullDeps (stepId : String) : List String :=
  match plan.action? stepId with
  | some action => producers py plan stepId action ++ routers plan stepId
  | none => []

/-- `build_full_dep_graph`. -/
def buildFullDepGraph : DepGraph String where
  nodes := plan.stepIds
  nodup := plan.keys_nodup
  deps := fullDeps py plan
  deps_mem := by
    intro stepId dep h
    unfold fullDeps at h
    split at h
    · rcases List.mem_append.1 h with h | h
      · have hdep := (List.mem_filter.1 h).2
        simp only [decide_eq_true_eq] at hdep
        exact hdep.2
      · obtain ⟨entry, hentry, rfl⟩ := List.mem_map.1 h
        exact List.mem_map_of_mem (List.mem_filter.1 hentry).1
    · cases h

/-- A finding of the validator. -/
structure Violation where
  stepId : Option String
  tool : Option String
  code : String
  message : String

/-- `_phase1_detect_ref_cycles`: one violation for each step that is on a cycle. -/
def detectRefCycles : List Violation :=
  let cycle := sorted (buildFullDepGraph py plan).cycleNodes.dedup
  cycle.map fun stepId => {
    stepId := some stepId
    tool := (plan.action? stepId).map Action.tool
    code := "cycle"
    message := "step " ++ py.reprStr stepId ++ " participates in a reference cycle. The plan has a circular "
      ++ "dependency formed via \x60\x60$\x7b...\x7d\x60\x60 refs and/or \x60\x60depends_on\x60\x60 — executor "
      ++ "cannot order it. Cycle members: " ++ Value.repr py (.list (cycle.map .str)) ++ "." }

end Graph

/-- `can_run_parallel`. -/
def canRunParallel (a b : ToolSpec) : Bool :=
  if a.effect = .read ∧ b.effect = .read then true
  else if a.effect ≠ b.effect then
    let (writer, reader) := if a.effect = .write then (a, b) else (b, a)
    writer.writeDomains.all fun domain => domain ∉ reader.readDomains
  else if a.writeDomains.any fun domain => domain ∈ b.writeDomains then false
  else a.parallelSafe && b.parallelSafe

/-- Put a step into the first part whose steps all go with it, or into a new part. -/
def placeStep (compatible : String → String → Bool) (stepId : String) : List (List String) → List (List String)
  | [] => [[stepId]]
  | sub :: subs =>
    if sub.all (compatible stepId) then (sub ++ [stepId]) :: subs
    else sub :: placeStep compatible stepId subs

/-- The greedy loop of `_partition_layer_by_parallelism`. -/
def partitionLayer (compatible : String → String → Bool) (layer : List String) : List (List String) :=
  layer.foldl (fun subs stepId => placeStep compatible stepId subs) []

section Compile

variable (py : Py) (registry : Registry) (plan : Plan)

/-- `registry[plan.actions[step_id].tool]`. -/
def specOf (stepId : String) : Option ToolSpec := (plan.action? stepId).bind fun action => registry action.tool

/-- `can_run_parallel` on the specs of two steps; both are known where the compiler asks. -/
def compatible (a b : String) : Bool :=
  match specOf registry plan a, specOf registry plan b with
  | some specA, some specB => canRunParallel specA specB
  | _, _ => false

/-- What happens to an intent group after its first failure: the group goes on (`partial`),
or the rest of the group is skipped (`honest_partial`). -/
inductive FailMode where
  | partialMode
  | honestPartial
deriving DecidableEq

/-- The fail mode of a group of the plan (`_infer_fail_modes`): only a group that writes can
be `honest_partial`, and is, unless its write domains are pairwise different and the plan
has other groups (`_all_pairs_disjoint_write_domains`). -/
def failModeOf (group : String) : FailMode :=
  let groupSpecs := (plan.actions.filter fun entry => entry.2.intentGroup = group).filterMap
    fun entry => registry entry.2.tool
  let writers := groupSpecs.filter fun spec => spec.effect = .write
  if writers.isEmpty then .partialMode
  else if (writers.flatMap ToolSpec.writeDomains).Nodup ∧
      plan.actions.any fun entry => entry.2.intentGroup ≠ group then .partialMode
  else .honestPartial

/-- `_infer_fail_modes`: the groups of the plan with their modes. -/
def inferFailModes : List (String × FailMode) :=
  (plan.actions.map fun entry => entry.2.intentGroup).dedup.map fun group => (group, failModeOf registry plan group)

/-- A compiled plan. -/
structure ExecutionPlan where
  layers : List (List String)
  failModes : List (String × FailMode)
  plan : Plan

/-- `fail_modes.get(group, "honest_partial")`. -/
def ExecutionPlan.failMode (ep : ExecutionPlan) (group : String) : FailMode :=
  (ep.failModes.lookup group).getD .honestPartial

/-- `PlanCompileError`. -/
inductive PlanCompileError where
  | unknownTool (stepId tool : String)
  | cycle (unplaced : List String)

/-- `compile`. -/
def compile : Except PlanCompileError ExecutionPlan :=
  match plan.actions.find? fun entry => (registry entry.2.tool).isNone with
  | some (stepId, action) => .error (.unknownTool stepId action.tool)
  | none =>
    if plan.actions.isEmpty then .ok { layers := [], failModes := [], plan := plan }
    else match (buildFullDepGraph py plan).layers sorted with
      | .error unplaced => .error (.cycle unplaced)
      | .ok topo => .ok {
          layers := topo.flatMap (partitionLayer (compatible registry plan))
          failModes := inferFailModes registry plan
          plan := plan }

end Compile

/-! ### The parts of a layer -/

section Partition

variable {compatible : String → String → Bool}

theorem placeStep_perm (stepId : String) (subs : List (List String)) :
    (placeStep compatible stepId subs).flatten.Perm (subs.flatten ++ [stepId]) := by
  induction subs with
  | nil => simp [placeStep]
  | cons sub subs ih =>
    simp only [placeStep]
    split
    · simp only [List.flatten_cons, List.append_assoc]
      exact List.Perm.append_left _ List.perm_append_comm
    · simpa using ih.append_left sub

theorem partitionLayer_perm (compatible : String → String → Bool) (layer : List String) :
    (partitionLayer compatible layer).flatten.Perm layer := by
  unfold partitionLayer
  induction layer using List.reverseRecOn with
  | nil => simp
  | append_singleton layer stepId ih =>
    rw [List.foldl_append, List.foldl_cons, List.foldl_nil]
    exact (placeStep_perm stepId _).trans (ih.append_right _)

theorem placeStep_pairwise (hsymm : ∀ a b, compatible a b = compatible b a) {stepId : String}
    {subs : List (List String)} (h : ∀ sub ∈ subs, sub.Pairwise fun a b => compatible a b) :
    ∀ sub ∈ placeStep compatible stepId subs, sub.Pairwise fun a b => compatible a b := by
  induction subs with
  | nil => intro sub hsub; simp_all [placeStep]
  | cons first subs ih =>
    have hrest := ih fun sub hsub => h sub (by simp [hsub])
    intro sub hsub
    simp only [placeStep] at hsub
    split at hsub
    · rename_i hall
      rcases List.mem_cons.1 hsub with rfl | hsub
      · refine List.pairwise_append.2 ⟨h first (by simp), by simp, ?_⟩
        intro a ha b hb
        obtain rfl : b = stepId := by simpa using hb
        rw [hsymm]
        exact List.all_eq_true.1 hall a ha
      · exact h sub (by simp [hsub])
    · rcases List.mem_cons.1 hsub with rfl | hsub
      · exact h _ (by simp)
      · exact hrest sub hsub

/-- In every part of a layer any two steps go together. -/
theorem partitionLayer_pairwise (hsymm : ∀ a b, compatible a b = compatible b a) (layer : List String) :
    ∀ sub ∈ partitionLayer compatible layer, sub.Pairwise fun a b => compatible a b := by
  unfold partitionLayer
  induction layer using List.reverseRecOn with
  | nil => simp
  | append_singleton layer stepId ih =>
    rw [List.foldl_append, List.foldl_cons, List.foldl_nil]
    exact placeStep_pairwise hsymm ih

end Partition

theorem canRunParallel_symm (a b : ToolSpec) : canRunParallel a b = canRunParallel b a := by
  have hdisj : (a.writeDomains.any fun domain => domain ∈ b.writeDomains) =
      b.writeDomains.any fun domain => domain ∈ a.writeDomains := by
    rw [Bool.eq_iff_iff]
    simp only [List.any_eq_true, decide_eq_true_eq]
    exact ⟨fun ⟨d, hd, hd'⟩ => ⟨d, hd', hd⟩, fun ⟨d, hd, hd'⟩ => ⟨d, hd', hd⟩⟩
  cases ha : a.effect <;> cases hb : b.effect <;> simp [canRunParallel, ha, hb, hdisj, Bool.and_comm]

theorem compatible_symm (registry : Registry) (plan : Plan) (a b : String) :
    compatible registry plan a b = compatible registry plan b a := by
  unfold compatible
  cases specOf registry plan a <;> cases specOf registry plan b <;> simp [canRunParallel_symm]

/-! ### What compiling guarantees -/

section Guarantees

variable {py : Py} {registry : Registry} {plan : Plan}

/-- Every tool of the plan is in the registry. -/
def ToolsKnown (registry : Registry) (plan : Plan) : Prop :=
  ∀ entry ∈ plan.actions, ∃ spec, registry entry.2.tool = some spec

theorem find?_unknown_eq_none :
    (plan.actions.find? fun entry => (registry entry.2.tool).isNone) = none ↔ ToolsKnown registry plan := by
  simp only [List.find?_eq_none, ToolsKnown, Option.isNone_iff_eq_none]
  exact forall₂_congr fun entry _ => by rw [← ne_eq, Option.ne_none_iff_exists']

/-- A plan compiles when its tools are known and its graph has no cycle, and only then. -/
theorem compile_ok_iff (py : Py) (registry : Registry) (plan : Plan) : (∃ ep, compile py registry plan = .ok ep) ↔
    ToolsKnown registry plan ∧ ¬ (buildFullDepGraph py plan).HasCycle := by
  have hlayers := DepGraph.layers_ok_iff (G := buildFullDepGraph py plan) sorted_perm
  rw [← find?_unknown_eq_none]
  unfold compile
  cases hfind : plan.actions.find? fun entry => (registry entry.2.tool).isNone with
  | some entry => simp
  | none =>
    by_cases hempty : plan.actions.isEmpty
    · have hacyclic : ¬ (buildFullDepGraph py plan).HasCycle := by
        rintro ⟨a, ha⟩
        obtain ⟨b, hab, -⟩ := Relation.TransGen.head'_iff.1 ha
        have hnil : plan.actions = [] := by simpa using hempty
        simpa [buildFullDepGraph, Plan.stepIds, hnil] using hab.1
      simp [hempty, hacyclic]
    · rw [if_neg hempty, ← hlayers]
      cases (buildFullDepGraph py plan).layers sorted <;> simp

/-- What a compiled plan is made of, apart from the fail modes. -/
theorem compile_layers {ep : ExecutionPlan} (h : compile py registry plan = .ok ep) :
    ToolsKnown registry plan ∧ ep.plan = plan ∧
      ∃ topo, (buildFullDepGraph py plan).layers sorted = .ok topo ∧
        ep.layers = topo.flatMap (partitionLayer (compatible registry plan)) := by
  have hknown := ((compile_ok_iff py registry plan).1 ⟨ep, h⟩).1
  unfold compile at h
  rw [find?_unknown_eq_none.2 hknown] at h
  by_cases hempty : plan.actions.isEmpty
  · simp only [hempty, if_true, Except.ok.injEq] at h
    subst h
    have hnil : plan.actions = [] := by simpa using hempty
    exact ⟨hknown, rfl, [], by simp [DepGraph.layers, DepGraph.layersFrom, buildFullDepGraph, Plan.stepIds, hnil], rfl⟩
  · rw [if_neg hempty] at h
    cases hl : (buildFullDepGraph py plan).layers sorted with
    | error unplaced => simp [hl] at h
    | ok topo =>
      simp only [hl, Except.ok.injEq] at h
      subst h
      exact ⟨hknown, rfl, topo, rfl, rfl⟩

/-- The layers of a compiled plan hold every step once. -/
theorem compile_perm {ep : ExecutionPlan} (h : compile py registry plan = .ok ep) :
    ep.layers.flatten.Perm plan.stepIds := by
  obtain ⟨-, -, topo, htopo, hep⟩ := compile_layers h
  refine List.Perm.trans ?_ (DepGraph.layers_perm sorted_perm htopo)
  rw [hep]
  clear hep htopo
  induction topo with
  | nil => simp
  | cons layer topo ih =>
    rw [List.flatMap_cons, List.flatten_append, List.flatten_cons]
    exact (partitionLayer_perm _ layer).append ih

/-- What a step depends on lies in an earlier layer. -/
theorem compile_dep {ep : ExecutionPlan} (h : compile py registry plan = .ok ep) {pre post : List (List String)}
    {layer : List String} (hl : ep.layers = pre ++ layer :: post) {a b : String} (ha : a ∈ layer)
    (hab : (buildFullDepGraph py plan).Edge a b) : b ∈ pre.flatten := by
  obtain ⟨-, -, topo, htopo, hep⟩ := compile_layers h
  have hdep := DepGraph.flatMap_dep (buildFullDepGraph py plan).deps
    (partitionLayer_perm (compatible registry plan)) topo []
    (fun pre' l post' heq a ha b hb => by simpa using DepGraph.layers_dep sorted_perm htopo heq ha hb)
    pre layer post (hep ▸ hl) a ha b hab.2
  simpa using hdep

/-- Two steps of one layer may run side by side. -/
theorem compile_parallel {ep : ExecutionPlan} (h : compile py registry plan = .ok ep) {layer : List String}
    (hl : layer ∈ ep.layers) : layer.Pairwise fun a b => compatible registry plan a b := by
  obtain ⟨-, -, topo, -, hep⟩ := compile_layers h
  rw [hep] at hl
  obtain ⟨whole, -, hsub⟩ := List.mem_flatMap.1 hl
  exact partitionLayer_pairwise (compatible_symm registry plan) whole layer hsub

theorem detectRefCycles_eq_nil_iff : detectRefCycles py plan = [] ↔ ¬ (buildFullDepGraph py plan).HasCycle := by
  rw [← DepGraph.cycleNodes_eq_nil_iff]
  unfold detectRefCycles
  rw [List.map_eq_nil_iff, ← List.length_eq_zero_iff, (sorted_perm _).length_eq, List.length_eq_zero_iff]
  refine ⟨fun h => List.eq_nil_iff_forall_not_mem.2 fun a ha => ?_, fun h => by rw [h]; rfl⟩
  have hmem := List.mem_dedup.2 ha
  rw [h] at hmem
  cases hmem

/-- **Compiling fails exactly on an unknown tool or a cycle.** Otherwise the layers hold every
step once, a step lies in a later layer than everything it depends on, and two steps of one
layer may run side by side. With all tools known, the validator's search for cycles finds
nothing exactly when the plan compiles. -/
theorem compile_layering (py : Py) (registry : Registry) (plan : Plan) :
    ((∃ e, compile py registry plan = .error e) ↔
      ¬ ToolsKnown registry plan ∨ (buildFullDepGraph py plan).HasCycle) ∧
    (∀ ep, compile py registry plan = .ok ep →
      ep.layers.flatten.Perm plan.stepIds ∧
      (∀ pre layer post, ep.layers = pre ++ layer :: post → ∀ a ∈ layer, ∀ b,
        (buildFullDepGraph py plan).Edge a b → b ∈ pre.flatten) ∧
      ∀ layer ∈ ep.layers, ∀ a ∈ layer, ∀ b ∈ layer, a ≠ b → ∃ specA specB,
        specOf registry plan a = some specA ∧ specOf registry plan b = some specB ∧
          canRunParallel specA specB = true) ∧
    (ToolsKnown registry plan →
      (detectRefCycles py plan = [] ↔ ∃ ep, compile py registry plan = .ok ep)) := by
  refine ⟨?_, fun ep h => ⟨compile_perm h, ?_, ?_⟩, ?_⟩
  · have hok := compile_ok_iff py registry plan
    cases hc : compile py registry plan with
    | error e =>
      have hno : ¬ (ToolsKnown registry plan ∧ ¬ (buildFullDepGraph py plan).HasCycle) := by
        rw [← hok, hc]
        rintro ⟨ep, hep⟩
        cases hep
      exact iff_of_true ⟨e, rfl⟩ (by tauto)
    | ok ep =>
      obtain ⟨hknown, hacyclic⟩ := hok.1 ⟨ep, hc⟩
      exact iff_of_false (by rintro ⟨e, he⟩; cases he) (by tauto)
  · intro pre layer post hl a ha b hab
    exact compile_dep h hl ha hab
  · intro layer hl a ha b hb hne
    have : Std.Symm fun a b => compatible registry plan a b = true :=
      ⟨fun a b hab => by rw [compatible_symm]; exact hab⟩
    have hpair : compatible registry plan a b = true := (compile_parallel h hl).forall ha hb hne
    unfold compatible at hpair
    cases hsa : specOf registry plan a <;> cases hsb : specOf registry plan b <;> simp_all
  · intro hknown
    rw [detectRefCycles_eq_nil_iff, compile_ok_iff]
    exact ⟨fun h => ⟨hknown, h⟩, fun h => h.2⟩

/-- A plan of one step. -/
def oneStep : Plan where
  actions := [("s1", {
    tool := "list_tasks", args := [], intentGroup := "default", dependsOn := []
    expectedOutcomes := [{ expected := [], next := none, compose := none, terminus := terminus_none }]
    expectedOutcomes_ne_nil := by decide })]
  keys_nodup := by decide
  keys_format := by decide
  dependsOn_ok := by decide
  next_ok := by decide
  dependsOn_acyclic := dependsOn_acyclic_of_nil (by simp)

/-- With an empty registry a plan without any cycle does not compile. -/
theorem compile_unknownTool : (∃ e, compile Py.ascii (fun _ => none) oneStep = .error e) ∧
    ¬ (buildFullDepGraph Py.ascii oneStep).HasCycle ∧ detectRefCycles Py.ascii oneStep = [] := by
  have hnil : (buildFullDepGraph Py.ascii oneStep).cycleNodes = [] := by decide
  have hacyclic := DepGraph.cycleNodes_eq_nil_iff.1 hnil
  exact ⟨⟨_, rfl⟩, hacyclic, detectRefCycles_eq_nil_iff.2 hacyclic⟩

end Guarantees

end Sreda.Planner
