import Mathlib.Logic.Relation
import Sreda.Planner.Value

/-!
# Plans

The module `schemas`: what the planner returns, with the rules that the schema checks as
fields. The clarity of a plan and its plan-level composer call are left out: neither the
compiler nor the executor reads them.
-/

namespace Sreda.Planner

/-- The two kinds of a composer call. -/
inductive ComposerKind where
  | template
  | llm
deriving DecidableEq

/-- How the reply is composed. -/
structure ComposerCall where
  kind : ComposerKind
  templateId : Option String
  templateData : Dict
  llmPromptKey : Option String
  /-- `_validate_kind_consistency`: the id or key of its kind is there and is not empty. -/
  kind_consistent : match kind with
    | .template => templateId.getD "" ≠ ""
    | .llm => llmPromptKey.getD "" ≠ ""

/-- One outcome of a step: when the fields `expected` of the output (`match` in the source)
have these values, go on with `next` or end with `compose`. -/
structure OutcomeBranch where
  expected : Dict
  next : Option String
  compose : Option ComposerCall
  /-- `_validate_terminus`. -/
  terminus : next = none ∨ compose = none

theorem terminus_none : (none : Option String) = none ∨ (none : Option ComposerCall) = none := .inl rfl

/-- One step of a plan. -/
structure Action where
  tool : String
  args : Dict
  expectedOutcomes : List OutcomeBranch
  intentGroup : String
  dependsOn : List String
  expectedOutcomes_ne_nil : expectedOutcomes ≠ []

/-- `_ACTION_KEY_RE.match`: `s`, a digit from 1 to 9, more digits, and possibly the newline
that `$` lets through. -/
def isActionKey (key : String) : Bool :=
  match key.toList with
  | 's' :: c :: cs => ('1' ≤ c && c ≤ '9') &&
      (cs.all Char.isDigit || (cs.getLast? == some '\n' && cs.dropLast.all Char.isDigit))
  | _ => false

/-- A plan: its steps in the order of the document. The other fields are what
`_validate_action_key_format` and `_validate_graph` check. -/
structure Plan where
  actions : List (String × Action)
  keys_nodup : (actions.map Prod.fst).Nodup
  keys_format : ∀ key ∈ actions.map Prod.fst, isActionKey key = true
  dependsOn_ok : ∀ entry ∈ actions, entry.1 ∉ entry.2.dependsOn ∧ entry.2.dependsOn.Nodup ∧
    ∀ dep ∈ entry.2.dependsOn, dep ∈ actions.map Prod.fst
  next_ok : ∀ entry ∈ actions, ∀ branch ∈ entry.2.expectedOutcomes, ∀ next ∈ branch.next,
    next ≠ entry.1 ∧ next ∈ actions.map Prod.fst
  dependsOn_acyclic : ∀ key,
    ¬ Relation.TransGen (fun a b => ∃ entry ∈ actions, entry.1 = a ∧ b ∈ entry.2.dependsOn) key key

/-- Steps without `depends_on` cannot form a cycle of it. -/
theorem dependsOn_acyclic_of_nil {actions : List (String × Action)}
    (h : ∀ entry ∈ actions, entry.2.dependsOn = []) (key : String) :
    ¬ Relation.TransGen (fun a b => ∃ entry ∈ actions, entry.1 = a ∧ b ∈ entry.2.dependsOn) key key := by
  intro hcycle
  obtain ⟨b, ⟨entry, hmem, -, hdep⟩, -⟩ := Relation.TransGen.head'_iff.1 hcycle
  rw [h entry hmem] at hdep
  cases hdep

namespace Plan

variable (plan : Plan)

/-- The ids of the steps. -/
def stepIds : List String := plan.actions.map Prod.fst

/-- `plan.actions.get(step_id)`. -/
def action? (stepId : String) : Option Action := plan.actions.lookup stepId

variable {plan}

theorem mem_of_action? {stepId : String} {action : Action} (h : plan.action? stepId = some action) :
    (stepId, action) ∈ plan.actions := by
  obtain ⟨pre, post, heq, -⟩ := List.lookup_eq_some_iff.1 h
  simp [heq]

theorem action?_of_mem {stepId : String} {action : Action} (h : (stepId, action) ∈ plan.actions) :
    plan.action? stepId = some action := by
  obtain ⟨pre, post, heq⟩ := List.append_of_mem h
  refine List.lookup_eq_some_iff.2 ⟨pre, post, heq, fun p hp => ?_⟩
  have hnd := plan.keys_nodup
  rw [heq, List.map_append, List.nodup_append] at hnd
  have hne : p.1 ≠ stepId := hnd.2.2 p.1 (List.mem_map_of_mem hp) stepId (by simp)
  simpa using hne.symm

theorem action?_isSome {stepId : String} : (∃ action, plan.action? stepId = some action) ↔ stepId ∈ plan.stepIds := by
  constructor
  · rintro ⟨action, h⟩
    exact List.mem_map.2 ⟨_, mem_of_action? h, rfl⟩
  · intro h
    obtain ⟨⟨key, action⟩, hmem, rfl⟩ := List.mem_map.1 h
    exact ⟨action, action?_of_mem hmem⟩

end Plan

end Sreda.Planner
