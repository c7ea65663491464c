import Sreda.Planner.Composer
import Sreda.Planner.Presenters

/-!
# The contract of a narrated result

`services/composer_contracts.py`: `validate_humanize_result_payload` looks at the data of a `humanize_result` call twice.
When the plan is validated, its actions may name steps; when the voice is called, they are texts. In between the
normaliser of the composer turns the steps into texts, which come from the presenters.

## What is proved

* the data that the plan may have, in the form that names steps, is what the normaliser recognises
  (`narrationForm?_of_accepted`);
* the normalised data is accepted when no text and no status is blank (`validatePayload_eq_nil_iff`);
* so the normaliser keeps the contract exactly when no step that is ok shows white space
  (`normalizeHumanizeResult_reports_iff`). The presenters see to it that a text is not empty, the contract asks that it
  is not blank.
-/

namespace Sreda.Planner

open Sreda.Lib
open Sreda.Lib.PyText (Text Blank)

/-! ### The validator -/

/-- `_FULL_REF_RE.match`: `^\$\{[^}]+\}$`, where `$` matches before a last line end too. -/
def isFullRefText : Text → Bool
  | '$' :: '\x7b' :: rest =>
    let tail := rest.dropWhile (· ≠ '\x7d')
    rest.head? ≠ some '\x7d' && (tail = ['\x7d'] || tail = ['\x7d', '\n'])
  | _ => false

/-- `_is_full_ref`. -/
def isFullRef : Value → Bool
  | .str s => isFullRefText s.toList
  | _ => false

/-- `v is None`. -/
def Value.isNone : Value → Bool
  | .null => true
  | _ => false

/-- A string that `strip()` leaves something of. -/
def isFilledString : Value → Bool
  | .str s => stripText s ≠ ""
  | _ => false

section Validator

variable (py : Py)

/-- A sorted list of names inside of a message. -/
def namesRepr (names : List String) : String :=
  (Value.list ((names.mergeSort fun a b => decide (a ≤ b)).map .str)).repr py

/-- `_HUMANIZE_RESULT_ALLOWED_TOP_KEYS`. -/
def allowedTopKeys : List String := ["intent", "actions"]

/-- `_HUMANIZE_RESULT_ACTION_ALLOWED_KEYS`. -/
def allowedActionKeys : List String := ["user_visible_summary", "status"]

/-- The keys of a dict that are not allowed. -/
def extraKeys (kvs : Dict) (allowed : List String) : List String := (kvs.map Prod.fst).filter fun key => !allowed.contains key

def topKeyErrors (data : Dict) : List String :=
  let extra := extraKeys data allowedTopKeys
  if extra = [] then []
  else ["humanize_result template_data has disallowed top-level keys: " ++ namesRepr py extra ++ ". Only "
    ++ namesRepr py allowedTopKeys ++ " are permitted — extra keys may carry internal/PII fields that must not reach the LLM."]

def intentErrors (data : Dict) (allowRefs : Bool) : List String :=
  let intent := (data.lookup "intent").getD .null
  if intent.isNone then ["humanize_result template_data missing required key 'intent'."]
  else if allowRefs && isFullRef intent then []
  else if isFilledString intent then []
  else ["humanize_result template_data['intent'] must be a non-empty string, got " ++ intent.repr py ++ "."]

/-- `humanize_result template_data['actions'][i]`. -/
def actionPlace (i : ℕ) : String := "humanize_result template_data['actions'][" ++ toString i ++ "]"

/-- One of the two values of an action. -/
def actionValueErrors (allowRefs : Bool) (i : ℕ) (action : Dict) (key : String) : List String :=
  let value := (action.lookup key).getD .null
  let place := actionPlace i ++ "[" ++ py.reprStr key ++ "]"
  if value.isNone then [place ++ " is missing."]
  else if allowRefs && isFullRef value then []
  else if isFilledString value then []
  else [place ++ " must be a non-empty string, got " ++ value.repr py ++ "."]

def actionErrors (allowRefs : Bool) (i : ℕ) (item : Value) : List String :=
  if allowRefs && isFullRef item then []
  else match item with
    | .dict action =>
      let extra := extraKeys action allowedActionKeys
      (if extra = [] then []
        else [actionPlace i ++ " has disallowed keys: " ++ namesRepr py extra ++ ". Each action item must contain only "
          ++ namesRepr py allowedActionKeys ++ ". Raw fields like 'tool', 'execution_id', 'error' must not be passed — "
          ++ "use 'user_visible_summary' instead."])
        ++ actionValueErrors py allowRefs i action "user_visible_summary" ++ actionValueErrors py allowRefs i action "status"
    | item => [actionPlace i ++ " must be a dict, got " ++ py.reprStr item.typeName ++ "."]

/-- `validate_humanize_result_payload`. -/
def validateHumanizeResultPayload (data : Dict) (allowRefs : Bool) : List String :=
  let errors := topKeyErrors py data ++ intentErrors py data allowRefs
  let actions := (data.lookup "actions").getD .null
  if allowRefs && isFullRef actions then errors
  else match actions with
    | .list (item :: items) =>
      if allowRefs && (item :: items).any fun item => (stepIdOf? item).isSome then
        errors ++
          if (narrationForm? data).isSome then []
          else ["humanize_result: the new \x7bstep_id\x7d narration form must be uniform — every action must be "
            ++ "\x7bstep_id\x7d and 'intent' a non-empty literal string with no $\x7b...\x7d reference."]
      else errors ++ (item :: items).zipIdx.flatMap fun (item, i) => actionErrors py allowRefs i item
    | _ => errors ++ ["humanize_result template_data['actions'] must be a non-empty list."]

end Validator

/-! ### The form that names steps -/

/-- The steps that the actions of a payload name. -/
def namedSteps (data : Dict) : List String :=
  match data.lookup "actions" with
  | some (.list items) => items.filterMap stepIdOf?
  | _ => []

theorem filterMap_of_mapM {α β : Type} {f : α → Option β} : ∀ {as : List α} {bs : List β}, as.mapM f = some bs →
    as.filterMap f = bs
  | [], bs, h => by cases h; rfl
  | a :: as, bs, h => by
    rw [List.mapM_cons] at h
    obtain ⟨b, hb, h⟩ := Option.bind_eq_some_iff.mp h
    obtain ⟨rest, hrest, h⟩ := Option.bind_eq_some_iff.mp h
    cases h
    rw [List.filterMap_cons_some hb, filterMap_of_mapM hrest]

theorem stripText_eq_empty_iff {text : String} : stripText text = "" ↔ Blank text.toList := by
  rw [stripText, ← PyText.strip_eq_nil_iff]
  constructor
  · intro h
    have hlist := congrArg String.toList h
    rwa [String.toList_ofList] at hlist
  · intro h
    exact congrArg String.ofList h

variable {data : Dict} {intent : String} {stepIds : List String}

/-- The form has an intent that says something, and its steps are the ones that its actions name. -/
theorem narrationForm?_some
    (h : narrationForm? data = some (intent, stepIds)) : ¬ Blank intent.toList ∧ stepIds = namedSteps data := by
  unfold narrationForm? at h
  split at h
  next text item items hintent hactions =>
    split at h
    next hform =>
      obtain ⟨ids, hids, h⟩ := Option.map_eq_some_iff.mp h
      cases h
      refine ⟨fun hblank => hform.2.1 (stripText_eq_empty_iff.mpr hblank), ?_⟩
      rw [namedSteps, hactions]
      exact (filterMap_of_mapM hids).symm
    · cases h
  · cases h

/-- **What the plan may have is what the normaliser recognises.** -/
theorem narrationForm?_of_accepted {py : Py} (haccepted : validateHumanizeResultPayload py data true = [])
    (hform : namedSteps data ≠ []) : ∃ intent, narrationForm? data = some (intent, namedSteps data) := by
  have hsome : (narrationForm? data).isSome = true := by
    unfold namedSteps at hform
    split at hform
    next items hactions =>
      obtain ⟨stepId, hstepId⟩ := List.exists_mem_of_ne_nil _ hform
      obtain ⟨item, hitem, hid⟩ := List.mem_filterMap.mp hstepId
      have hany : (items.any fun item => (stepIdOf? item).isSome) = true :=
        List.any_eq_true.mpr ⟨item, hitem, by rw [hid]; rfl⟩
      cases items with
      | nil => cases hitem
      | cons first rest =>
        simp only [validateHumanizeResultPayload, hactions, Option.getD_some, isFullRef, Bool.and_false, Bool.false_eq_true,
          if_false, hany, Bool.and_self, if_true, List.append_eq_nil_iff] at haccepted
        by_contra hnone
        rw [if_neg hnone] at haccepted
        exact absurd haccepted.2 (List.cons_ne_nil _ _)
    · exact absurd rfl hform
  obtain ⟨⟨intent, stepIds⟩, hsome⟩ := Option.isSome_iff_exists.mp hsome
  exact ⟨intent, by rw [hsome, (narrationForm?_some hsome).2]⟩

/-! ### The form that the voice is given -/

/-- The payload that the normaliser builds. -/
def narration (intent : String) (entries : List (String × String)) : Dict :=
  [("intent", .str intent), ("actions", .list (entries.map narrationEntry))]

theorem isFilledString_str {s : String} : isFilledString (.str s) = true ↔ ¬ Blank s.toList := by
  rw [isFilledString, decide_eq_true_eq, ne_eq, stripText_eq_empty_iff]

theorem actionValueErrors_eq_nil_iff {py : Py} {i : ℕ} {action : Dict} {key s : String}
    (h : action.lookup key = some (.str s)) : actionValueErrors py false i action key = [] ↔ ¬ Blank s.toList := by
  rw [← isFilledString_str]
  simp only [actionValueErrors, h, Option.getD_some, Value.isNone, Bool.false_and, Bool.false_eq_true, if_false]
  split <;> simp_all

theorem actionErrors_narrationEntry {py : Py} {i : ℕ} {entry : String × String} :
    actionErrors py false i (narrationEntry entry) = [] ↔ ¬ Blank entry.1.toList ∧ ¬ Blank entry.2.toList := by
  have hkeys : extraKeys [("user_visible_summary", .str entry.1), ("status", .str entry.2)] allowedActionKeys = [] := rfl
  simp only [actionErrors, narrationEntry, Bool.false_and, Bool.false_eq_true, if_false, hkeys, if_true, List.nil_append,
    List.append_eq_nil_iff]
  rw [@actionValueErrors_eq_nil_iff _ _ _ _ entry.1 rfl, @actionValueErrors_eq_nil_iff _ _ _ _ entry.2 rfl]

theorem actionsErrors_eq_nil_iff {py : Py} {entries : List (String × String)} :
    ((entries.map narrationEntry).zipIdx.flatMap fun (item, i) => actionErrors py false i item) = [] ↔
      ∀ entry ∈ entries, ¬ Blank entry.1.toList ∧ ¬ Blank entry.2.toList := by
  rw [List.flatMap_eq_nil_iff]
  constructor
  · intro h entry hentry
    obtain ⟨i, hi⟩ := List.mem_iff_getElem?.mp (List.mem_map_of_mem (f := narrationEntry) hentry)
    exact actionErrors_narrationEntry.mp (h (narrationEntry entry, i) (List.mk_mem_zipIdx_iff_getElem?.mpr hi))
  · rintro h ⟨item, i⟩ hitem
    obtain ⟨entry, hentry, rfl⟩ := List.mem_map.mp (List.fst_mem_of_mem_zipIdx hitem)
    exact actionErrors_narrationEntry.mpr (h entry hentry)

/-- A payload of the normaliser is accepted when none of its texts is blank. -/
theorem validatePayload_eq_nil_iff {py : Py} {entries : List (String × String)}
    (hintent : ¬ Blank intent.toList) (hne : entries ≠ []) :
    validateHumanizeResultPayload py (narration intent entries) false = [] ↔
      ∀ entry ∈ entries, ¬ Blank entry.1.toList ∧ ¬ Blank entry.2.toList := by
  have htop : topKeyErrors py (narration intent entries) = [] := rfl
  have hfilled : intentErrors py (narration intent entries) false = [] := by
    have hlookup : (narration intent entries).lookup "intent" = some (.str intent) := rfl
    simp [intentErrors, hlookup, Value.isNone, isFilledString_str.mpr hintent]
  have hactions : (narration intent entries).lookup "actions" = some (.list (entries.map narrationEntry)) := rfl
  rw [← @actionsErrors_eq_nil_iff py]
  obtain ⟨first, rest, rfl⟩ := List.exists_cons_of_ne_nil hne
  simp only [validateHumanizeResultPayload, htop, hfilled, hactions, Option.getD_some, Bool.false_and, Bool.false_eq_true,
    if_false, List.map_cons, List.nil_append]

/-! ### The normaliser -/

/-- The composer with its presenters. -/
def ComposeEnv.presenting (env : ComposeEnv) (presenters : PresenterEnv) : ComposeEnv :=
  { env with
    renderDisplayText := fun tool output status => .ok (Planner.renderDisplayText presenters tool output status)
    renderExecutionFailure := fun tool status summary => .ok (Planner.renderExecutionFailure tool status summary) }

section Normaliser

variable (env : ComposeEnv) (presenters : PresenterEnv) (log : ExecutionLog)

/-- What one referenced step adds, as the presenters never fail. -/
def told (stepId : String) : Option (String × String) × Bool :=
  match log.byStepId stepId with
  | none => (some (renderExecutionFailure stepId "error" none, "fallback"), false)
  | some step =>
    match step.status with
    | .ok =>
      let (shown, looked) := narratedStatus env step
      (some (renderDisplayText presenters step.tool step.parsedOutput looked, shown), false)
    | .skipped => (none, step.errorSummary.getD "" ≠ "branch_not_selected")
    | status => (some (renderExecutionFailure step.tool status.text step.errorSummary, "error"), false)

/-- The entries of the steps, and a disclaimer when a failure is left out. -/
def entries (stepIds : List String) : List (String × String) :=
  let narrated := stepIds.map (told env presenters log)
  narrated.filterMap Prod.fst ++
    if narrated.any Prod.snd then [("Часть действий выполнить не удалось.", "fallback")] else []

theorem narrate_presenting : narrate (env.presenting presenters) log = fun stepId => pure (told env presenters log stepId) := by
  funext stepId
  rw [narrate, told]
  cases log.byStepId stepId with
  | none => rfl
  | some step =>
    dsimp only
    cases step.status <;> rfl

theorem normalizeHumanizeResult_of_form (h : narrationForm? data = some (intent, stepIds)) :
    normalizeHumanizeResult (env.presenting presenters) data log =
      .ok (if stepIds.filterMap (Prod.fst ∘ told env presenters log) = [] then .shortCircuit
        else .normalized (narration intent (entries env presenters log stepIds))) := by
  simp only [normalizeHumanizeResult, h, narrate_presenting, List.mapM_pure, pure_bind, List.filterMap_map, List.isEmpty_iff]
  split
  · rfl
  · simp only [narration, entries, List.filterMap_map]
    rfl

/-! ### What the entries say -/

variable {env presenters log}

/-- The domain status of an output. -/
def statusOf (output : Option Dict) : String :=
  match (output.getD []).lookup "status" with
  | some (.str status) => if stripText status = "" then "unknown" else status
  | _ => "unknown"

/-- A status is told when it is declared, and the text is looked up by it in any case. -/
theorem narratedStatus_eq (step : StepResult) : narratedStatus env step =
    (if env.isKnownDomainStatus step.tool (statusOf step.parsedOutput) then statusOf step.parsedOutput else "unknown",
      statusOf step.parsedOutput) := by
  rw [narratedStatus, statusOf]
  generalize (step.parsedOutput.getD []).lookup "status" = status
  split
  next text =>
    by_cases hblank : stripText text = ""
    · simp only [if_pos hblank, ite_self]
    · simp only [if_neg hblank]
  · simp

theorem statusOf_not_blank (output : Option Dict) : ¬ Blank (statusOf output).toList := by
  unfold statusOf
  split
  · split
    · decide
    next hfilled => exact fun h => hfilled (stripText_eq_empty_iff.mpr h)
  · decide

theorem narratedStatus_not_blank (step : StepResult) : ¬ Blank (narratedStatus env step).1.toList := by
  rw [narratedStatus_eq]
  dsimp only
  split
  · exact statusOf_not_blank _
  · decide

theorem told_ok {stepId : String} {step : StepResult} (hstep : log.byStepId stepId = some step) (hok : step.status = .ok) :
    told env presenters log stepId =
      (some (renderDisplayText presenters step.tool step.parsedOutput (statusOf step.parsedOutput),
        (narratedStatus env step).1), false) := by
  rw [told, hstep]
  simp only [hok, narratedStatus_eq]

theorem told_failed {stepId : String} {step : StepResult} (hstep : log.byStepId stepId = some step)
    (hok : step.status ≠ .ok) (hskipped : step.status ≠ .skipped) : told env presenters log stepId =
      (some (renderExecutionFailure step.tool step.status.text step.errorSummary, "error"), false) := by
  rw [told, hstep]
  dsimp only
  cases hstatus : step.status with
  | ok => exact absurd hstatus hok
  | skipped => exact absurd hstatus hskipped
  | _ => rfl

/-- The log has a step under the id that is ok and shows white space. -/
def ShowsBlankStep (presenters : PresenterEnv) (log : ExecutionLog) (stepId : String) : Prop :=
  ∃ step, log.byStepId stepId = some step ∧ step.status = .ok ∧
    ShowsWhitespace presenters step.tool step.parsedOutput (statusOf step.parsedOutput)

/-- The entry of a step says something, unless the step shows white space. -/
theorem told_speaks_iff {stepId : String} :
    (∀ entry, (told env presenters log stepId).1 = some entry → ¬ Blank entry.1.toList ∧ ¬ Blank entry.2.toList) ↔
      ¬ ShowsBlankStep presenters log stepId := by
  cases hstep : log.byStepId stepId with
  | none =>
    have hnone : ¬ ShowsBlankStep presenters log stepId := by
      rintro ⟨step, h, -⟩
      rw [hstep] at h
      cases h
    refine iff_of_true ?_ hnone
    intro entry h
    rw [told, hstep] at h
    cases h
    exact ⟨renderExecutionFailure_not_blank _ _ _, show ¬ Blank "fallback".toList by decide⟩
  | some step =>
    by_cases hok : step.status = .ok
    · rw [told_ok hstep hok]
      have hshows : ShowsBlankStep presenters log stepId ↔
          Blank (renderDisplayText presenters step.tool step.parsedOutput (statusOf step.parsedOutput)).toList := by
        rw [renderDisplayText_blank_iff]
        constructor
        · rintro ⟨step', hstep', -, h⟩
          rw [hstep] at hstep'
          cases hstep'
          exact h
        · intro h
          exact ⟨step, hstep, hok, h⟩
      rw [hshows]
      constructor
      · intro h
        exact (h _ rfl).1
      · rintro h entry hentry
        cases hentry
        exact ⟨h, narratedStatus_not_blank step⟩
    · have hnone : ¬ ShowsBlankStep presenters log stepId := by
        rintro ⟨step', hstep', hok', -⟩
        rw [hstep] at hstep'
        cases hstep'
        exact hok hok'
      refine iff_of_true ?_ hnone
      intro entry hentry
      by_cases hskipped : step.status = .skipped
      · rw [told, hstep] at hentry
        simp only [hskipped] at hentry
        cases hentry
      · rw [told_failed hstep hok hskipped] at hentry
        cases hentry
        exact ⟨renderExecutionFailure_not_blank step.tool step.status.text step.errorSummary,
          show ¬ Blank "error".toList by decide⟩

theorem entries_speak_iff :
    (∀ entry ∈ entries env presenters log stepIds, ¬ Blank entry.1.toList ∧ ¬ Blank entry.2.toList) ↔
      ∀ stepId ∈ stepIds, ¬ ShowsBlankStep presenters log stepId := by
  constructor
  · intro h stepId hstepId
    refine (@told_speaks_iff env _ _ _).mp fun entry hentry => h entry ?_
    apply List.mem_append_left
    exact List.mem_filterMap.mpr ⟨_, List.mem_map_of_mem hstepId, hentry⟩
  · intro h entry hentry
    rcases List.mem_append.mp hentry with hentry | hentry
    · obtain ⟨narrated, hnarrated, hentry⟩ := List.mem_filterMap.mp hentry
      obtain ⟨stepId, hstepId, rfl⟩ := List.mem_map.mp hnarrated
      exact told_speaks_iff.mpr (h stepId hstepId) entry hentry
    · split at hentry
      · obtain rfl := List.mem_singleton.mp hentry
        decide
      · cases hentry

/-! ### The contract kept -/

/-- A step that ran and failed: for the executor, or by the status that its output declares. -/
def RanAndFailed (env : ComposeEnv) (step : StepResult) : Prop :=
  (step.status ≠ .ok ∧ step.status ≠ .skipped) ∨
    (step.status = .ok ∧ statusOf step.parsedOutput = "error" ∧ env.isKnownDomainStatus step.tool "error" = true)

/-- What the normaliser owes to the plan and to the voice. -/
structure Reports (py : Py) (env : ComposeEnv) (log : ExecutionLog) (stepIds : List String) (result : Normalized) : Prop where
  recognised : result ≠ .fallThrough
  accepted : ∀ payload, result = .normalized payload → validateHumanizeResultPayload py payload false = []
  failures : (log.steps.map (·.stepId)).Nodup → ∀ step ∈ log.steps, step.stepId ∈ stepIds → RanAndFailed env step →
    ∃ payload actions summary, result = .normalized payload ∧ payload.lookup "actions" = some (.list actions) ∧
      narrationEntry (summary, "error") ∈ actions

/-- In a log without two steps of one id, a step is found by its id. -/
theorem byStepId_of_mem (hnodup : (log.steps.map (·.stepId)).Nodup) {step : StepResult} (hstep : step ∈ log.steps) :
    log.byStepId step.stepId = some step := by
  cases hfound : log.byStepId step.stepId with
  | none =>
    have hnone := List.find?_eq_none.mp hfound step (List.mem_reverse.mpr hstep)
    exact absurd (decide_eq_true rfl) hnone
  | some other =>
    have htest := List.find?_some hfound
    have hid : other.stepId = step.stepId := of_decide_eq_true htest
    have hother : other ∈ log.steps := List.mem_reverse.mp (List.mem_of_find?_eq_some hfound)
    rw [List.inj_on_of_nodup_map hnodup hother hstep hid]

theorem told_of_ranAndFailed {stepId : String} {step : StepResult} (hstep : log.byStepId stepId = some step)
    (hfailed : RanAndFailed env step) : ∃ summary, (told env presenters log stepId).1 = some (summary, "error") := by
  rcases hfailed with ⟨hok, hskipped⟩ | ⟨hok, hstatus, hknown⟩
  · rw [told_failed hstep hok hskipped]
    exact ⟨_, rfl⟩
  · rw [told_ok hstep hok, narratedStatus_eq, hstatus, if_pos hknown]
    exact ⟨_, rfl⟩

/-- A step that is ok has an entry, so nothing is left out of it when there is none. -/
theorem not_showsBlankStep_of_silent (hsilent : stepIds.filterMap (Prod.fst ∘ told env presenters log) = []) :
    ∀ stepId ∈ stepIds, ¬ ShowsBlankStep presenters log stepId := by
  rintro stepId hstepId ⟨step, hstep, hok, -⟩
  have hnone : (told env presenters log stepId).1 = none := List.filterMap_eq_nil_iff.mp hsilent stepId hstepId
  rw [told_ok hstep hok] at hnone
  cases hnone

theorem entries_ne_nil (hspoken : stepIds.filterMap (Prod.fst ∘ told env presenters log) ≠ []) :
    entries env presenters log stepIds ≠ [] := by
  intro h
  apply hspoken
  rw [← List.filterMap_map]
  exact (List.append_eq_nil_iff.mp h).1

/-- A payload that the voice may have shows no white space. -/
theorem Reports.not_showsBlankStep {py : Py} {result : Normalized}
    (hform : narrationForm? data = some (intent, stepIds))
    (hresult : normalizeHumanizeResult (env.presenting presenters) data log = .ok result)
    (h : Reports py env log stepIds result) : ∀ stepId ∈ stepIds, ¬ ShowsBlankStep presenters log stepId := by
  rw [normalizeHumanizeResult_of_form env presenters log hform] at hresult
  by_cases hsilent : stepIds.filterMap (Prod.fst ∘ told env presenters log) = []
  · exact not_showsBlankStep_of_silent hsilent
  · rw [if_neg hsilent] at hresult
    have hvalid := h.accepted _ (Except.ok.inj hresult).symm
    rw [validatePayload_eq_nil_iff (narrationForm?_some hform).1 (entries_ne_nil hsilent)] at hvalid
    exact entries_speak_iff.mp hvalid

/-- When no step shows white space, the normaliser owes nothing. -/
theorem reports_of_not_showsBlankStep (py : Py)
    (hform : narrationForm? data = some (intent, stepIds)) (h : ∀ stepId ∈ stepIds, ¬ ShowsBlankStep presenters log stepId) :
    ∃ result, normalizeHumanizeResult (env.presenting presenters) data log = .ok result ∧ Reports py env log stepIds result := by
  have hentry : (log.steps.map (·.stepId)).Nodup → ∀ step ∈ log.steps, step.stepId ∈ stepIds → RanAndFailed env step →
      ∃ summary, (summary, "error") ∈ stepIds.filterMap (Prod.fst ∘ told env presenters log) := by
    intro hnodup step hstep hstepId hfailed
    obtain ⟨summary, hsummary⟩ := @told_of_ranAndFailed _ presenters _ _ _ (byStepId_of_mem hnodup hstep) hfailed
    exact ⟨summary, List.mem_filterMap.mpr ⟨_, hstepId, hsummary⟩⟩
  rw [normalizeHumanizeResult_of_form env presenters log hform]
  by_cases hsilent : stepIds.filterMap (Prod.fst ∘ told env presenters log) = []
  · rw [if_pos hsilent]
    refine ⟨_, rfl, Normalized.noConfusion, fun _ => Normalized.noConfusion, ?_⟩
    intro hnodup step hstep hstepId hfailed
    obtain ⟨summary, hsummary⟩ := hentry hnodup step hstep hstepId hfailed
    rw [hsilent] at hsummary
    cases hsummary
  · rw [if_neg hsilent]
    refine ⟨_, rfl, Normalized.noConfusion, ?_, ?_⟩
    · rintro payload hpayload
      cases hpayload
      exact (validatePayload_eq_nil_iff (narrationForm?_some hform).1 (entries_ne_nil hsilent)).mpr (entries_speak_iff.mpr h)
    · intro hnodup step hstep hstepId hfailed
      obtain ⟨summary, hsummary⟩ := hentry hnodup step hstep hstepId hfailed
      rw [← List.filterMap_map] at hsummary
      exact ⟨_, _, summary, rfl, rfl, List.mem_map_of_mem (List.mem_append_left _ hsummary)⟩

/-- **The normaliser keeps the contract**, for a payload that the plan may have, exactly when no step that is named and
is ok shows a text of white space. -/
theorem normalizeHumanizeResult_reports_iff {py : Py} {data : Dict}
    (haccepted : validateHumanizeResultPayload py data true = []) (hform : namedSteps data ≠ []) :
    (∃ result, normalizeHumanizeResult (env.presenting presenters) data log = .ok result ∧
      Reports py env log (namedSteps data) result) ↔ ∀ stepId ∈ namedSteps data, ¬ ShowsBlankStep presenters log stepId := by
  obtain ⟨intent, hnarration⟩ := narrationForm?_of_accepted haccepted hform
  constructor
  · rintro ⟨result, hresult, hreports⟩
    exact hreports.not_showsBlankStep hnarration hresult
  · exact reports_of_not_showsBlankStep py hnarration

end Normaliser

/-! ### A memory of white space -/

def plainPresenters : PresenterEnv where
  py := Py.ascii
  displayFieldMap _ _ := none
  breakdownPhrase _ _ := ⟨breakdownPool.head (List.cons_ne_nil _ _), List.head_mem _⟩

def plainComposer : ComposeEnv where
  py := Py.ascii
  render id _ := .ok id
  snapshotHash := "v1"
  llmSnapshotHash := "v1"
  renderDisplayText _ _ _ := .ok ""
  renderExecutionFailure _ _ _ := .ok ""
  isKnownDomainStatus _ status := status = "recalled"
  breakdownPool := breakdownPool

/-- What the planner asks to be told of one step. -/
def recallNarration : Dict := [("intent", .str "recall"), ("actions", .list [.dict [("step_id", .str "s1")]])]

/-- A recall with one hit. -/
def recallStep (content : String) : StepResult where
  stepId := "s1"
  tool := "recall_memory"
  status := .ok
  parsedOutput := some [("status", .str "recalled"), ("hits", .list [.dict [
    ("content", .str content), ("source", .str "memory:core"), ("score", .float (1 / 2)), ("metadata", .dict [])]])]

def recallLog (content : String) : ExecutionLog := { steps := [recallStep content], outcome := .completed }

theorem recallNarration_accepted : validateHumanizeResultPayload Py.ascii recallNarration true = [] := by decide

theorem recallNarration_namedSteps : namedSteps recallNarration = ["s1"] := by decide

/-- The text of a recall is the content of its hit. -/
theorem recall_shown (content : String) (mapping : Dict) (h : (recallStep content).parsedOutput = some mapping) :
    shownValue? plainPresenters "recall_memory" mapping "recalled" = some (.str content) := by
  have htool : isConfirmTool "recall_memory" = false := by decide
  have htext : presentRecallMemory plainPresenters mapping = .str (String.ofList (['\n'].intercalate [content.toList])) := by
    cases h
    rfl
  rw [shownValue?, htool, htext, List.intercalate_singleton, String.ofList_toList]
  rfl

/-- A memory of a word is reported. -/
theorem recall_of_word : ∃ result,
    normalizeHumanizeResult (plainComposer.presenting plainPresenters) recallNarration (recallLog "milk") = .ok result ∧
      Reports Py.ascii plainComposer (recallLog "milk") (namedSteps recallNarration) result := by
  refine (normalizeHumanizeResult_reports_iff recallNarration_accepted (by rw [recallNarration_namedSteps]; decide)).mpr ?_
  rw [recallNarration_namedSteps]
  rintro stepId hstepId ⟨step, hstep, -, mapping, value, length, hmapping, hvalue, hlength, -⟩
  obtain rfl := List.mem_singleton.mp hstepId
  cases hstep
  have hstatus : statusOf (recallStep "milk").parsedOutput = "recalled" := by decide
  rw [hstatus, show (recallStep "milk").tool = "recall_memory" from rfl, recall_shown "milk" mapping hmapping] at hvalue
  cases hvalue
  have hword : whitespace? plainPresenters.py (.str "milk") = none := by decide
  rw [hword] at hlength
  cases hlength

/-- The memory is one blank, and the voice refuses it. -/
theorem recall_of_blank : ¬ ∀ (py : Py) (env : ComposeEnv) (presenters : PresenterEnv) (data : Dict) (log : ExecutionLog),
    validateHumanizeResultPayload py data true = [] → namedSteps data ≠ [] →
      ∃ result, normalizeHumanizeResult (env.presenting presenters) data log = .ok result ∧
        Reports py env log (namedSteps data) result := by
  intro hall
  obtain ⟨result, hresult, hreports⟩ := hall Py.ascii plainComposer plainPresenters recallNarration (recallLog " ")
    recallNarration_accepted (by rw [recallNarration_namedSteps]; decide)
  have hform : narrationForm? recallNarration = some ("recall", namedSteps recallNarration) := by decide
  have hblank : ShowsBlankStep plainPresenters (recallLog " ") "s1" := by
    have hstatus : statusOf (recallStep " ").parsedOutput = "recalled" := by decide
    refine ⟨recallStep " ", rfl, rfl, _, .str " ", 1, rfl, ?_, by decide, by decide, by decide⟩
    rw [hstatus]
    exact recall_shown " " _ rfl
  refine hreports.not_showsBlankStep hform hresult "s1" ?_ hblank
  rw [recallNarration_namedSteps]
  exact List.mem_singleton_self _

end Sreda.Planner
