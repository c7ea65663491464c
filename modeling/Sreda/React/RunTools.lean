import Sreda.React.Tools

/-!
# The tools node

`run_tools`: the calls of the last assistant message are taken in order, and every call
leaves one tool message. A call passes the gates first (a rewriting of old tool names, the
cross-check of checklist reads, the binding of checklist writes to a shown result, the time
and the end of a repetition that the user must have named, the cap on web searches), then
`need_family` is answered by the node itself, a tool that is not bound is answered with the
reason, and what is left is invoked. An exception of a tool becomes an error message.

The node is a program of calls in the sense of `Sreda.Lib.Replay`: the tool messages of a
paused execution are lost, and the whole node runs again when the answer is there.

What other modules decide is given in `Turn`: the verdicts of the checklist checks, whether
the user's words name a time, the tool metadata, and the tools that are bound.
-/

namespace Sreda.React

open Sreda.Lib Sreda.Lib.Replay
open Sreda.Planner (Dict Value Py)

universe u

/-- `_effective_intent`; `off` is the value `None`. -/
inductive Intent where
  | task | chat | fact | off
deriving DecidableEq

/-- `eff in ("chat", "fact")`. -/
def Intent.talk : Intent → Bool
  | .chat | .fact => true
  | .task | .off => false

/-- What `_checklist_cross_check` returns. -/
inductive CrossCheck where
  | redirect (args : Dict)
  | refuse (message kind : String)

/-- What an execution of the node reads besides the calls and the stored data. It is the
same in every execution of the node on one assistant message: it comes from the checkpoint
before the node and from the settings. -/
structure Turn (ρ : Type u) where
  py : Py
  turnKey : String
  tenantId : String
  userId : String
  intent : Intent
  /-- `state["unified_execute"]`. -/
  unified : Bool
  allowedRead : Option (List String)
  allowedWrite : Option (List String)
  /-- `_checklist_unified()`. -/
  checklistUnified : Bool
  /-- `_sliceB_213`. -/
  sliceB : Bool
  /-- `_checklist_cross_check` with the turn's query, if it is of high confidence. -/
  crossCheck : UserData ρ → String → Dict → Option CrossCheck
  /-- `_checklist_write_enforce` after the thread's messages: the results of this execution,
  the item, the source result and the number of pending reads. -/
  writeEnforce : List ToolMessage → String → String → ℕ → Option String
  /-- `text_mentions_time(_turn_time_window_text(state["messages"]))`. -/
  timeNamed : Bool
  /-- The two searches for `COUNT=` and `UNTIL=` in the rule. -/
  hasEnd : String → Bool
  /-- `_recurrence_end_already_asked(state["messages"])`. -/
  endAsked : Bool
  /-- `_count_executed_tool(state["messages"], name)`. -/
  executed : String → ℕ
  /-- `name in TOOL_OP_CLASS`. -/
  known : String → Bool
  readDomains : String → List String
  writeDomains : String → List String
  /-- `bound_by_name`, after the families that the batch asks for are loaded. -/
  bound : String → Option (Tool ρ)

/-- A call on its way through the gates: the name and the arguments it is dispatched with. -/
structure Request where
  name : String
  args : Dict

variable {ρ : Type u}

/-- A tool message for a call, with the name the model used. -/
def ToolCall.message (tc : ToolCall) (content kind : String) : ToolMessage where
  content := content
  name := tc.name
  toolCallId := tc.id
  isError := false
  resultKind := some kind

/-- The values Python takes for false. -/
def falsy : Value → Bool
  | .null | .bool false | .int 0 | .str "" | .list [] | .dict [] => true
  | .float q => q == 0
  | _ => false

/-- `str(args.get(name) or "")`. -/
def strArg (py : Py) (args : Dict) (name : String) : String :=
  match args.lookup name with
  | none => ""
  | some v => if falsy v then "" else v.toStr py

/-- `str(raw) if raw is not None else ""`. -/
def strOrEmpty (py : Py) : Option Value → String
  | none | some .null => ""
  | some v => v.toStr py

/-- `.strip()` on a text. -/
def stripText (text : String) : String := String.ofList (PyText.strip text.toList)

/-! ### The gates -/

/-- `_map_deprecated_checklist_args` and the mirror of it for a switched-off unification. -/
def canonicalise (t : Turn ρ) (tc : ToolCall) : Request :=
  if t.checklistUnified then
    match tc.name with
    | "show_checklist" =>
      ⟨"get_checklist", [("mode", .str "items"), ("name", .str (strOrEmpty t.py (tc.args.lookup "list_id_or_title")))]⟩
    | "list_checklists" => ⟨"get_checklist", [("mode", .str "overview")]⟩
    | name => ⟨name, tc.args⟩
  else if tc.name = "get_checklist" then
    match tc.args.lookup "mode" with
    | some (.str "overview") => ⟨"list_checklists", []⟩
    | _ => ⟨"show_checklist", [("list_id_or_title", .str (strArg t.py tc.args "name"))]⟩
  else ⟨tc.name, tc.args⟩

/-- The cross-check of a checklist read with the turn's query. -/
def crossChecked (t : Turn ρ) (db : Database ρ) (tc : ToolCall) (r : Request) : Except ToolMessage Request :=
  if r.name = "list_checklist_items" ∨ r.name = "get_checklist" then
    match t.crossCheck db.data r.name r.args with
    | none => .ok r
    | some (.redirect args) => .ok ⟨r.name, args⟩
    | some (.refuse message kind) => .error (tc.message message kind)
  else .ok r

/-- `_CHECKLIST_WRITE_ENFORCED_213`. -/
def checklistWrites : List String := ["mark_checklist_item_done", "delete_checklist_item", "update_checklist_item"]

/-- `_is_items_read_call_213`. -/
def isItemsReadCall (tc : ToolCall) : Bool :=
  tc.name == "show_checklist" ||
    (tc.name == "get_checklist" && match tc.args.lookup "mode" with
      | some (.str "items") => true
      | _ => false)

/-- The reads of the batch that have no tool message yet. -/
def pendingReads (batch : List ToolCall) (out : List ToolMessage) : ℕ :=
  (((batch.filter isItemsReadCall).map (·.id)).dedup.filter fun id => ¬ out.any (·.toolCallId == id)).length

/-- `source_result_id` is taken off the arguments, and the write is bound to a shown result. -/
def writeEnforced (t : Turn ρ) (batch : List ToolCall) (out : List ToolMessage) (tc : ToolCall) (r : Request) :
    Except ToolMessage Request :=
  if checklistWrites.contains r.name then
    let source := if t.checklistUnified then stripText (strArg t.py r.args "source_result_id") else ""
    let args := if t.checklistUnified then r.args.filter (fun kv => kv.1 ≠ "source_result_id") else r.args
    if t.sliceB then
      match t.writeEnforce out (strArg t.py args "item_id") source (pendingReads batch out) with
      | some message => .error (tc.message message "source_result_required")
      | none => .ok ⟨r.name, args⟩
    else .ok ⟨r.name, args⟩
  else .ok r

/-- A reminder at a certain moment needs a time that the user has named. -/
def timeGate (t : Turn ρ) (tc : ToolCall) (r : Request) : Except ToolMessage Request :=
  let needsTime := r.name = "schedule_reminder" ∨
    (r.name = "update_reminder" ∧ stripText (strArg t.py r.args "trigger_iso") ≠ "")
  if needsTime ∧ ¬ t.timeNamed then
    .error (tc.message
      "время не названо пользователем — НЕ выдумывай своё: спроси «во сколько?» одним коротким вопросом"
      "time_not_specified")
  else .ok r

/-- The end of a repetition is asked for once. -/
def recurrenceGate (t : Turn ρ) (tc : ToolCall) (r : Request) : Except ToolMessage Request :=
  let rule := stripText (strArg t.py r.args "recurrence_rule")
  if r.name = "schedule_reminder" ∧ rule ≠ "" ∧ ¬ t.hasEnd rule ∧ ¬ t.endAsked then
    .error (tc.message
      "конец повторения не назван — спроси одним коротким вопросом: «до какого времени повторять или сколько раз?», потом ставь с ;COUNT=N или ;UNTIL=…"
      "recurrence_end_not_specified")
  else .ok r

/-- `_SEARCH_CAPS`. -/
def searchCap : Intent → String → ℕ
  | .chat, "web_search" => 1
  | .chat, "fetch_url" => 2
  | .fact, "web_search" => 3
  | .fact, "fetch_url" => 3
  | _, _ => 1

/-- The cap on web calls in a talk turn: those of earlier passes and of this batch count. -/
def searchGate (t : Turn ρ) (out : List ToolMessage) (tc : ToolCall) (r : Request) : Except ToolMessage Request :=
  if t.intent.talk ∧ (r.name = "web_search" ∨ r.name = "fetch_url") ∧
      t.executed r.name + ((out.filter (·.name == r.name)).length + 1) > searchCap t.intent r.name then
    .error { tc.message "лимит поиска исчерпан, ответь из уже найденного" "search_limit" with name := r.name }
  else .ok r

/-- The gates in the order of the loop. -/
def gates (t : Turn ρ) (batch : List ToolCall) (out : List ToolMessage) (db : Database ρ) (tc : ToolCall) :
    Except ToolMessage Request := do
  let r ← crossChecked t db tc (canonicalise t tc)
  let r ← writeEnforced t batch out tc r
  let r ← timeGate t tc r
  let r ← recurrenceGate t tc r
  searchGate t out tc r

/-! ### Tools that are not there -/

/-- `_LAZY_FAMILIES`. -/
def lazyFamilies : List String := ["checklists", "household", "memory", "menu", "recipes", "shopping", "web"]

/-- `_TOOL_NAME_ALIASES`. -/
def toolNameAlias : String → String
  | "link_task" => "link_task_to_checklist"
  | name => name

/-- What `_tool_unavailable_reason` returns. -/
inductive Unavailable where
  | unknownTool | unknownFamily | domainBlocked | familyNotLoaded | available
deriving DecidableEq

/-- `xs <= set(allowed or ())`. -/
def within (xs : List String) (allowed : Option (List String)) : Bool :=
  xs.all fun x => (allowed.getD []).contains x

/-- `_tool_unavailable_reason`. -/
def toolUnavailableReason (t : Turn ρ) (name : String) (args : Dict) : Unavailable :=
  if name = "need_family" then
    match args.lookup "family" with
    | some (.str family) =>
      if ¬ lazyFamilies.contains family then .unknownFamily
      else if t.allowedRead = none ∧ t.allowedWrite = none then .available
      else if t.unified then .available
      else if ¬ (t.allowedRead.getD []).contains family ∧ ¬ (t.allowedWrite.getD []).contains family then
        .domainBlocked
      else .available
    | _ => .unknownFamily
  else if ¬ t.known (toolNameAlias name) then .unknownTool
  else if t.allowedRead = none ∧ t.allowedWrite = none then .familyNotLoaded
  else if ¬ within (t.readDomains (toolNameAlias name)) t.allowedRead then .domainBlocked
  else if ¬ within (t.writeDomains (toolNameAlias name)) t.allowedWrite then .domainBlocked
  else .familyNotLoaded

/-- `", ".join(sorted(set(read) | set(write))) or "—"`. -/
def availableDomains (t : Turn ρ) : String :=
  match ((t.allowedRead.getD [] ++ t.allowedWrite.getD []).dedup.insertionSort (· ≤ ·)) with
  | [] => "—"
  | names => ", ".intercalate names

/-- `need_family`, answered by the node. -/
def needFamily (t : Turn ρ) (tc : ToolCall) : ToolMessage :=
  let family := ((tc.args.lookup "family").getD .null).toStr t.py
  match toolUnavailableReason t "need_family" tc.args with
  | .domainBlocked =>
    tc.message ("Раздел «" ++ family ++ "» не относится к этому запросу (он про: " ++ availableDomains t ++
      "). Если цель в другом разделе — уточни у пользователя.") "domain_blocked"
  | .unknownFamily =>
    tc.message ("Семья «" ++ family ++ "» неизвестна. Доступные для добора: " ++
      ", ".intercalate lazyFamilies ++ ".") "unknown_family"
  | _ => tc.message ("Семья «" ++ family ++ "» загружена.") "ok"

/-- The message for a tool that is not bound. -/
def unavailable (t : Turn ρ) (tc : ToolCall) (name : String) : ToolMessage :=
  match toolUnavailableReason t name tc.args with
  | .domainBlocked =>
    tc.message
      (if t.unified then
        "Инструмент " ++ name ++ " НЕ подходит к этому ходу (доступно про: " ++ availableDomains t ++
          "). НЕ зови " ++ name ++ " снова в этом ходу. Если это обычный разговор или вопрос не про эти разделы" ++
          " — просто ответь по существу словами, без инструментов. Если правда нужен другой раздел — уточни" ++
          " ОДНИМ коротким вопросом."
      else
        "Инструмент " ++ name ++ " не относится к этому запросу (он про: " ++ availableDomains t ++
          "). need_family здесь не поможет. Если нужная цель в другом разделе — спроси у пользователя, что он" ++
          " имеет в виду.")
      "domain_blocked"
  | _ =>
    tc.message ("Инструмент " ++ name ++ " сейчас недоступен — сначала позови need_family нужной семьи.")
      "unavailable"

/-! ### The loop -/

/-- The context a tool is invoked in. -/
def Turn.context (t : Turn ρ) (tc : ToolCall) (name : String) : ToolRuntimeContext where
  executionId := t.turnKey
  stepId := tc.id
  toolName := name
  tenantId := t.tenantId
  userId := t.userId

/-- The tool message for what a tool returned or raised. -/
def ToolCall.result (tc : ToolCall) (name : String) : Outcome → ToolMessage
  | .ok text => tc.message text "ok"
  | .error _ =>
    { tc.message ("error: инструмент " ++ name ++ " не смог выполниться, повтори запрос.") "error" with
      isError := true }

/-- One turn of the loop: what becomes of a call. -/
def dispatch (t : Turn ρ) (batch : List ToolCall) (tc : ToolCall) : Call (Database ρ) Question String ToolMessage :=
  fun out db =>
    match gates t batch out db tc with
    | .error message => .finish db message
    | .ok r =>
      if r.name = "need_family" ∧ ¬ t.intent.talk then .finish db (needFamily t tc)
      else
        match t.bound r.name with
        | none => .finish db (unavailable t tc r.name)
        | some tool => (tool.invoke (t.context tc r.name) r.args db).mapResult (tc.result r.name)

/-- `run_tools` on the calls of an assistant message. -/
def runTools (t : Turn ρ) (batch : List ToolCall) : List (Call (Database ρ) Question String ToolMessage) :=
  batch.map (dispatch t batch)

/-- The tool a call is dispatched to, if it gets so far. -/
def Dispatched (t : Turn ρ) (batch : List ToolCall) (out : List ToolMessage) (db : Database ρ) (tc : ToolCall)
    (r : Request) (tool : Tool ρ) : Prop :=
  gates t batch out db tc = .ok r ∧ ¬ (r.name = "need_family" ∧ ¬ t.intent.talk) ∧ t.bound r.name = some tool

/-! ### What one call does -/

variable {t : Turn ρ} {batch : List ToolCall} {out : List ToolMessage} {db : Database ρ} {tc : ToolCall}

theorem Dispatched.dispatch_eq {r : Request} {tool : Tool ρ} (h : Dispatched t batch out db tc r tool) :
    dispatch t batch tc out db = (tool.invoke (t.context tc r.name) r.args db).mapResult (tc.result r.name) := by
  obtain ⟨hg, hf, hb⟩ := h
  simp only [dispatch, hg, if_neg hf, hb]

/-- A call is answered by the node itself, or its tool is invoked. -/
theorem dispatch_cases (t : Turn ρ) (batch : List ToolCall) (tc : ToolCall) (out : List ToolMessage)
    (db : Database ρ) :
    (∃ message, dispatch t batch tc out db = .finish db message) ∨
      ∃ r tool, Dispatched t batch out db tc r tool ∧
        dispatch t batch tc out db =
          (tool.invoke (t.context tc r.name) r.args db).mapResult (tc.result r.name) := by
  unfold dispatch
  cases hg : gates t batch out db tc with
  | error message => exact .inl ⟨message, rfl⟩
  | ok r =>
    by_cases hf : r.name = "need_family" ∧ ¬ t.intent.talk
    · exact .inl ⟨needFamily t tc, by simp only [if_pos hf]⟩
    · cases hb : t.bound r.name with
      | none => exact .inl ⟨unavailable t tc r.name, by simp only [if_neg hf, hb]⟩
      | some tool => exact .inr ⟨r, tool, ⟨hg, hf, hb⟩, by simp only [if_neg hf, hb]⟩

@[simp] theorem ToolCall.result_toolCallId (tc : ToolCall) (name : String) (outcome : Outcome) :
    (tc.result name outcome).toolCallId = tc.id := by
  cases outcome <;> rfl

@[simp] theorem needFamily_toolCallId (t : Turn ρ) (tc : ToolCall) : (needFamily t tc).toolCallId = tc.id := by
  unfold needFamily
  split <;> rfl

@[simp] theorem unavailable_toolCallId (t : Turn ρ) (tc : ToolCall) (name : String) :
    (unavailable t tc name).toolCallId = tc.id := by
  unfold unavailable
  split <;> rfl

/-- A gate answers the call under its own id, or lets it pass under its own name. -/
def Gated (tc : ToolCall) (name : String) : Except ToolMessage Request → Prop
  | .error message => message.toolCallId = tc.id
  | .ok r => r.name = name

theorem Gated.bind {name : String} {x : Except ToolMessage Request}
    {f : Request → Except ToolMessage Request} (hx : Gated tc name x)
    (hf : ∀ r, Gated tc r.name (f r)) : Gated tc name (x >>= f) := by
  cases x with
  | error message => exact hx
  | ok r =>
    obtain rfl : r.name = name := hx
    exact hf r

theorem crossChecked_gated (t : Turn ρ) (db : Database ρ) (tc : ToolCall) (r : Request) :
    Gated tc r.name (crossChecked t db tc r) := by
  unfold crossChecked
  split
  · split <;> rfl
  · rfl

theorem writeEnforced_gated (t : Turn ρ) (batch : List ToolCall) (out : List ToolMessage) (tc : ToolCall)
    (r : Request) : Gated tc r.name (writeEnforced t batch out tc r) := by
  unfold writeEnforced
  split
  · dsimp only
    split
    · split <;> rfl
    · rfl
  · rfl

theorem timeGate_gated (t : Turn ρ) (tc : ToolCall) (r : Request) : Gated tc r.name (timeGate t tc r) := by
  unfold timeGate
  dsimp only
  split <;> rfl

theorem recurrenceGate_gated (t : Turn ρ) (tc : ToolCall) (r : Request) :
    Gated tc r.name (recurrenceGate t tc r) := by
  unfold recurrenceGate
  dsimp only
  split <;> rfl

theorem searchGate_gated (t : Turn ρ) (out : List ToolMessage) (tc : ToolCall) (r : Request) :
    Gated tc r.name (searchGate t out tc r) := by
  unfold searchGate
  split <;> rfl

theorem gates_gated (t : Turn ρ) (batch : List ToolCall) (out : List ToolMessage) (db : Database ρ)
    (tc : ToolCall) : Gated tc (canonicalise t tc).name (gates t batch out db tc) :=
  (crossChecked_gated t db tc _).bind fun r => (writeEnforced_gated t batch out tc r).bind fun r =>
    (timeGate_gated t tc r).bind fun r => (recurrenceGate_gated t tc r).bind fun r =>
      searchGate_gated t out tc r

theorem name_of_gates {r : Request} (h : gates t batch out db tc = .ok r) : r.name = (canonicalise t tc).name := by
  have := gates_gated t batch out db tc
  rwa [h] at this

/-- A call that a gate turns away is answered under its own id. -/
theorem gates_refusal {message : ToolMessage} (h : gates t batch out db tc = .error message) :
    message.toolCallId = tc.id := by
  have := gates_gated t batch out db tc
  rwa [h] at this

/-- Whatever becomes of a call, its tool message bears its id. -/
theorem dispatch_labelled (t : Turn ρ) (batch : List ToolCall) (tc : ToolCall) (out : List ToolMessage)
    (db : Database ρ) : (dispatch t batch tc out db).All fun _ message => message.toolCallId = tc.id := by
  unfold dispatch
  cases hg : gates t batch out db tc with
  | error message => exact gates_refusal hg
  | ok r =>
    simp only
    split
    · simp [Move.All]
    · cases t.bound r.name with
      | none => simp [Move.All]
      | some tool =>
        exact Move.all_mapResult.mpr (.of_forall (fun _ _ => ToolCall.result_toolCallId tc r.name _) _)

/-- **One tool message for each call**: the tool messages of an execution bear the ids of
the calls behind, in order. -/
theorem runTools_out {s : State (Database ρ) Question String ToolMessage}
    (h : OutLabels (·.toolCallId) (batch.map (·.id)) s) :
    OutLabels (·.toolCallId) (batch.map (·.id)) (s.call (runTools t batch)) := by
  refine out_labels_call h (by simp [runTools]) fun i c l hc hl out db => ?_
  simp only [runTools, List.getElem?_map, Option.map_eq_some_iff] at hc hl
  obtain ⟨tc, htc, rfl⟩ := hc
  obtain ⟨tc', htc', rfl⟩ := hl
  obtain rfl : tc = tc' := Option.some.inj (htc.symm.trans htc')
  exact dispatch_labelled t batch tc out db

end Sreda.React
