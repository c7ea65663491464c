import Sreda.Lib.PyText
import Sreda.Lib.Replay
import Sreda.React.Messages

/-!
# The tools of the ReAct loop

What a tool does when `run_tools` invokes it: the stored data it reads and changes, the
question it puts, and the text it returns. Four kinds of tools occur.

* `cancel_reminder`, `cancel_task` and `delete_task` ask for a confirmation themselves.
* `_confirm_wrap` and `_generic_confirm_wrap` put a confirmation before another tool.
* `ask_human` only asks.
* Every other tool asks nothing.

A write is made safe against being executed again in one of three ways, or not at all
(`Inner`): its result is stored under its operation id (`_idempotent_write`, and the same
for the memory tools), or the tool looks first whether there is anything left to do, or it
does what it does again.

The hash of an operation id is identified with what is hashed. The arguments' `hmac`, the
audit trail, and the branches for a call outside a turn (`handle_turn` always mints a
`turn_key`) are left out. The database part that only wrapped and other tools touch is the
type `ρ`.
-/

namespace Sreda.React

open Sreda.Lib Sreda.Lib.Replay
open Sreda.Planner (Dict Value)

universe u

/-! ### Stored data -/

/-- A row of `family_reminders`; `triggerAt` is the text `_fmt` shows for it. -/
structure FamilyReminder where
  id : String
  tenantId : String
  userId : String
  title : String
  triggerAt : String
  status : String
deriving DecidableEq

/-- A row of `tasks`. -/
structure Task where
  id : String
  tenantId : String
  userId : String
  title : String
  status : String
  reminderId : Option String
deriving DecidableEq

/-- `compute_operation_id_update` and `allocate_operation_id`, by what they hash. -/
structure OperationId where
  executionId : String
  stepId : String
  action : String
  entityType : String
  entityId : String
deriving DecidableEq

/-- The data of the user. -/
structure UserData (ρ : Type u) where
  reminders : List FamilyReminder
  tasks : List Task
  rest : ρ

/-- What is stored: the data of the user, and the committed rows of `tool_operations` with
their `stable_return_payload`. -/
structure Database (ρ : Type u) where
  data : UserData ρ
  results : List (OperationId × String)

/-- The part of `ToolRuntimeContext` the tools read. -/
structure ToolRuntimeContext where
  executionId : String
  stepId : String
  toolName : String
  tenantId : String
  userId : String

/-- The value of an `interrupt`: a confirmation with its key, or the text of `ask_human`. -/
inductive Question where
  | confirm (text key : String)
  | text (question : String)
deriving DecidableEq

/-- What a tool returns: its text, or the type of the exception it raised. -/
abbrev Outcome := Except String String

variable {ρ : Type u}

/-- The text argument under a name. -/
def textArg (args : Dict) (name : String) : String :=
  match args.lookup name with
  | some (.str text) => text
  | _ => ""

/-! ### Confirmations -/

/-- `_YES`. -/
def yesWords : List (List Char) :=
  ["да", "ага", "угу", "подтверждаю", "yes", "верно", "точно"].map String.toList

/-- `_is_yes`. -/
def isYes (text : String) : Bool :=
  let t := PyText.rstripWhile (fun c => c == '!' || c == '.') (PyText.lower (PyText.strip text.toList))
  yesWords.any fun y => t == y || (y ++ [' ']).isPrefixOf t

/-! ### Durable operations -/

/-- `execute_idempotent_durable_op`: a stored result is returned, else the mutation runs and
its payload is stored with it; an exception takes both back. -/
def executeIdempotentDurableOp (op : OperationId) (mutate : UserData ρ → Except String (UserData ρ × String))
    (db : Database ρ) : Database ρ × Outcome :=
  match db.results.lookup op with
  | some payload => (db, .ok payload)
  | none =>
    match mutate db.data with
    | .ok (data, payload) => (⟨data, (op, payload) :: db.results⟩, .ok payload)
    | .error type => (db, .error type)

/-- `compute_operation_id_update`. -/
def operationIdUpdate (cx : ToolRuntimeContext) (action entityType entityId : String) : OperationId :=
  ⟨cx.executionId, cx.stepId, action, entityType, entityId⟩

/-- `_replay_done`. -/
def replayDone (cx : ToolRuntimeContext) (action entityType entityId : String) (db : Database ρ) : Option String :=
  db.results.lookup (operationIdUpdate cx action entityType entityId)

/-- `_idempotent_write`. -/
def idempotentWrite (cx : ToolRuntimeContext) (action entityType entityId : String)
    (mutate : UserData ρ → UserData ρ × String) (db : Database ρ) : Database ρ × Outcome :=
  executeIdempotentDurableOp (operationIdUpdate cx action entityType entityId) (fun data => .ok (mutate data)) db

/-! ### The tools that ask for a confirmation themselves -/

/-- A tool at the data it meets: it ends, or asks and goes on with the answer. -/
abbrev ToolMove (ρ : Type u) := Move (Database ρ) Question String Outcome

/-- `session.get(FamilyReminder, ref)`. -/
def UserData.reminder? (data : UserData ρ) (ref : String) : Option FamilyReminder :=
  data.reminders.find? (·.id = ref)

/-- `TaskService._get`. -/
def UserData.task? (data : UserData ρ) (cx : ToolRuntimeContext) (ref : String) : Option Task :=
  data.tasks.find? fun t => t.id = ref ∧ t.tenantId = cx.tenantId ∧ t.userId = cx.userId

/-- Set the status of the reminder with this id. -/
def UserData.setReminderStatus (data : UserData ρ) (ref status : String) : UserData ρ :=
  { data with reminders := data.reminders.map fun r => if r.id = ref then { r with status := status } else r }

/-- `HousewifeReminderService.cancel`, for the reminder of a task. -/
def UserData.cancelReminderOf (data : UserData ρ) (tenantId : String) : Option String → UserData ρ
  | none => data
  | some ref =>
    { data with reminders := data.reminders.map fun r =>
        if r.id = ref ∧ r.tenantId = tenantId then { r with status := "cancelled" } else r }

/-- `cancel_reminder`. -/
def cancelReminder (cx : ToolRuntimeContext) (args : Dict) (db : Database ρ) : ToolMove ρ :=
  let ref := textArg args "reminder_ref"
  match replayDone cx "cancel" "family_reminder" ref db with
  | some payload => .finish db (.ok payload)
  | none =>
    match db.data.reminder? ref with
    | none => .finish db (.ok "Такого напоминания у тебя нет.")
    | some r =>
      if r.tenantId ≠ cx.tenantId ∨ r.userId ≠ cx.userId then .finish db (.ok "Такого напоминания у тебя нет.")
      else if r.status ≠ "pending" then .finish db (.ok ("Напоминание «" ++ r.title ++ "» уже неактивно."))
      else
        .ask (.confirm ("Я сейчас удалю напоминание «" ++ r.title ++ " — " ++ r.triggerAt ++
            "». Нужно твоё подтверждение.") ("reminder:" ++ ref ++ ":cancel"))
          fun decision =>
            if isYes decision then
              idempotentWrite cx "cancel" "family_reminder" ref
                (fun data => (data.setReminderStatus ref "cancelled", "Готово, удалила «" ++ r.title ++ "».")) db
            else (db, .ok ("Хорошо, не удаляю «" ++ r.title ++ "». Скажи, какое тогда."))

/-- `_task_confirm_verb`. -/
def taskConfirmVerb : String → String
  | "отменяю" => "отменю"
  | "удаляю" => "удалю"
  | verb => verb

/-- `_confirm_destructive_task`. -/
def confirmDestructiveTask (cx : ToolRuntimeContext) (ref verb action : String)
    (apply : Task → UserData ρ → UserData ρ) (db : Database ρ) : ToolMove ρ :=
  match replayDone cx action "task" ref db with
  | some payload => .finish db (.ok payload)
  | none =>
    match db.data.task? cx ref with
    | none => .finish db (.ok "Такой задачи у тебя нет.")
    | some t =>
      .ask (.confirm ("Я сейчас " ++ taskConfirmVerb verb ++ " задачу «" ++ t.title ++
          "». Нужно твоё подтверждение.") ("task:" ++ ref ++ ":" ++ verb))
        fun decision =>
          if isYes decision then
            idempotentWrite cx action "task" ref
              (fun data => (apply t data, "Готово, " ++ verb ++ ": «" ++ t.title ++ "».")) db
          else (db, .ok ("Хорошо, не трогаю «" ++ t.title ++ "»."))

/-- The row is the task `t`. -/
def Task.is (t row : Task) : Prop := row.id = t.id ∧ row.tenantId = t.tenantId ∧ row.userId = t.userId

instance (t row : Task) : Decidable (t.is row) := by unfold Task.is; infer_instance

/-- `TaskService.cancel` on the row of `t`. -/
def UserData.cancelTask (t : Task) (data : UserData ρ) : UserData ρ :=
  let data := data.cancelReminderOf t.tenantId t.reminderId
  { data with tasks := data.tasks.map fun row =>
      if Task.is t row then { row with status := "cancelled", reminderId := none } else row }

/-- `TaskService.delete` on the row of `t`. -/
def UserData.deleteTask (t : Task) (data : UserData ρ) : UserData ρ :=
  let data := data.cancelReminderOf t.tenantId t.reminderId
  { data with tasks := data.tasks.filter fun row => ¬ t.is row }

/-- `cancel_task`. -/
def cancelTask (cx : ToolRuntimeContext) (args : Dict) (db : Database ρ) : ToolMove ρ :=
  let ref := textArg args "task_ref"
  match replayDone cx "cancel" "task" ref db with
  | some payload => .finish db (.ok payload)
  | none =>
    match db.data.task? cx ref with
    | some t =>
      if t.status = "cancelled" then .finish db (.ok ("Задача «" ++ t.title ++ "» уже отменена."))
      else confirmDestructiveTask cx ref "отменяю" "cancel" UserData.cancelTask db
    | none => confirmDestructiveTask cx ref "отменяю" "cancel" UserData.cancelTask db

/-- `delete_task`. -/
def deleteTask (cx : ToolRuntimeContext) (args : Dict) (db : Database ρ) : ToolMove ρ :=
  confirmDestructiveTask cx (textArg args "task_ref") "удаляю" "delete" UserData.deleteTask db

/-! ### The other tools -/

/-- A tool that asks nothing, by what it does when it is executed again. -/
inductive Inner (ρ : Type u) where
  /-- Its result is stored under its operation id: `update_reminder` and `update_task`
  (`_idempotent_write`), the memory tools (`_idem_write`). `invalid` is the check of the
  arguments that comes before. -/
  | durable (invalid : Dict → Option String) (operation : ToolRuntimeContext → Dict → OperationId)
      (mutate : Dict → UserData ρ → Except String (UserData ρ × String))
  /-- It looks first whether there is anything left to do, and says so: a row under its
  operation id, a task already completed, an item already bought. Else it acts. -/
  | checked (settled : ToolRuntimeContext → Dict → UserData ρ → Option String)
      (act : ToolRuntimeContext → Dict → UserData ρ → UserData ρ × Outcome)
  /-- It acts every time: the readers, and `web_search` with its quota. -/
  | plain (act : Dict → UserData ρ → UserData ρ × Outcome)

/-- `inner.invoke(args)`. -/
def Inner.invoke (cx : ToolRuntimeContext) (args : Dict) (db : Database ρ) : Inner ρ → Database ρ × Outcome
  | .durable invalid operation mutate =>
    match invalid args with
    | some text => (db, .ok text)
    | none => executeIdempotentDurableOp (operation cx args) (mutate args) db
  | .checked settled act =>
    match settled cx args db.data with
    | some text => (db, .ok text)
    | none => ({ db with data := (act cx args db.data).1 }, (act cx args db.data).2)
  | .plain act => ({ db with data := (act args db.data).1 }, (act args db.data).2)

/-- A tool as it is bound in a turn. -/
inductive Tool (ρ : Type u) where
  | cancelReminder
  | cancelTask
  | deleteTask
  /-- `_confirm_wrap` and `_generic_confirm_wrap`. `refused` is the text of a call that is
  turned away before the question (a schedule that cannot be shown to the user). -/
  | confirmWrap (refused : Dict → UserData ρ → Option String) (question : Dict → UserData ρ → String)
      (key : Dict → String) (declined : String) (inner : Inner ρ)
  | askHuman
  | other (inner : Inner ρ)

/-- `tool_obj.invoke(tc_args)`. -/
def Tool.invoke (cx : ToolRuntimeContext) (args : Dict) (db : Database ρ) : Tool ρ → ToolMove ρ
  | .cancelReminder => React.cancelReminder cx args db
  | .cancelTask => React.cancelTask cx args db
  | .deleteTask => React.deleteTask cx args db
  | .confirmWrap refused question key declined inner =>
    match refused args db.data with
    | some text => .finish db (.ok text)
    | none =>
      .ask (.confirm (question args db.data) (key args)) fun decision =>
        if isYes decision then inner.invoke cx args db else (db, .ok declined)
  | .askHuman => .ask (.text (textArg args "question")) fun answer => (db, .ok answer)
  | .other inner => .finish (inner.invoke cx args db).1 (inner.invoke cx args db).2

/-! ### What a durable operation does -/

/-- **Exact replay**: the result of an operation, once stored, is returned from then on and
nothing is changed. -/
theorem executeIdempotentDurableOp_replay {op : OperationId} {payload : String} {db : Database ρ}
    (mutate : UserData ρ → Except String (UserData ρ × String)) (h : db.results.lookup op = some payload) :
    executeIdempotentDurableOp op mutate db = (db, .ok payload) := by
  simp [executeIdempotentDurableOp, h]

/-- Either nothing changes, or the mutation ran and its payload is stored. -/
theorem executeIdempotentDurableOp_cases (op : OperationId)
    (mutate : UserData ρ → Except String (UserData ρ × String)) (db : Database ρ) :
    (executeIdempotentDurableOp op mutate db).1 = db ∨
      ∃ data payload, db.results.lookup op = none ∧ mutate db.data = .ok (data, payload) ∧
        executeIdempotentDurableOp op mutate db = (⟨data, (op, payload) :: db.results⟩, .ok payload) := by
  unfold executeIdempotentDurableOp
  cases hl : db.results.lookup op with
  | some payload => exact .inl rfl
  | none =>
    cases hm : mutate db.data with
    | error type => exact .inl rfl
    | ok pair => exact .inr ⟨pair.1, pair.2, rfl, rfl, rfl⟩

variable {cx : ToolRuntimeContext} {data : UserData ρ} {ref : String}

theorem idempotentWrite_fresh {action entityType entityId : String}
    {mutate : UserData ρ → UserData ρ × String} {db : Database ρ}
    (h : replayDone cx action entityType entityId db = none) :
    idempotentWrite cx action entityType entityId mutate db =
      (⟨(mutate db.data).1, (operationIdUpdate cx action entityType entityId, (mutate db.data).2) :: db.results⟩,
        .ok (mutate db.data).2) := by
  unfold replayDone at h
  simp [idempotentWrite, executeIdempotentDurableOp, h]

/-! ### A confirmed tool acts on a yes only -/

/-- Each of its moves leaves the data alone before the question and on an answer other than
yes; on a yes it does what `carried` says. -/
def AsksFirst (carried : Database ρ → Database ρ → Outcome → Prop) (db : Database ρ) : ToolMove ρ → Prop
  | .finish db' _ => db' = db
  | .ask _ answered => ∀ a, (isYes a = true → carried db (answered a).1 (answered a).2) ∧
      (isYes a = false → (answered a).1 = db)

/-- The tool destroys data after a confirmation of its own. -/
def Tool.destructive : Tool ρ → Bool
  | .cancelReminder | .cancelTask | .deleteTask | .confirmWrap .. => true
  | .askHuman | .other _ => false

/-- What the tool does on a yes: the tools with a confirmation of their own change the data
of the user, a wrapped tool is invoked. -/
def Tool.Carried (cx : ToolRuntimeContext) (args : Dict) (before after : Database ρ) (outcome : Outcome) :
    Tool ρ → Prop
  | .cancelReminder | .cancelTask | .deleteTask => after.data ≠ before.data
  | .confirmWrap _ _ _ _ inner => (after, outcome) = inner.invoke cx args before
  | .askHuman | .other _ => False

private theorem map_ne_of_mem {α : Type*} {f : α → α} {xs : List α} {x : α} (hm : x ∈ xs) (hx : f x ≠ x) :
    xs.map f ≠ xs := by
  intro h
  obtain ⟨i, hi⟩ := List.mem_iff_getElem?.mp hm
  have := congrArg (·[i]?) h
  simp only [List.getElem?_map, hi, Option.map_some, Option.some.injEq] at this
  exact hx this

theorem setReminderStatus_ne {r : FamilyReminder} (h : data.reminder? ref = some r) (hs : r.status = "pending") :
    data.setReminderStatus ref "cancelled" ≠ data := by
  have hid : r.id = ref := by simpa using List.find?_some h
  intro hdata
  refine map_ne_of_mem (x := r) (List.mem_of_find?_eq_some h) ?_ (congrArg UserData.reminders hdata)
  rw [if_pos hid]
  intro he
  have := congrArg FamilyReminder.status he
  rw [hs] at this
  simp at this

theorem cancelReminder_asksFirst (cx : ToolRuntimeContext) (args : Dict) (db : Database ρ) :
    AsksFirst (fun before after _ => after.data ≠ before.data) db (cancelReminder cx args db) := by
  cases hd : replayDone cx "cancel" "family_reminder" (textArg args "reminder_ref") db with
  | some payload => simp only [cancelReminder, hd, AsksFirst]
  | none =>
    cases hr : db.data.reminder? (textArg args "reminder_ref") with
    | none => simp only [cancelReminder, hd, hr, AsksFirst]
    | some r =>
      by_cases ho : r.tenantId ≠ cx.tenantId ∨ r.userId ≠ cx.userId
      · simp only [cancelReminder, hd, hr, if_pos ho, AsksFirst]
      · by_cases hs : r.status = "pending"
        · simp only [cancelReminder, hd, hr, if_neg ho, hs, ne_eq, not_true_eq_false, ↓reduceIte, AsksFirst]
          intro a
          refine ⟨fun hy => ?_, fun hn => by simp [hn]⟩
          simp only [hy, ↓reduceIte, idempotentWrite_fresh hd]
          exact setReminderStatus_ne hr hs
        · simp only [cancelReminder, hd, hr, if_neg ho, ne_eq, hs, not_false_eq_true, ↓reduceIte, AsksFirst]

theorem confirmDestructiveTask_asksFirst (cx : ToolRuntimeContext) (ref verb action : String)
    (apply : Task → UserData ρ → UserData ρ) (db : Database ρ)
    (happly : ∀ t, db.data.task? cx ref = some t → apply t db.data ≠ db.data) :
    AsksFirst (fun before after _ => after.data ≠ before.data) db
      (confirmDestructiveTask cx ref verb action apply db) := by
  cases hd : replayDone cx action "task" ref db with
  | some payload => simp only [confirmDestructiveTask, hd, AsksFirst]
  | none =>
    cases ht : db.data.task? cx ref with
    | none => simp only [confirmDestructiveTask, hd, ht, AsksFirst]
    | some t =>
      simp only [confirmDestructiveTask, hd, ht, AsksFirst]
      intro a
      refine ⟨fun hy => ?_, fun hn => by simp [hn]⟩
      simp only [hy, ↓reduceIte, idempotentWrite_fresh hd]
      exact happly t ht

theorem task?_is {t : Task} (h : data.task? cx ref = some t) : t ∈ data.tasks ∧ t.is t :=
  ⟨List.mem_of_find?_eq_some h, rfl, rfl, rfl⟩

@[simp] theorem cancelReminderOf_tasks (data : UserData ρ) (tenantId : String) (ref : Option String) :
    (data.cancelReminderOf tenantId ref).tasks = data.tasks := by
  cases ref <;> rfl

theorem UserData.cancelTask_ne {t : Task}
    (h : data.task? cx ref = some t) (hs : t.status ≠ "cancelled") : data.cancelTask t ≠ data := by
  intro he
  have htasks : (data.cancelTask t).tasks = data.tasks := congrArg UserData.tasks he
  refine map_ne_of_mem (task?_is h).1 ?_ (by simpa [UserData.cancelTask] using htasks)
  rw [if_pos (task?_is h).2]
  intro he'
  exact hs (congrArg Task.status he').symm

theorem UserData.deleteTask_ne {t : Task} (h : data.task? cx ref = some t) : data.deleteTask t ≠ data := by
  intro he
  have htasks : (data.deleteTask t).tasks = data.tasks := congrArg UserData.tasks he
  have hm : t ∈ (data.deleteTask t).tasks := htasks ▸ (task?_is h).1
  simp [UserData.deleteTask, (task?_is h).2] at hm

theorem cancelTask_asksFirst (cx : ToolRuntimeContext) (args : Dict) (db : Database ρ) :
    AsksFirst (fun before after _ => after.data ≠ before.data) db (cancelTask cx args db) := by
  cases hd : replayDone cx "cancel" "task" (textArg args "task_ref") db with
  | some payload => simp only [cancelTask, hd, AsksFirst]
  | none =>
    cases ht : db.data.task? cx (textArg args "task_ref") with
    | none =>
      simp only [cancelTask, hd, ht]
      exact confirmDestructiveTask_asksFirst cx _ _ _ _ db (by simp [ht])
    | some t =>
      by_cases hs : t.status = "cancelled"
      · simp only [cancelTask, hd, ht, if_pos hs, AsksFirst]
      · simp only [cancelTask, hd, ht, if_neg hs]
        refine confirmDestructiveTask_asksFirst cx _ _ _ _ db fun t' ht' => ?_
        obtain rfl : t = t' := Option.some.inj (ht.symm.trans ht')
        exact UserData.cancelTask_ne ht hs

theorem deleteTask_asksFirst (cx : ToolRuntimeContext) (args : Dict) (db : Database ρ) :
    AsksFirst (fun before after _ => after.data ≠ before.data) db (deleteTask cx args db) :=
  confirmDestructiveTask_asksFirst cx _ _ _ _ db fun _ ht => UserData.deleteTask_ne ht

/-- **A destructive tool acts on a yes only**, and on a yes it acts. -/
theorem Tool.invoke_asksFirst (tool : Tool ρ) (hd : tool.destructive = true) (cx : ToolRuntimeContext)
    (args : Dict) (db : Database ρ) :
    AsksFirst (fun before after outcome => tool.Carried cx args before after outcome) db
      (tool.invoke cx args db) := by
  cases tool with
  | cancelReminder => exact cancelReminder_asksFirst cx args db
  | cancelTask => exact cancelTask_asksFirst cx args db
  | deleteTask => exact deleteTask_asksFirst cx args db
  | confirmWrap refused question key declined inner =>
    simp only [Tool.invoke]
    cases refused args db.data with
    | some text => exact rfl
    | none =>
      intro a
      refine ⟨fun hy => ?_, fun hn => by simp [hn]⟩
      simp only [hy, ↓reduceIte, Tool.Carried, Prod.mk.eta]
  | askHuman => simp [Tool.destructive] at hd
  | other inner => simp [Tool.destructive] at hd

end Sreda.React
