import Sreda.Services.Reminders

/-!
# Tasks and their reminders

`services/tasks.py`, `TaskService`: `add`, `update`, `complete`, `uncomplete`, `cancel`, `delete`,
`attach_reminder` and `detach_reminder` on the tasks of one user, with `schedule` and `cancel` of
`HousewifeReminderService`, which they call. Dates are days, times of day and instants microseconds.

Inside a turn `schedule` reuses a reminder: a pending one with the same semantic key, or the row that
the same operation has inserted. The keys of operations and the hashes of titles are parameters,
and so is the time zone of the user.

A call may raise. What was committed before stays; the rest is left in the session of the caller,
who may commit it later.

Left out: the checklists that a task may have, the audit, the embeddings.
-/

namespace Sreda.Services

open Sreda.Lib
open Sreda.Lib.PyText (Text strip)

/-! ### The tables -/

/-- The values of `Task.status`. -/
inductive TaskStatus where
  | pending | completed | cancelled
  deriving DecidableEq

/-- `Task`, of the user. -/
structure Task where
  id : String
  title : Text
  notes : Option Text := none
  scheduledDate : Option ℤ := none
  timeStart : Option ℤ := none
  timeEnd : Option ℤ := none
  recurrenceRule : Option String := none
  /-- The id of the linked reminder, which is never empty. -/
  reminderId : Option String := none
  reminderOffsetMinutes : Option ℤ := none
  status : TaskStatus := .pending
  completedAt : Option ℤ := none
  delegatedTo : Option Text := none
  createdAt : ℤ
  updatedAt : ℤ
  operationId : Option String := none
  normalizedTitleHash : Option String := none
  deriving DecidableEq

/-- The entry of a task in `uq_tasks_items_pending_semantic`. -/
def Task.pendingKey (task : Task) : Option String := if task.status = .pending then task.normalizedTitleHash else none

/-- The tasks of the user, and the reminders. -/
structure TaskDb where
  tasks : Indexed Task.id Task.pendingKey
  reminders : ReminderTable

/-- The tenant and the user. -/
structure TaskOwner where
  tenantId : String
  userId : String

/-- The keys that are made of what a call creates. -/
structure DedupKeys where
  /-- `compute_operation_id_create` of a reminder. -/
  reminderOperation : String → String → Text → ℤ → Option String → String
  /-- `compute_normalized_title_hash` of a reminder. -/
  reminderHash : String → String → Text → ℤ → Option String → String
  /-- `compute_operation_id_create` of a task. -/
  taskOperation : String → String → Text → Option ℤ → Option ℤ → Option String → String
  /-- `compute_normalized_title_hash` of a task. -/
  taskHash : String → String → Text → ℤ → Option ℤ → Option String → String

/-- `ToolRuntimeContext`. -/
structure ToolRuntimeContext where
  executionId : String
  stepId : String
  tenantId : String

/-- What a call finds around it. -/
structure TaskEnv where
  now : ℤ
  /-- `current_tool_runtime()`. -/
  ctx : Option ToolRuntimeContext := none
  /-- From the wall clock of the user to UTC. -/
  toUtc : ℤ → ℤ := id
  /-- `TaskService._bot_key`. -/
  botKey : Option String := none

/-- What a call raises. -/
inductive TaskError where
  /-- `title required` -/
  | titleRequired
  /-- `add ctx path: user_id обязателен (fail-closed).`, and the same of `schedule` -/
  | userRequired
  /-- `ToolRuntimeContext leaked across a tenant boundary.` -/
  | tenantLeak
  /-- `task has no scheduled datetime — can't compute reminder trigger` -/
  | noScheduledDatetime
  /-- `rrulestr` raises. -/
  | invalidRule
  /-- A `ValueError` of `schedule`. -/
  | reminder (error : ReminderError)
  /-- `IntegrityError`. -/
  | integrity
  deriving DecidableEq

variable (R : RRule) (K : DedupKeys) (owner : TaskOwner) (env : TaskEnv)

/-! ### Reminders -/

/-- `find_existing_pending_semantic`. -/
def findExistingPendingSemantic (reminders : ReminderTable) (hash : String) : Option FamilyReminder :=
  reminders.rows.rows.find? fun row => row.pendingKey = some (owner.tenantId, owner.userId, hash)

/-- The row that the operation has inserted. -/
def findOperation (reminders : ReminderTable) (operationId : String) : Option FamilyReminder :=
  reminders.rows.rows.find? fun row =>
    row.tenantId = owner.tenantId ∧ row.userId = some owner.userId ∧ row.operationId = some operationId

/-- The reminder that `schedule` reuses. -/
def scheduleReuse (reminders : ReminderTable) (args : ScheduleArgs) : Option FamilyReminder :=
  env.ctx.bind fun ctx =>
    let hash := K.reminderHash owner.tenantId owner.userId (strip args.title) args.triggerAt args.recurrenceRule
    let operationId := K.reminderOperation ctx.executionId ctx.stepId (strip args.title) args.triggerAt args.recurrenceRule
    -- an empty hash stands for none
    ((truthy (some hash)).bind (findExistingPendingSemantic owner reminders)).or (findOperation owner reminders operationId)

/-- The guards of the path inside a turn. -/
def ctxGuards : Except TaskError Unit :=
  match env.ctx with
  | none => .ok ()
  | some ctx =>
    if owner.userId = "" then .error .userRequired
    else if ctx.tenantId ≠ "" ∧ ctx.tenantId ≠ owner.tenantId then .error .tenantLeak
    else .ok ()

/-- The row that `schedule` would insert, once its arguments pass. -/
def scheduleRow (id : String) (args : ScheduleArgs) : Except TaskError FamilyReminder :=
  match scheduledRow R env.now id args
      (env.ctx.map fun ctx =>
        K.reminderOperation ctx.executionId ctx.stepId (strip args.title) args.triggerAt args.recurrenceRule)
      (env.ctx.bind fun _ =>
        truthy (some (K.reminderHash owner.tenantId owner.userId (strip args.title) args.triggerAt args.recurrenceRule)))
  with
  | .error error => .error (.reminder error)
  | .ok row => (ctxGuards owner env).map fun _ => row

/-- The `INSERT`. -/
def insertReminder (reminders : ReminderTable) (row : FamilyReminder) : Option ReminderTable :=
  (reminders.rows.insert? row).bind Indexed.commit?

/-- `schedule`; `id` is the fresh one. -/
def schedule (id : String) (args : ScheduleArgs) (reminders : ReminderTable) :
    Except TaskError (FamilyReminder × ReminderTable) :=
  match scheduleRow R K owner env id args with
  | .error error => .error error
  | .ok row =>
    match scheduleReuse K owner env reminders args with
    | some existing => .ok (existing, reminders)
    | none => (insertReminder reminders row).elim (.error .integrity) fun reminders => .ok (row, reminders)

theorem pendingKey_cancel (now : ℤ) (tenantId : String) (row : FamilyReminder) :
    ((row.cancel now tenantId).getD row).pendingKey = none ∨ ((row.cancel now tenantId).getD row).pendingKey = row.pendingKey := by
  unfold FamilyReminder.cancel
  split
  · exact .inr rfl
  · exact .inl rfl

theorem id_cancel (now : ℤ) (tenantId : String) (row : FamilyReminder) : ((row.cancel now tenantId).getD row).id = row.id := by
  unfold FamilyReminder.cancel
  split <;> rfl

/-- `cancel` of a reminder. -/
def cancelReminder (reminders : ReminderTable) (id : String) : ReminderTable :=
  reminders.retire (·.id = id) (fun row => (row.cancel env.now owner.tenantId).getD row)
    (id_cancel env.now owner.tenantId) (pendingKey_cancel env.now owner.tenantId)

/-! ### Attaching a reminder -/

/-- `datetime.combine`. -/
def combine (date time : ℤ) : ℤ := date * 86400000000 + time

/-- The memo of a reminder that is created for a task. -/
def taskMemo (taskId : String) : String := "task:" ++ taskId

/-- The trigger that `_attach_reminder_inner` computes. The hours of a rule are UTC; its first
occurrence may be the start of the day itself. -/
def attachTrigger (task : Task) (date time offset : ℤ) : Except TaskError ℤ :=
  match truthy task.recurrenceRule with
  | none => .ok (env.toUtc (combine date time) - minutes offset)
  | some rule =>
    let anchor := combine date 0
    if R.valid rule anchor then .ok ((R.after rule anchor (anchor - 1)).getD (combine date time) - minutes offset)
    else .error .invalidRule

/-- What `_attach_reminder_inner` passes to `schedule`. -/
def attachArgs (task : Task) (trigger : ℤ) (botKey : Option String) : ScheduleArgs where
  tenantId := owner.tenantId
  userId := some owner.userId
  title := "⏰ ".toList ++ task.title
  triggerAt := trigger
  recurrenceRule := task.recurrenceRule
  sourceMemo := some (taskMemo task.id)
  botKey := botKey

/-- A change of one task that keeps its id and its entry in the index. -/
structure TaskChange where
  set : Task → Task
  id : ∀ task, (set task).id = task.id
  entry : ∀ task, (set task).pendingKey = none ∨ (set task).pendingKey = task.pendingKey

/-- The change is made to the task. -/
def TaskDb.modify (db : TaskDb) (taskId : String) (change : TaskChange) : TaskDb :=
  { db with tasks := db.tasks.retire (·.id = taskId) change.set change.id change.entry }

/-- The reminder is linked. -/
def linkReminder (now : ℤ) (reminderId : String) (offset : ℤ) : TaskChange where
  set task := { task with reminderId := some reminderId, reminderOffsetMinutes := some offset, updatedAt := now }
  id _ := rfl
  entry _ := .inr rfl

/-- `_attach_reminder_inner`; `reminderId` is the fresh one. -/
def attachReminderInner (db : TaskDb) (task : Task) (reminderId : String) (date time offset : ℤ)
    (botKey : Option String) : Except TaskError TaskDb :=
  match attachTrigger R env task date time offset with
  | .error error => .error error
  | .ok trigger =>
    match schedule R K owner env reminderId (attachArgs owner task trigger botKey) db.reminders with
    | .error error => .error error
    | .ok (reminder, reminders) =>
      .ok ({ db with reminders }.modify task.id (linkReminder env.now reminder.id offset))

/-! ### The operations -/

/-- How a call ends: what is committed, and what the session of the caller holds. -/
structure TaskResult where
  committed : TaskDb
  session : TaskDb
  raised : Option TaskError := none

/-- The call returns, and everything is committed. -/
def TaskResult.ok (db : TaskDb) : TaskResult := ⟨db, db, none⟩

/-- The call ends with `_attach_reminder_inner` and a commit; when that raises, `committed` stays. -/
def endWithAttach (committed db : TaskDb) (attached : Except TaskError TaskDb) : TaskResult :=
  match attached with
  | .error error => ⟨committed, db, some error⟩
  | .ok db => .ok db

/-- `(text or "").strip() or None`. -/
def stripOrNone (text : Option Text) : Option Text := (text.map strip).filter (· ≠ [])

/-- The arguments of `add`. -/
structure AddArgs where
  title : Text
  scheduledDate : Option ℤ := none
  timeStart : Option ℤ := none
  timeEnd : Option ℤ := none
  recurrenceRule : Option String := none
  notes : Option Text := none
  delegatedTo : Option Text := none
  reminderOffsetMinutes : Option ℤ := none

/-- The row that `add` inserts. -/
def newTask (id : String) (args : AddArgs) (operationId normalizedTitleHash : Option String) : Task where
  id := id
  title := (strip args.title).take 500
  notes := stripOrNone args.notes
  scheduledDate := args.scheduledDate
  timeStart := args.timeStart
  timeEnd := args.timeEnd
  recurrenceRule := truthy args.recurrenceRule
  delegatedTo := stripOrNone args.delegatedTo
  createdAt := env.now
  updatedAt := env.now
  operationId := operationId
  normalizedTitleHash := normalizedTitleHash

/-- The `INSERT` of a task. -/
def TaskDb.insert? (db : TaskDb) (task : Task) : Option TaskDb :=
  ((db.tasks.rows.insert? task).bind Indexed.commit?).map fun tasks => { db with tasks }

/-- `add` inside a turn, without a reminder: the task of the same operation and a pending task with the
same semantic key are reused. -/
def addIdempotent (db : TaskDb) (ctx : ToolRuntimeContext) (id : String) (args : AddArgs) : TaskResult :=
  match ctxGuards owner env with
  | .error error => ⟨db, db, some error⟩
  | .ok _ =>
    let operationId := K.taskOperation ctx.executionId ctx.stepId (strip args.title) args.scheduledDate args.timeStart
      args.recurrenceRule
    -- only tasks with a date have a semantic key
    let hash := args.scheduledDate.bind fun date =>
      truthy (some (K.taskHash owner.tenantId owner.userId (strip args.title) date args.timeStart args.recurrenceRule))
    if db.tasks.rows.rows.any fun task => hash.isSome && task.pendingKey = hash then .ok db
    else if db.tasks.rows.rows.any fun task => task.operationId = some operationId then .ok db
    else
      match db.insert? (newTask env id args (some operationId) hash) with
      | none => ⟨db, db, some .integrity⟩
      | some db' => .ok db'

/-- `add`; `id` and `reminderId` are the fresh ones. -/
def add (db : TaskDb) (id reminderId : String) (args : AddArgs) : TaskResult :=
  if strip args.title = [] then ⟨db, db, some .titleRequired⟩
  else
    match env.ctx, args.reminderOffsetMinutes with
    | some ctx, none => addIdempotent K owner env db ctx id args
    | _, offset =>
      let task := newTask env id args none none
      match db.insert? task with
      | none => ⟨db, db, some .integrity⟩
      | some db' =>
        match offset, args.scheduledDate, args.timeStart with
        | some offset, some date, some time =>
          endWithAttach db db' (attachReminderInner R K owner env db' task reminderId date time offset env.botKey)
        | _, _, _ => .ok db'

/-- The arguments of `update`. -/
structure TaskPatch where
  title : Option Text := none
  scheduledDate : Option ℤ := none
  timeStart : Option ℤ := none
  timeEnd : Option ℤ := none
  recurrenceRule : Option String := none
  notes : Option Text := none
  delegatedTo : Option Text := none

namespace Task

/-- The fields that an update writes. -/
def patched (task : Task) (now : ℤ) (patch : TaskPatch) : Task :=
  { task with
    title := patch.title.elim task.title fun title => (strip title).take 500
    scheduledDate := patch.scheduledDate.or task.scheduledDate
    timeStart := patch.timeStart.or task.timeStart
    timeEnd := patch.timeEnd.or task.timeEnd
    recurrenceRule := if patch.recurrenceRule.isSome then truthy patch.recurrenceRule else task.recurrenceRule
    notes := patch.notes.elim task.notes fun notes => stripOrNone (some notes)
    delegatedTo := patch.delegatedTo.elim task.delegatedTo fun delegate => stripOrNone (some delegate)
    updatedAt := now }

/-- `schedule_changed`: the date, the time or the rule takes another value. -/
def scheduleChanged (task : Task) (patch : TaskPatch) : Bool :=
  (patch.scheduledDate.isSome && patch.scheduledDate != task.scheduledDate) ||
    (patch.timeStart.isSome && patch.timeStart != task.timeStart) ||
    (patch.recurrenceRule.isSome && truthy patch.recurrenceRule != task.recurrenceRule)

end Task

/-- An update as a change. -/
def patchTask (now : ℤ) (patch : TaskPatch) : TaskChange where
  set task := task.patched now patch
  id _ := rfl
  entry _ := .inr rfl

/-- `task.reminder_id = None`. -/
def unlinkReminder : TaskChange where
  set task := { task with reminderId := none }
  id _ := rfl
  entry _ := .inr rfl

/-- `task.reminder_offset_minutes = None`. -/
def clearOffset : TaskChange where
  set task := { task with reminderOffsetMinutes := none }
  id _ := rfl
  entry _ := .inr rfl

/-- `update`. -/
def updateTask (db : TaskDb) (id reminderId : String) (patch : TaskPatch) : TaskResult :=
  match db.tasks.get? id with
  | none => .ok db
  | some task =>
    let db₁ := db.modify id (patchTask env.now patch)
    let task₁ := task.patched env.now patch
    match task.reminderId, task.reminderOffsetMinutes with
    | some linked, some offset =>
      if task.scheduleChanged patch then
        -- the old reminder is cancelled, and the new one keeps its bot
        let botKey := (db.reminders.get? linked).elim env.botKey fun old => some old.botKey
        let db₂ := { db₁ with reminders := cancelReminder owner env db.reminders linked }.modify id unlinkReminder
        match task₁.scheduledDate, task₁.timeStart with
        | some date, some time =>
          endWithAttach db db₂
            (attachReminderInner R K owner env db₂ { task₁ with reminderId := none } reminderId date time offset botKey)
        | _, _ => .ok (db₂.modify id clearOffset)
      else .ok db₁
    | _, _ => .ok db₁

/-- `status = 'completed'`. -/
def markCompleted (now : ℤ) : TaskChange where
  set task := { task with status := .completed, completedAt := some now, updatedAt := now }
  id _ := rfl
  entry _ := .inl rfl

/-- The reminder of the task, if it has one, is cancelled and unlinked. -/
def TaskDb.dropReminder (db : TaskDb) (task : Task) : TaskDb :=
  match task.reminderId with
  | none => db
  | some linked =>
    ({ db with reminders := cancelReminder owner env db.reminders linked }.modify task.id unlinkReminder).modify task.id
      clearOffset

/-- `complete`. -/
def complete (db : TaskDb) (id : String) : TaskResult :=
  match db.tasks.get? id with
  | none => .ok db
  | some task =>
    if task.status = .completed then .ok db
    else
      let db₁ := db.modify id (markCompleted env.now)
      -- the reminder of a recurring task stays
      if truthy task.recurrenceRule = none then .ok (db₁.dropReminder owner env task) else .ok db₁

/-- `uncomplete`; the index may refuse it. -/
def uncomplete (db : TaskDb) (id : String) : TaskResult :=
  match db.tasks.get? id with
  | none => .ok db
  | some task =>
    if task.status = .pending then .ok db
    else
      match Indexed.commit? (db.tasks.rows.update (·.id = id)
        (fun task => { task with status := .pending, completedAt := none, updatedAt := env.now }) fun _ => rfl) with
      | none => ⟨db, db, some .integrity⟩
      | some tasks => .ok { db with tasks }

/-- `status = 'cancelled'`. -/
def markCancelled (now : ℤ) : TaskChange where
  set task := { task with status := .cancelled, updatedAt := now }
  id _ := rfl
  entry _ := .inl rfl

/-- `cancel`. -/
def cancelTask (db : TaskDb) (id : String) : TaskResult :=
  match db.tasks.get? id with
  | none => .ok db
  | some task =>
    if task.status = .cancelled then .ok db
    else .ok ((db.modify id (markCancelled env.now)).dropReminder owner env task)

/-- `delete`. -/
def deleteTask (db : TaskDb) (id : String) : TaskResult :=
  match db.tasks.get? id with
  | none => .ok db
  | some task =>
    .ok
      { tasks := db.tasks.delete (·.id = id)
        reminders := task.reminderId.elim db.reminders (cancelReminder owner env db.reminders) }

/-- `attach_reminder`. The cancellation of the old reminder is committed on its own. -/
def attachReminder (db : TaskDb) (id reminderId : String) (offset : ℤ) : TaskResult :=
  match db.tasks.get? id with
  | none => .ok db
  | some task =>
    match task.scheduledDate, task.timeStart with
    | some date, some time =>
      match task.reminderId with
      | none => endWithAttach db db (attachReminderInner R K owner env db task reminderId date time offset env.botKey)
      | some linked =>
        let db₁ := { db with reminders := cancelReminder owner env db.reminders linked }
        let db₂ := db₁.modify id unlinkReminder
        endWithAttach db₁ db₂
          (attachReminderInner R K owner env db₂ { task with reminderId := none } reminderId date time offset env.botKey)
    | _, _ => ⟨db, db, some .noScheduledDatetime⟩

/-- `task.updated_at = now`. -/
def touch (now : ℤ) : TaskChange where
  set task := { task with updatedAt := now }
  id _ := rfl
  entry _ := .inr rfl

/-- `detach_reminder`. -/
def detachReminder (db : TaskDb) (id : String) : TaskResult :=
  match db.tasks.get? id with
  | none => .ok db
  | some task => .ok ((((db.dropReminder owner env task).modify id unlinkReminder).modify id clearOffset).modify id (touch env.now))

end Sreda.Services
