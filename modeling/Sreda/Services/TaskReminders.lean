import Sreda.Lib.Transition
import Sreda.Services.Tasks

/-!
# The reminders of tasks

Any calls of `TaskService` on the tasks of a user, one after the other, from no tasks and any
reminders that were not created for a task. A call that raises leaves what it has committed, or,
when its caller commits the session later, what it has done.

A reminder is created for a task when its memo names the task.

## What is proved

* what the calls keep (`TaskInv`): a pending reminder that was created for a task is linked from that
  task, from no other, and the task is neither cancelled nor a completed one-shot task;
* what attaching a reminder does to it (`attach_spec`);
* **the reminders of tasks** (`task_reminders`): in every run whose steps attach a reminder only to a
  task that may have one, and reuse none of another task, the reminders are as they should be, and a
  further step leaves them so exactly when it does the same;
* a reminder on a cancelled task (`attach_to_cancelled`).
-/

namespace Sreda.Services

open Sreda.Lib
open Sreda.Lib.PyText (Text strip)

variable (R : RRule) (K : DedupKeys) (owner : TaskOwner)

/-! ### The system -/

/-- A call, with the ids that it makes. -/
inductive TaskOp where
  | add (id reminderId : String) (args : AddArgs)
  | update (id reminderId : String) (patch : TaskPatch)
  | complete (id : String)
  | uncomplete (id : String)
  | cancel (id : String)
  | delete (id : String)
  | attachReminder (id reminderId : String) (offset : ℤ)
  | detachReminder (id : String)

/-- The call. -/
def TaskOp.run (env : TaskEnv) (db : TaskDb) : TaskOp → TaskResult
  | .add id reminderId args => Services.add R K owner env db id reminderId args
  | .update id reminderId patch => updateTask R K owner env db id reminderId patch
  | .complete id => Services.complete owner env db id
  | .uncomplete id => Services.uncomplete env db id
  | .cancel id => cancelTask owner env db id
  | .delete id => deleteTask owner env db id
  | .attachReminder id reminderId offset => Services.attachReminder R K owner env db id reminderId offset
  | .detachReminder id => Services.detachReminder owner env db id

/-- Each `uuid4` is one that no row has. -/
def TaskOp.Fresh (db : TaskDb) : TaskOp → Prop
  | .add id reminderId _ => db.tasks.get? id = none ∧ db.reminders.get? reminderId = none
  | .update _ reminderId _ | .attachReminder _ reminderId _ => db.reminders.get? reminderId = none
  | _ => True

/-- The reminder was created for a task. -/
def ForTask (row : FamilyReminder) : Prop := ∃ id, row.sourceMemo = some (taskMemo id)

/-- Runs of calls. -/
def taskRuns : Lts TaskDb (TaskEnv × TaskOp) where
  init db := db.tasks.rows.rows = [] ∧ ∀ row ∈ db.reminders.rows.rows, ¬ ForTask row
  step db call t := call.2.Fresh db ∧ (t = (call.2.run R K owner call.1 db).committed ∨ t = (call.2.run R K owner call.1 db).session)

/-! ### The guarantees -/

/-- A cancelled task, or a completed one-shot task. -/
def Task.Quiet (task : Task) : Prop :=
  task.status = .cancelled ∨ task.status = .completed ∧ truthy task.recurrenceRule = none

/-- **What the calls promise.** -/
structure TaskGuarantees (db : TaskDb) : Prop where
  /-- A pending reminder that was created for a task is linked from exactly one task. -/
  linked : ∀ row ∈ db.reminders.rows.rows, row.status = .pending → ForTask row →
    ∃! task, task ∈ db.tasks.rows.rows ∧ task.reminderId = some row.id
  /-- A quiet task has no pending reminder. -/
  quiet : ∀ row ∈ db.reminders.rows.rows, row.status = .pending → ∀ task ∈ db.tasks.rows.rows, task.Quiet →
    task.reminderId ≠ some row.id
  /-- The task that a pending reminder was created for is there, and it is not quiet. -/
  created : ∀ row ∈ db.reminders.rows.rows, row.status = .pending → ∀ id, row.sourceMemo = some (taskMemo id) →
    ∃ task ∈ db.tasks.rows.rows, task.id = id ∧ ¬ task.Quiet

/-- The attachment leaves no reminder on a quiet task and reuses none of another task: when the
trigger can be computed and the arguments of `schedule` pass. -/
def AttachFits (env : TaskEnv) (reminders : ReminderTable) (task : Task) (reminderId : String) (date time offset : ℤ)
    (botKey : Option String) : Prop :=
  ∀ trigger row, attachTrigger R env task date time offset = .ok trigger →
    scheduleRow R K owner env reminderId (attachArgs owner task trigger botKey) = .ok row →
    match scheduleReuse K owner env reminders (attachArgs owner task trigger botKey) with
    | none => ¬ task.Quiet
    | some existing => existing.status = .pending → ¬ task.Quiet ∧ ¬ ForTask existing

/-- The call attaches no reminder, or one that fits. -/
def TaskOp.Fits (env : TaskEnv) (db : TaskDb) : TaskOp → Prop
  | .add id reminderId args =>
    strip args.title ≠ [] → ∀ offset date time, args.reminderOffsetMinutes = some offset →
      args.scheduledDate = some date → args.timeStart = some time →
      AttachFits R K owner env db.reminders (newTask env id args none none) reminderId date time offset env.botKey
  | .update id reminderId patch =>
    ∀ task linked offset date time, db.tasks.get? id = some task → task.reminderId = some linked →
      task.reminderOffsetMinutes = some offset → task.scheduleChanged patch = true →
      (task.patched env.now patch).scheduledDate = some date → (task.patched env.now patch).timeStart = some time →
      AttachFits R K owner env (cancelReminder owner env db.reminders linked) (task.patched env.now patch) reminderId
        date time offset ((db.reminders.get? linked).elim env.botKey fun old => some old.botKey)
  | .attachReminder id reminderId offset =>
    ∀ task date time, db.tasks.get? id = some task → task.scheduledDate = some date → task.timeStart = some time →
      AttachFits R K owner env (task.reminderId.elim db.reminders (cancelReminder owner env db.reminders)) task
        reminderId date time offset env.botKey
  | _ => True

/-- The condition on a step. -/
def CallFits (db : TaskDb) (call : TaskEnv × TaskOp) : Prop := call.2.Fits R K owner call.1 db

/-! ### The invariant -/

variable {R K owner} {env : TaskEnv} {db db' : TaskDb} {task : Task} {row : FamilyReminder} {id reminderId : String}

theorem taskMemo_inj {id id' : String} (h : taskMemo id = taskMemo id') : id = id' := by
  have hlist := congrArg String.toList h
  rw [taskMemo, taskMemo, String.toList_append, String.toList_append] at hlist
  exact String.toList_inj.mp (List.append_cancel_left hlist)

/-- The links of the tasks, as every call leaves them. -/
structure TaskInv (owner : TaskOwner) (db : TaskDb) : Prop where
  linked : ∀ task ∈ db.tasks.rows.rows, ∀ linked, task.reminderId = some linked →
    task.reminderOffsetMinutes.isSome ∧ ∃ row ∈ db.reminders.rows.rows, row.id = linked ∧ row.tenantId = owner.tenantId
  created : ∀ row ∈ db.reminders.rows.rows, row.status = .pending → ∀ id, row.sourceMemo = some (taskMemo id) →
    ∃ task ∈ db.tasks.rows.rows, task.id = id ∧ task.reminderId = some row.id
  own : ∀ row ∈ db.reminders.rows.rows, row.status = .pending → ForTask row → ∀ task ∈ db.tasks.rows.rows,
    task.reminderId = some row.id → row.sourceMemo = some (taskMemo task.id)
  quiet : ∀ row ∈ db.reminders.rows.rows, row.status = .pending → ∀ task ∈ db.tasks.rows.rows, task.Quiet →
    task.reminderId ≠ some row.id

theorem TaskInv.guarantees (h : TaskInv owner db) : TaskGuarantees db where
  linked row hrow hpending := by
    rintro ⟨id, hmemo⟩
    obtain ⟨task, htask, hid, hlink⟩ := h.created row hrow hpending id hmemo
    refine ⟨task, ⟨htask, hlink⟩, ?_⟩
    rintro other ⟨hother, hlink'⟩
    have hown := h.own row hrow hpending ⟨id, hmemo⟩ other hother hlink'
    refine db.tasks.rows.eq_of_key hother htask ?_
    rw [hid]
    exact (taskMemo_inj (Option.some.inj (hmemo.symm.trans hown))).symm
  quiet := h.quiet
  created row hrow hpending id hmemo := by
    obtain ⟨task, htask, hid, hlink⟩ := h.created row hrow hpending id hmemo
    exact ⟨task, htask, hid, fun hq => h.quiet row hrow hpending task htask hq hlink⟩

/-! ### Cancelling a reminder -/

variable {linked : String} {t : TaskDb}

theorem mem_cancelReminder {reminders : ReminderTable} {row' : FamilyReminder} :
    row' ∈ (cancelReminder owner env reminders linked).rows.rows ↔
      ∃ row ∈ reminders.rows.rows, (if row.id = linked then (row.cancel env.now owner.tenantId).getD row else row) = row' := by
  simp [cancelReminder, Indexed.retire]

theorem tenantId_cancel (now : ℤ) (tenantId : String) (row : FamilyReminder) :
    ((row.cancel now tenantId).getD row).tenantId = row.tenantId := by
  unfold FamilyReminder.cancel
  split <;> rfl

theorem exists_cancelReminder {reminders : ReminderTable} (h : row ∈ reminders.rows.rows) :
    ∃ row' ∈ (cancelReminder owner env reminders linked).rows.rows, row'.id = row.id ∧ row'.tenantId = row.tenantId := by
  refine ⟨_, mem_cancelReminder.mpr ⟨row, h, rfl⟩, ?_⟩
  split
  · exact ⟨id_cancel env.now owner.tenantId row, tenantId_cancel env.now owner.tenantId row⟩
  · exact ⟨rfl, rfl⟩

theorem get?_cancelReminder {reminders : ReminderTable} {id : String} (h : reminders.get? id = none) :
    (cancelReminder owner env reminders linked).get? id = none := by
  refine Keyed.get?_eq_none.mpr fun row' hrow' hid => ?_
  obtain ⟨row, hrow, rfl⟩ := mem_cancelReminder.mp hrow'
  refine Keyed.get?_eq_none.mp h row hrow ?_
  split at hid
  · rwa [id_cancel] at hid
  · exact hid

/-- What is pending afterwards was so before, and is not the reminder that was cancelled. -/
theorem pending_cancelReminder {reminders : ReminderTable}
    (h : row ∈ (cancelReminder owner env reminders linked).rows.rows) (hpending : row.status = .pending) :
    row ∈ reminders.rows.rows ∧ (row.id = linked → row.tenantId ≠ owner.tenantId) := by
  obtain ⟨old, hold, rfl⟩ := mem_cancelReminder.mp h
  by_cases hid : old.id = linked
  case neg =>
    rw [if_neg hid]
    exact ⟨hold, fun h => absurd h hid⟩
  case pos =>
    rw [if_pos hid] at hpending ⊢
    by_cases htenant : old.tenantId = owner.tenantId
    · -- it would be cancelled now
      unfold FamilyReminder.cancel at hpending
      split at hpending
      next hcancelled =>
        rcases hcancelled with hne | hc
        · exact absurd htenant hne
        · rw [Option.getD_none, hc] at hpending
          cases hpending
      · cases hpending
    · have hsame : (old.cancel env.now owner.tenantId).getD old = old := by
        rw [FamilyReminder.cancel, if_pos (.inl htenant), Option.getD_none]
      rw [hsame]
      exact ⟨hold, fun _ => htenant⟩

/-! ### Calls that change one task -/

/-- The rows after a change of the task. -/
def changeRows (id : String) (set : Task → Task) (rows : List Task) : List Task :=
  rows.map fun task => if task.id = id then set task else task

theorem rows_modify {change : TaskChange} :
    (db.modify id change).tasks.rows.rows = changeRows id change.set db.tasks.rows.rows := by
  simp [TaskDb.modify, Indexed.retire, changeRows]

theorem changeRows_changeRows (set set' : Task → Task) (hid : ∀ task, (set task).id = task.id) (rows : List Task) :
    changeRows id set' (changeRows id set rows) = changeRows id (set' ∘ set) rows := by
  rw [changeRows, changeRows, changeRows, List.map_map]
  refine List.map_congr_left fun task _ => ?_
  by_cases h : task.id = id <;> simp [h, hid]

theorem mem_changeRows {set : Task → Task} {rows : List Task} {task' : Task} :
    task' ∈ changeRows id set rows ↔ ∃ task ∈ rows, (if task.id = id then set task else task) = task' := List.mem_map

/-- What a call keeps when it adds no link: each task after it has no link or is an old one with its link, not more quiet;
the tasks that pending reminders are linked from are still there, and no reminder is lost or becomes pending. -/
theorem TaskInv.of_rows (h : TaskInv owner db)
    (hids : ∀ row ∈ db.reminders.rows.rows, ∃ row' ∈ db'.reminders.rows.rows, row'.id = row.id ∧ row'.tenantId = row.tenantId)
    (hold : ∀ row ∈ db'.reminders.rows.rows, row.status = .pending → row ∈ db.reminders.rows.rows)
    (hback : ∀ t' ∈ db'.tasks.rows.rows, ∀ linked, t'.reminderId = some linked → ∃ t ∈ db.tasks.rows.rows, t.id = t'.id ∧
      t.reminderId = some linked ∧ t.reminderOffsetMinutes = t'.reminderOffsetMinutes ∧
        (∀ row ∈ db'.reminders.rows.rows, row.status = .pending → row.id = linked → t'.Quiet → t.Quiet))
    (hkept : ∀ row ∈ db'.reminders.rows.rows, row.status = .pending → ∀ t ∈ db.tasks.rows.rows, t.reminderId = some row.id →
      ∃ t' ∈ db'.tasks.rows.rows, t'.id = t.id ∧ t'.reminderId = some row.id) : TaskInv owner db' := by
  refine ⟨fun t' ht' linked hlinked => ?_, fun row hrow hp id hmemo => ?_, fun row hrow hp hfor t' ht' hlink => ?_,
    fun row hrow hp t' ht' hq hlink => ?_⟩
  · obtain ⟨t, ht, -, hlink, hoff, -⟩ := hback t' ht' linked hlinked
    obtain ⟨hsome, row, hrow, hrid, htenant⟩ := h.linked t ht linked hlink
    obtain ⟨row', hrow', hid', htenant'⟩ := hids row hrow
    exact ⟨hoff ▸ hsome, row', hrow', hid'.trans hrid, htenant'.trans htenant⟩
  · obtain ⟨t, ht, htid, hlink⟩ := h.created row (hold row hrow hp) hp id hmemo
    obtain ⟨t', ht', htid', hlink'⟩ := hkept row hrow hp t ht hlink
    exact ⟨t', ht', htid'.trans htid, hlink'⟩
  · obtain ⟨t, ht, htid, hlink', -⟩ := hback t' ht' row.id hlink
    rw [← htid]
    exact h.own row (hold row hrow hp) hp hfor t ht hlink'
  · obtain ⟨t, ht, -, hlink', -, hquiet⟩ := hback t' ht' row.id hlink
    exact h.quiet row (hold row hrow hp) hp t ht (hquiet row hrow hp rfl hq) hlink'

/-- **A call that adds no link**: what is pending was pending, its links are kept, and the task that
changes becomes quiet only without one. -/
theorem TaskInv.of_change (set : Task → Task) (h : TaskInv owner db) (hget : db.tasks.get? id = some task)
    (hrows : db'.tasks.rows.rows = changeRows id set db.tasks.rows.rows) (hid : ∀ task, (set task).id = task.id)
    (hids : ∀ row ∈ db.reminders.rows.rows, ∃ row' ∈ db'.reminders.rows.rows, row'.id = row.id ∧ row'.tenantId = row.tenantId)
    (hpending : ∀ row ∈ db'.reminders.rows.rows, row.status = .pending → row ∈ db.reminders.rows.rows ∧
      (task.reminderId = some row.id → (set task).reminderId = task.reminderId ∧ ((set task).Quiet → task.Quiet)))
    (hlink : (set task).reminderId = none ∨
      (set task).reminderId = task.reminderId ∧ (set task).reminderOffsetMinutes = task.reminderOffsetMinutes) :
    TaskInv owner db' := by
  obtain ⟨htask, htid⟩ := Keyed.get?_eq_some.mp hget
  -- the task with the id is the one that changes
  have honly : ∀ t ∈ db.tasks.rows.rows, t.id = id → t = task := fun t ht hk =>
    db.tasks.rows.eq_of_key ht htask (hk.trans htid.symm)
  refine h.of_rows hids (fun row hrow hp => (hpending row hrow hp).1) (fun t' ht' linked hlinked => ?_)
    fun row hrow hp t ht hlinked => ?_
  · rw [hrows] at ht'
    obtain ⟨t, ht, rfl⟩ := mem_changeRows.mp ht'
    by_cases hk : t.id = id
    · obtain rfl := honly t ht hk
      rw [if_pos hk] at hlinked ⊢
      rcases hlink with hnone | ⟨hsame, hoff⟩
      · rw [hnone] at hlinked
        cases hlinked
      · have hlinked' : t.reminderId = some linked := hsame ▸ hlinked
        exact ⟨t, ht, (hid t).symm, hlinked', hoff.symm,
          fun row hrow hp hrid => ((hpending row hrow hp).2 (hrid ▸ hlinked')).2⟩
    · rw [if_neg hk] at hlinked ⊢
      exact ⟨t, ht, rfl, hlinked, rfl, fun _ _ _ _ hq => hq⟩
  · refine ⟨_, hrows ▸ mem_changeRows.mpr ⟨t, ht, rfl⟩, ?_⟩
    split
    next hk =>
      obtain rfl := honly t ht hk
      exact ⟨hid t, (((hpending row hrow hp).2 hlinked).1).trans hlinked⟩
    · exact ⟨rfl, hlinked⟩

theorem TaskInv.keep (set : Task → Task) (h : TaskInv owner db) (hget : db.tasks.get? id = some task)
    (hrows : db'.tasks.rows.rows = changeRows id set db.tasks.rows.rows) (hid : ∀ task, (set task).id = task.id)
    (hreminders : db'.reminders = db.reminders) (hlink : (set task).reminderId = task.reminderId)
    (hoff : (set task).reminderOffsetMinutes = task.reminderOffsetMinutes)
    (hquiet : (set task).Quiet → task.Quiet ∨ task.reminderId = none) : TaskInv owner db' := by
  refine h.of_change set hget hrows hid ?_ ?_ (.inr ⟨hlink, hoff⟩)
  · rw [hreminders]
    exact fun row hrow => ⟨row, hrow, rfl, rfl⟩
  · rw [hreminders]
    intro row hrow _
    refine ⟨hrow, fun hlinked => ⟨hlink, fun hq => ?_⟩⟩
    rcases hquiet hq with hq | hnone
    · exact hq
    · rw [hnone] at hlinked
      cases hlinked

/-- The reminder of a task is the tenant's, so once cancelled it is no longer pending. -/
theorem TaskInv.not_linked_of_cancelled (h : TaskInv owner db) (htask : task ∈ db.tasks.rows.rows)
    (hlinked : task.reminderId = some linked) (hrow : row ∈ (cancelReminder owner env db.reminders linked).rows.rows)
    (hp : row.status = .pending) : row ∈ db.reminders.rows.rows ∧ task.reminderId ≠ some row.id := by
  obtain ⟨hold, htenant⟩ := pending_cancelReminder hrow hp
  refine ⟨hold, fun hlinked' => ?_⟩
  obtain rfl : linked = row.id := Option.some.inj (hlinked.symm.trans hlinked')
  obtain ⟨-, row', hrow', hid', htenant'⟩ := h.linked task htask row.id hlinked
  obtain rfl := db.reminders.rows.eq_of_key hrow' hold hid'
  exact htenant rfl htenant'

theorem TaskInv.drop (set : Task → Task) (h : TaskInv owner db) (hget : db.tasks.get? id = some task)
    (hrows : db'.tasks.rows.rows = changeRows id set db.tasks.rows.rows) (hid : ∀ task, (set task).id = task.id)
    (hlinked : task.reminderId = some linked)
    (hreminders : db'.reminders = cancelReminder owner env db.reminders linked)
    (hlink : (set task).reminderId = none ∨
      (set task).reminderId = task.reminderId ∧ (set task).reminderOffsetMinutes = task.reminderOffsetMinutes) :
    TaskInv owner db' := by
  refine h.of_change set hget hrows hid ?_ ?_ hlink
  · rw [hreminders]
    exact fun row hrow => exists_cancelReminder hrow
  · rw [hreminders]
    intro row hrow hp
    obtain ⟨hold, hne⟩ := h.not_linked_of_cancelled (Keyed.get?_eq_some.mp hget).1 hlinked hrow hp
    exact ⟨hold, fun hlinked' => absurd hlinked' hne⟩

/-- The task is deleted, and its reminder cancelled. -/
theorem TaskInv.delete (h : TaskInv owner db) (hget : db.tasks.get? id = some task) :
    TaskInv owner
      { tasks := db.tasks.delete (·.id = id)
        reminders := task.reminderId.elim db.reminders (cancelReminder owner env db.reminders) } := by
  obtain ⟨htask, htid⟩ := Keyed.get?_eq_some.mp hget
  have hpending : ∀ row ∈ (task.reminderId.elim db.reminders (cancelReminder owner env db.reminders)).rows.rows,
      row.status = .pending → row ∈ db.reminders.rows.rows ∧ task.reminderId ≠ some row.id := by
    intro row hrow hp
    cases hlinked : task.reminderId with
    | none =>
      rw [hlinked] at hrow
      exact ⟨hrow, by simp⟩
    | some linked =>
      rw [hlinked] at hrow
      rw [← hlinked]
      exact h.not_linked_of_cancelled htask hlinked hrow hp
  refine h.of_rows (fun row hrow => ?_) (fun row hrow hp => (hpending row hrow hp).1)
    (fun t ht linked hlinked => ⟨t, (List.mem_filter.mp ht).1, rfl, hlinked, rfl, fun _ _ _ _ hq => hq⟩)
    fun row hrow hp t ht hlink => ⟨t, List.mem_filter.mpr ⟨ht, ?_⟩, rfl, hlink⟩
  · cases task.reminderId with
    | none => exact ⟨row, hrow, rfl, rfl⟩
    | some linked => exact exists_cancelReminder hrow
  · have hother : t.id ≠ id := by
      rintro hk
      obtain rfl := db.tasks.rows.eq_of_key ht htask (hk.trans htid.symm)
      exact (hpending row hrow hp).2 hlink
    simpa using hother

/-! ### Attaching a reminder -/

variable {args : ScheduleArgs} {reminders reminders' : ReminderTable} {existing : FamilyReminder}
  {date time offset trigger : ℤ} {botKey : Option String}

theorem scheduleRow_ok (h : scheduleRow R K owner env reminderId args = .ok row) :
    row.id = reminderId ∧ row.tenantId = args.tenantId ∧ row.userId = args.userId ∧ row.status = .pending ∧
      row.sourceMemo = args.sourceMemo ∧ row.normalizedTitleHash = env.ctx.bind fun _ =>
        truthy (some (K.reminderHash owner.tenantId owner.userId (strip args.title) args.triggerAt args.recurrenceRule)) := by
  unfold scheduleRow scheduledRow at h
  split at h
  · cases h
  next found hfound =>
    cases hnext : initialNextTriggerAt R env.now args.triggerAt args.recurrenceRule with
    | error e =>
      rw [hnext] at hfound
      cases hfound
    | ok next =>
      rw [hnext] at hfound
      cases hfound
      cases hguards : ctxGuards owner env with
      | error e =>
        rw [hguards] at h
        cases h
      | ok u =>
        rw [hguards] at h
        cases h
        exact ⟨rfl, rfl, rfl, rfl, rfl, rfl⟩

theorem rows_insertReminder (h : insertReminder reminders row = some reminders') :
    reminders'.rows.rows = reminders.rows.rows ++ [row] := by
  obtain ⟨rows, hrows, hcommit⟩ := Option.bind_eq_some_iff.mp h
  rw [Indexed.rows_commit? hcommit, Keyed.rows_insert? hrows]

/-- A row with a fresh id and an entry that is free is inserted. -/
theorem exists_insertReminder (hfresh : reminders.get? row.id = none)
    (hfree : ∀ key, row.pendingKey = some key → ∀ other ∈ reminders.rows.rows, other.pendingKey ≠ some key) :
    ∃ reminders', insertReminder reminders row = some reminders' := by
  cases hinsert : reminders.rows.insert? row with
  | none =>
    obtain ⟨other, hother, hid⟩ := Keyed.insert?_eq_none.mp hinsert
    exact absurd hid (Keyed.get?_eq_none.mp hfresh other hother)
  | some rows =>
    have hunique : (rows.rows.filterMap FamilyReminder.pendingKey).Nodup := by
      rw [Keyed.rows_insert? hinsert, List.filterMap_append, List.nodup_append]
      refine ⟨reminders.unique, ?_, ?_⟩
      · cases hkey : row.pendingKey <;> simp [hkey]
      · intro key hkey key' hkey' heq
        subst heq
        obtain ⟨other, hother, hentry⟩ := List.mem_filterMap.mp hkey
        obtain ⟨new, hnew, hentry'⟩ := List.mem_filterMap.mp hkey'
        obtain rfl := List.mem_singleton.mp hnew
        exact hfree key hentry' other hother hentry
    refine ⟨⟨rows, hunique⟩, ?_⟩
    rw [insertReminder, hinsert, Option.bind_some, Indexed.commit?, dif_pos hunique]

theorem scheduleReuse_some (h : scheduleReuse K owner env reminders args = some existing) :
    existing ∈ reminders.rows.rows ∧ existing.tenantId = owner.tenantId := by
  obtain ⟨ctx, -, h⟩ := Option.bind_eq_some_iff.mp h
  rcases Option.or_eq_some_iff.mp h with h | ⟨-, h⟩
  · obtain ⟨hash, -, hfind⟩ := Option.bind_eq_some_iff.mp h
    have hkey : existing.pendingKey = some (owner.tenantId, owner.userId, hash) := by simpa using List.find?_some hfind
    refine ⟨List.mem_of_find?_eq_some hfind, ?_⟩
    unfold FamilyReminder.pendingKey at hkey
    split at hkey
    · obtain ⟨hash', -, heq⟩ := Option.map_eq_some_iff.mp hkey
      exact congrArg Prod.fst heq
    · cases hkey
  · have hrow := List.find?_some h
    simp only [decide_eq_true_eq] at hrow
    exact ⟨List.mem_of_find?_eq_some h, hrow.1⟩

/-- When nothing is reused the entry of the new reminder is free. -/
theorem pendingKey_free (hrow : scheduleRow R K owner env reminderId args = .ok row) (htenant : args.tenantId = owner.tenantId)
    (huser : args.userId = some owner.userId) (h : scheduleReuse K owner env reminders args = none) :
    ∀ key, row.pendingKey = some key → ∀ other ∈ reminders.rows.rows, other.pendingKey ≠ some key := by
  obtain ⟨-, htenant', huser', hstatus, -, hhash⟩ := scheduleRow_ok hrow
  intro key hkey other hother hentry
  rw [FamilyReminder.pendingKey, if_pos hstatus, hhash, htenant', huser', htenant, huser] at hkey
  obtain ⟨hash, hbind, rfl⟩ := Option.map_eq_some_iff.mp hkey
  obtain ⟨ctx, hctx, hhash⟩ := Option.bind_eq_some_iff.mp hbind
  simp only [scheduleReuse, hctx, Option.bind_some, hhash, Option.or_eq_none_iff] at h
  have hnone := List.find?_eq_none.mp h.1 other hother
  rw [decide_eq_true_eq] at hnone
  exact hnone hentry

/-- What `schedule` returns: a reminder that is reused, or the new row. -/
theorem schedule_cases (h : schedule R K owner env reminderId args reminders = .ok (existing, reminders')) :
    ∃ row, scheduleRow R K owner env reminderId args = .ok row ∧
      ((scheduleReuse K owner env reminders args = some existing ∧ reminders' = reminders) ∨
        scheduleReuse K owner env reminders args = none ∧ existing = row ∧
          reminders'.rows.rows = reminders.rows.rows ++ [row]) := by
  unfold schedule at h
  split at h
  · cases h
  next row hrow =>
    refine ⟨row, hrow, ?_⟩
    split at h
    next found hreuse =>
      cases h
      exact .inl ⟨hreuse, rfl⟩
    next hreuse =>
      cases hinsert : insertReminder reminders row with
      | none =>
        rw [hinsert] at h
        cases h
      | some table =>
        rw [hinsert] at h
        cases h
        exact .inr ⟨hreuse, rfl, rows_insertReminder hinsert⟩

/-- **Attaching**: a task without a reminder is linked to a row that is there or to a new one; `reminders'`
are the reminders afterwards. -/
theorem TaskInv.link {linked : FamilyReminder} (h : TaskInv owner db) (htask : task ∈ db.tasks.rows.rows)
    (hnone : task.reminderId = none)
    (hrows : reminders'.rows.rows = db.reminders.rows.rows ∨
      reminders'.rows.rows = db.reminders.rows.rows ++ [linked] ∧ linked.sourceMemo = some (taskMemo task.id) ∧
        db.reminders.get? linked.id = none)
    (hlinked : linked ∈ reminders'.rows.rows) (htenant : linked.tenantId = owner.tenantId)
    (hquiet : linked.status = .pending → ¬ task.Quiet)
    (hfor : linked.status = .pending → linked ∈ db.reminders.rows.rows → ¬ ForTask linked) :
    TaskInv owner ({ db with reminders := reminders' }.modify task.id (linkReminder env.now linked.id offset)) := by
  have honly : ∀ t ∈ db.tasks.rows.rows, t.id = task.id → t = task := fun t ht hk => db.tasks.rows.eq_of_key ht htask hk
  have hsub : ∀ row ∈ db.reminders.rows.rows, row ∈ reminders'.rows.rows := by
    intro row hrow
    rcases hrows with hrows | ⟨hrows, -⟩
    · rwa [hrows]
    · rw [hrows]
      exact List.mem_append_left _ hrow
  -- a row is an old one, or the new one, which no other task is linked to
  have hcases : ∀ row ∈ reminders'.rows.rows, row ∈ db.reminders.rows.rows ∨
      row = linked ∧ linked.sourceMemo = some (taskMemo task.id) ∧ db.reminders.get? linked.id = none := by
    intro row hrow
    rcases hrows with hrows | ⟨hrows, hmemo, hfresh⟩
    · exact .inl (hrows ▸ hrow)
    · rw [hrows, List.mem_append, List.mem_singleton] at hrow
      rcases hrow with hrow | hrow
      · exact .inl hrow
      · exact .inr ⟨hrow, hmemo, hfresh⟩
  have hunlinked : db.reminders.get? linked.id = none → ∀ t ∈ db.tasks.rows.rows, t.reminderId ≠ some linked.id := by
    intro hfresh t ht hlink
    obtain ⟨-, row, hrow, hid, -⟩ := h.linked t ht linked.id hlink
    exact Keyed.get?_eq_none.mp hfresh row hrow hid
  -- the links after the call
  have hmem : ∀ t' ∈ ({ db with reminders := reminders' }.modify task.id (linkReminder env.now linked.id offset)).tasks.rows.rows,
      (t' = { task with reminderId := some linked.id, reminderOffsetMinutes := some offset, updatedAt := env.now }) ∨
        t' ∈ db.tasks.rows.rows ∧ t'.id ≠ task.id := by
    intro t' ht'
    rw [rows_modify] at ht'
    obtain ⟨t, ht, rfl⟩ := mem_changeRows.mp ht'
    by_cases hk : t.id = task.id
    · obtain rfl := honly t ht hk
      rw [if_pos rfl]
      exact .inl rfl
    · rw [if_neg hk]
      exact .inr ⟨ht, hk⟩
  have hkept : ∀ t ∈ db.tasks.rows.rows, t.id ≠ task.id →
      t ∈ ({ db with reminders := reminders' }.modify task.id (linkReminder env.now linked.id offset)).tasks.rows.rows := by
    intro t ht hk
    rw [rows_modify]
    exact mem_changeRows.mpr ⟨t, ht, if_neg hk⟩
  have hnew : { task with reminderId := some linked.id, reminderOffsetMinutes := some offset, updatedAt := env.now } ∈
      ({ db with reminders := reminders' }.modify task.id (linkReminder env.now linked.id offset)).tasks.rows.rows := by
    rw [rows_modify]
    exact mem_changeRows.mpr ⟨task, htask, if_pos rfl⟩
  refine ⟨fun t' ht' rid hrid => ?_, fun row hrow hp id' hmemo => ?_, fun row hrow hp hfor' t' ht' hlink => ?_,
    fun row hrow hp t' ht' hq hlink => ?_⟩
  · rcases hmem t' ht' with rfl | ⟨ht, -⟩
    · exact ⟨rfl, linked, hlinked, Option.some.inj hrid, htenant⟩
    · obtain ⟨hoff, row, hrow, hid, htenant'⟩ := h.linked t' ht rid hrid
      exact ⟨hoff, row, hsub row hrow, hid, htenant'⟩
  · rcases hcases row hrow with hold | ⟨rfl, hmemo', -⟩
    · obtain ⟨t, ht, hid, hlink⟩ := h.created row hold hp id' hmemo
      refine ⟨t, hkept t ht fun hk => ?_, hid, hlink⟩
      rw [honly t ht hk, hnone] at hlink
      cases hlink
    · obtain rfl := taskMemo_inj (Option.some.inj (hmemo'.symm.trans hmemo))
      exact ⟨_, hnew, rfl, rfl⟩
  · rcases hmem t' ht' with rfl | ⟨ht, -⟩
    · have hid : linked.id = row.id := Option.some.inj hlink
      obtain rfl := reminders'.rows.eq_of_key hlinked hrow hid
      rcases hcases linked hlinked with hold | ⟨-, hmemo', -⟩
      · exact absurd hfor' (hfor hp hold)
      · exact hmemo'
    · rcases hcases row hrow with hold | ⟨rfl, -, hfresh⟩
      · exact h.own row hold hp hfor' t' ht hlink
      · exact absurd hlink (hunlinked hfresh t' ht)
  · rcases hmem t' ht' with rfl | ⟨ht, -⟩
    · have hid : linked.id = row.id := Option.some.inj hlink
      obtain rfl := reminders'.rows.eq_of_key hlinked hrow hid
      exact hquiet hp hq
    · rcases hcases row hrow with hold | ⟨rfl, -, hfresh⟩
      · exact h.quiet row hold hp t' ht hq hlink
      · exact hunlinked hfresh t' ht hlink

/-- A link of a quiet task to a pending reminder, or of a second task to the reminder of a task, breaks a
promise. -/
theorem TaskInv.not_guarantees {linked : FamilyReminder} (h : TaskInv owner db) (htask : task ∈ db.tasks.rows.rows)
    (hnone : task.reminderId = none) (hlinked : linked ∈ reminders'.rows.rows) (hp : linked.status = .pending)
    (hbad : task.Quiet ∨ ForTask linked ∧ linked ∈ db.reminders.rows.rows) :
    ¬ TaskGuarantees ({ db with reminders := reminders' }.modify task.id (linkReminder env.now linked.id offset)) := by
  intro hg
  have hnew : { task with reminderId := some linked.id, reminderOffsetMinutes := some offset, updatedAt := env.now } ∈
      ({ db with reminders := reminders' }.modify task.id (linkReminder env.now linked.id offset)).tasks.rows.rows := by
    rw [rows_modify]
    exact mem_changeRows.mpr ⟨task, htask, if_pos rfl⟩
  rcases hbad with hquiet | ⟨⟨id, hmemo⟩, hold⟩
  · exact hg.quiet linked hlinked hp _ hnew hquiet rfl
  · obtain ⟨other, hother, -, hlink⟩ := h.created linked hold hp id hmemo
    have hne : other.id ≠ task.id := by
      intro hk
      rw [db.tasks.rows.eq_of_key hother htask hk, hnone] at hlink
      cases hlink
    have hkept : other ∈
        ({ db with reminders := reminders' }.modify task.id (linkReminder env.now linked.id offset)).tasks.rows.rows := by
      rw [rows_modify]
      exact mem_changeRows.mpr ⟨other, hother, if_neg hne⟩
    obtain ⟨only, -, honly⟩ := hg.linked linked hlinked hp ⟨id, hmemo⟩
    have heq := (honly other ⟨hkept, hlink⟩).trans (honly _ ⟨hnew, rfl⟩).symm
    rw [heq] at hne
    exact hne rfl

theorem attachReminderInner_ok (h : attachReminderInner R K owner env db task reminderId date time offset botKey = .ok db') :
    ∃ trigger linked reminders', attachTrigger R env task date time offset = .ok trigger ∧
      schedule R K owner env reminderId (attachArgs owner task trigger botKey) db.reminders = .ok (linked, reminders') ∧
      db' = { db with reminders := reminders' }.modify task.id (linkReminder env.now linked.id offset) := by
  unfold attachReminderInner at h
  split at h
  · cases h
  next trigger htrigger =>
    split at h
    · cases h
    next linked reminders' hschedule =>
      cases h
      exact ⟨trigger, linked, reminders', htrigger, hschedule, rfl⟩

/-- An attachment that does not fit goes through. -/
theorem exists_attach_of_not_fits (hfresh : db.reminders.get? reminderId = none)
    (h : ¬ AttachFits R K owner env db.reminders task reminderId date time offset botKey) :
    ∃ db', attachReminderInner R K owner env db task reminderId date time offset botKey = .ok db' := by
  unfold AttachFits at h
  push Not at h
  obtain ⟨trigger, row, htrigger, hrow, -⟩ := h
  obtain ⟨linked, reminders', hschedule⟩ : ∃ linked reminders',
      schedule R K owner env reminderId (attachArgs owner task trigger botKey) db.reminders = .ok (linked, reminders') := by
    unfold schedule
    rw [hrow]
    cases hreuse : scheduleReuse K owner env db.reminders (attachArgs owner task trigger botKey) with
    | some existing => exact ⟨_, _, rfl⟩
    | none =>
      have hid := (scheduleRow_ok hrow).1
      obtain ⟨reminders', hinsert⟩ := exists_insertReminder (hid ▸ hfresh) (pendingKey_free hrow rfl rfl hreuse)
      exact ⟨row, reminders', by simp [hinsert]⟩
  refine ⟨{ db with reminders := reminders' }.modify task.id (linkReminder env.now linked.id offset), ?_⟩
  simp only [attachReminderInner, htrigger, hschedule]

/-- **An attachment**: it keeps the invariant when it fits, and breaks a promise when it does not. -/
theorem attach_spec (h : TaskInv owner db) (htask : task ∈ db.tasks.rows.rows) (hnone : task.reminderId = none)
    (hfresh : db.reminders.get? reminderId = none)
    (hattach : attachReminderInner R K owner env db task reminderId date time offset botKey = .ok db') :
    (AttachFits R K owner env db.reminders task reminderId date time offset botKey → TaskInv owner db') ∧
      (¬ AttachFits R K owner env db.reminders task reminderId date time offset botKey → ¬ TaskGuarantees db') := by
  obtain ⟨trigger, linked, reminders', htrigger, hschedule, rfl⟩ := attachReminderInner_ok hattach
  obtain ⟨row, hrow, ⟨hreuse, rfl⟩ | ⟨hreuse, rfl, hrows⟩⟩ := schedule_cases hschedule
  · -- a reminder is reused
    obtain ⟨hold, htenant⟩ := scheduleReuse_some hreuse
    constructor
    · intro hfits
      have hexisting := hfits trigger row htrigger hrow
      rw [hreuse] at hexisting
      exact h.link htask hnone (.inl rfl) hold htenant (fun hp => (hexisting hp).1) fun hp _ => (hexisting hp).2
    · intro hn
      unfold AttachFits at hn
      push Not at hn
      obtain ⟨trigger', row', htrigger', hrow', hbad⟩ := hn
      obtain rfl := Except.ok.inj (htrigger.symm.trans htrigger')
      rw [hreuse] at hbad
      push Not at hbad
      obtain ⟨hp, hbad⟩ := hbad
      refine h.not_guarantees htask hnone hold hp ?_
      by_cases hq : task.Quiet
      · exact .inl hq
      · exact .inr ⟨hbad hq, hold⟩
  · -- the reminder is new
    obtain ⟨hid, htenant, -, hstatus, hmemo, -⟩ := scheduleRow_ok hrow
    have hlinked : linked ∈ reminders'.rows.rows := by
      rw [hrows]
      exact List.mem_append_right _ (List.mem_singleton_self linked)
    rw [← hid] at hfresh
    constructor
    · intro hfits
      have hquiet := hfits trigger linked htrigger hrow
      rw [hreuse] at hquiet
      refine h.link htask hnone (.inr ⟨hrows, hmemo, hfresh⟩) hlinked htenant (fun _ => hquiet) fun _ hold => ?_
      exact absurd rfl (Keyed.get?_eq_none.mp hfresh linked hold)
    · intro hn
      unfold AttachFits at hn
      push Not at hn
      obtain ⟨trigger', row', htrigger', -, hbad⟩ := hn
      obtain rfl := Except.ok.inj (htrigger.symm.trans htrigger')
      rw [hreuse] at hbad
      push Not at hbad
      exact h.not_guarantees htask hnone hlinked hstatus (.inl hbad)

theorem endWithAttach_spec {committed : TaskDb} (hcommitted : TaskInv owner committed) (h : TaskInv owner db)
    (htask : task ∈ db.tasks.rows.rows) (hnone : task.reminderId = none) (hfresh : db.reminders.get? reminderId = none)
    (ht : t = (endWithAttach committed db
        (attachReminderInner R K owner env db task reminderId date time offset botKey)).committed ∨
      t = (endWithAttach committed db
        (attachReminderInner R K owner env db task reminderId date time offset botKey)).session) :
    (AttachFits R K owner env db.reminders task reminderId date time offset botKey → TaskInv owner t) ∧
      (¬ AttachFits R K owner env db.reminders task reminderId date time offset botKey → ¬ TaskGuarantees t) := by
  cases hattach : attachReminderInner R K owner env db task reminderId date time offset botKey with
  | error e =>
    rw [hattach] at ht
    constructor
    · rcases ht with rfl | rfl
      · exact fun _ => hcommitted
      · exact fun _ => h
    · intro hn
      obtain ⟨db', hdb'⟩ := exists_attach_of_not_fits hfresh hn
      rw [hattach] at hdb'
      cases hdb'
  | ok db' =>
    rw [hattach] at ht
    obtain rfl : t = db' := by rcases ht with rfl | rfl <;> rfl
    exact attach_spec h htask hnone hfresh hattach

/-! ### The calls -/

/-- What holds of both outcomes of a call. -/
def TaskResult.All (P : TaskDb → Prop) (result : TaskResult) : Prop := P result.committed ∧ P result.session

theorem TaskResult.All.ok {P : TaskDb → Prop} (h : P db) : (TaskResult.ok db).All P := ⟨h, h⟩

theorem TaskResult.All.of_step {P : TaskDb → Prop} {result : TaskResult} (h : result.All P)
    (ht : t = result.committed ∨ t = result.session) : P t := by
  rcases ht with rfl | rfl
  · exact h.1
  · exact h.2

theorem TaskInv.unlinked (set : Task → Task) (h : TaskInv owner db) (hget : db.tasks.get? id = some task)
    (hrows : db'.tasks.rows.rows = changeRows id set db.tasks.rows.rows) (hid : ∀ task, (set task).id = task.id)
    (hreminders : db'.reminders = db.reminders) (hnone : task.reminderId = none) (hlink : (set task).reminderId = none) :
    TaskInv owner db' := by
  refine h.of_change set hget hrows hid ?_ ?_ (.inl hlink)
  · rw [hreminders]
    exact fun row hrow => ⟨row, hrow, rfl, rfl⟩
  · rw [hreminders]
    exact fun row hrow _ => ⟨hrow, fun hlinked => by rw [hnone] at hlinked; cases hlinked⟩

/-- A change of the task after which its reminder is dropped. -/
theorem TaskInv.dropReminder {change : TaskChange} (h : TaskInv owner db) (hget : db.tasks.get? id = some task)
    (hlink : (change.set task).reminderId = task.reminderId) :
    TaskInv owner ((db.modify id change).dropReminder owner env task) := by
  have htid : task.id = id := (Keyed.get?_eq_some.mp hget).2
  unfold TaskDb.dropReminder
  split
  next hnone => exact h.unlinked change.set hget rows_modify change.id rfl hnone (hlink.trans hnone)
  next linked hlinked =>
    rw [htid]
    refine h.drop (clearOffset.set ∘ unlinkReminder.set ∘ change.set) hget ?_ change.id hlinked rfl (.inl rfl)
    rw [rows_modify, rows_modify]
    show changeRows id _ (changeRows id _ (db.modify id change).tasks.rows.rows) = _
    rw [rows_modify, changeRows_changeRows change.set _ change.id,
      changeRows_changeRows (unlinkReminder.set ∘ change.set) _ change.id]

theorem complete_inv (h : TaskInv owner db) (id : String) : (complete owner env db id).All (TaskInv owner) := by
  unfold complete
  split
  · exact .ok h
  next task hget =>
    split
    · exact .ok h
    · split
      · exact .ok (h.dropReminder hget rfl)
      next hrule =>
        refine .ok (h.keep (markCompleted env.now).set hget rows_modify (markCompleted env.now).id rfl rfl rfl fun hq => ?_)
        -- a recurring task is not quiet when it is completed
        rcases hq with hcancelled | ⟨-, hnone⟩
        · cases hcancelled
        · exact absurd hnone hrule

theorem uncomplete_inv (h : TaskInv owner db) (id : String) : (uncomplete env db id).All (TaskInv owner) := by
  unfold uncomplete
  split
  · exact .ok h
  next task hget =>
    split
    · exact .ok h
    · split
      · exact ⟨h, h⟩
      next tasks hcommit =>
        refine .ok (h.keep (fun task => { task with status := .pending, completedAt := none, updatedAt := env.now }) hget
          ?_ (fun _ => rfl) rfl rfl rfl fun hq => ?_)
        · rw [Indexed.rows_commit? hcommit]
          simp [changeRows]
        · rcases hq with hcancelled | ⟨hcompleted, -⟩
          · cases hcancelled
          · cases hcompleted

theorem cancelTask_inv (h : TaskInv owner db) (id : String) : (cancelTask owner env db id).All (TaskInv owner) := by
  unfold cancelTask
  split
  · exact .ok h
  next task hget =>
    split
    · exact .ok h
    · exact .ok (h.dropReminder hget rfl)

theorem deleteTask_inv (h : TaskInv owner db) (id : String) : (deleteTask owner env db id).All (TaskInv owner) := by
  unfold deleteTask
  split
  · exact .ok h
  next task hget => exact .ok (h.delete hget)

theorem detachReminder_inv (h : TaskInv owner db) (id : String) :
    (detachReminder owner env db id).All (TaskInv owner) := by
  unfold detachReminder
  split
  · exact .ok h
  next task hget =>
    refine .ok ?_
    have htid : task.id = id := (Keyed.get?_eq_some.mp hget).2
    unfold TaskDb.dropReminder
    split
    next hnone =>
      refine h.unlinked ((touch env.now).set ∘ clearOffset.set ∘ unlinkReminder.set) hget ?_ (fun _ => rfl) rfl hnone rfl
      rw [rows_modify, rows_modify, rows_modify, changeRows_changeRows unlinkReminder.set _ unlinkReminder.id,
        changeRows_changeRows (clearOffset.set ∘ unlinkReminder.set) _ fun _ => rfl]
    next linked hlinked =>
      rw [htid]
      refine h.drop ((touch env.now).set ∘ clearOffset.set ∘ unlinkReminder.set ∘ clearOffset.set ∘ unlinkReminder.set)
        hget ?_ (fun _ => rfl) hlinked rfl (.inl rfl)
      rw [rows_modify, rows_modify, rows_modify, rows_modify, rows_modify,
        changeRows_changeRows unlinkReminder.set _ unlinkReminder.id,
        changeRows_changeRows (clearOffset.set ∘ unlinkReminder.set) _ fun _ => rfl,
        changeRows_changeRows unlinkReminder.set _ unlinkReminder.id,
        changeRows_changeRows (clearOffset.set ∘ unlinkReminder.set) _ fun _ => rfl]
      rfl

theorem TaskInv.insert (h : TaskInv owner db) (hinsert : db.insert? task = some db') (hnone : task.reminderId = none) :
    TaskInv owner db' ∧ task ∈ db'.tasks.rows.rows ∧ db'.reminders = db.reminders := by
  obtain ⟨tasks, htasks, rfl⟩ := Option.map_eq_some_iff.mp hinsert
  obtain ⟨rows, hrows, hcommit⟩ := Option.bind_eq_some_iff.mp htasks
  have heq : tasks.rows.rows = db.tasks.rows.rows ++ [task] := by
    rw [Indexed.rows_commit? hcommit, Keyed.rows_insert? hrows]
  refine ⟨h.of_rows (fun row hrow => ⟨row, hrow, rfl, rfl⟩) (fun _ hrow _ => hrow) (fun t ht linked hlinked => ?_)
    fun row hrow hp t ht hlink => ⟨t, heq ▸ List.mem_append_left _ ht, rfl, hlink⟩, ?_, rfl⟩
  · rw [heq, List.mem_append, List.mem_singleton] at ht
    rcases ht with ht | rfl
    · exact ⟨t, ht, rfl, hlinked, rfl, fun _ _ _ _ hq => hq⟩
    · rw [hnone] at hlinked
      cases hlinked
  · rw [heq]
    exact List.mem_append_right _ (List.mem_singleton_self task)

theorem addIdempotent_inv (h : TaskInv owner db) (ctx : ToolRuntimeContext) (id : String) (args : AddArgs) :
    (addIdempotent K owner env db ctx id args).All (TaskInv owner) := by
  unfold addIdempotent
  split
  · exact ⟨h, h⟩
  · dsimp only
    split
    · exact .ok h
    · split
      · exact .ok h
      · split
        · exact ⟨h, h⟩
        next db' hinsert => exact .ok (h.insert hinsert rfl).1

/-! ### The calls that attach -/

theorem fits_add {args : AddArgs} {offset date time : ℤ} (hblank : strip args.title ≠ [])
    (hoff : args.reminderOffsetMinutes = some offset) (hdate : args.scheduledDate = some date)
    (htime : args.timeStart = some time) :
    (TaskOp.add id reminderId args).Fits R K owner env db ↔
      AttachFits R K owner env db.reminders (newTask env id args none none) reminderId date time offset env.botKey := by
  simp [TaskOp.Fits, hblank, hoff, hdate, htime]

theorem fits_update {patch : TaskPatch} {offset date time : ℤ} (hget : db.tasks.get? id = some task)
    (hlinked : task.reminderId = some linked) (hoff : task.reminderOffsetMinutes = some offset)
    (hchanged : task.scheduleChanged patch = true) (hdate : (task.patched env.now patch).scheduledDate = some date)
    (htime : (task.patched env.now patch).timeStart = some time) :
    (TaskOp.update id reminderId patch).Fits R K owner env db ↔
      AttachFits R K owner env (cancelReminder owner env db.reminders linked) (task.patched env.now patch) reminderId
        date time offset ((db.reminders.get? linked).elim env.botKey fun old => some old.botKey) := by
  constructor
  · exact fun hfits => hfits task linked offset date time hget hlinked hoff hchanged hdate htime
  · intro hfits task' linked' offset' date' time' hget' hlinked' hoff' _ hdate' htime'
    obtain rfl := Option.some.inj (hget.symm.trans hget')
    obtain rfl := Option.some.inj (hlinked.symm.trans hlinked')
    obtain rfl := Option.some.inj (hoff.symm.trans hoff')
    obtain rfl := Option.some.inj (hdate.symm.trans hdate')
    obtain rfl := Option.some.inj (htime.symm.trans htime')
    exact hfits

theorem fits_attachReminder {offset date time : ℤ} (hget : db.tasks.get? id = some task)
    (hdate : task.scheduledDate = some date) (htime : task.timeStart = some time) :
    (TaskOp.attachReminder id reminderId offset).Fits R K owner env db ↔
      AttachFits R K owner env (task.reminderId.elim db.reminders (cancelReminder owner env db.reminders)) task
        reminderId date time offset env.botKey := by
  constructor
  · exact fun hfits => hfits task date time hget hdate htime
  · intro hfits task' date' time' hget' hdate' htime'
    obtain rfl := Option.some.inj (hget.symm.trans hget')
    obtain rfl := Option.some.inj (hdate.symm.trans hdate')
    obtain rfl := Option.some.inj (htime.symm.trans htime')
    exact hfits

/-- What the condition says of a call: it keeps the invariant when the condition holds, and breaks a
promise when it does not. -/
def Decides (owner : TaskOwner) (fits : Prop) (t : TaskDb) : Prop :=
  (fits → TaskInv owner t) ∧ (¬ fits → ¬ TaskGuarantees t)

theorem Decides.of_inv {fits : Prop} (h : TaskInv owner t) (hfits : fits) : Decides owner fits t :=
  ⟨fun _ => h, fun hn => absurd hfits hn⟩

theorem add_decides (h : TaskInv owner db) (id reminderId : String) (args : AddArgs)
    (hfresh : (TaskOp.add id reminderId args).Fresh db)
    (ht : t = (add R K owner env db id reminderId args).committed ∨ t = (add R K owner env db id reminderId args).session) :
    Decides owner ((TaskOp.add id reminderId args).Fits R K owner env db) t := by
  unfold add at ht
  split at ht
  next hblank =>
    obtain rfl : t = db := by rcases ht with rfl | rfl <;> rfl
    exact .of_inv h fun hn => absurd hblank hn
  next hblank =>
    split at ht
    next ctx hctx hoff =>
      refine .of_inv ((addIdempotent_inv h ctx id args).of_step ht) fun _ offset date time ho => ?_
      rw [hoff] at ho
      cases ho
    next offset' hnot =>
      dsimp only at ht
      split at ht
      next hinsert =>
        -- the id of the task is fresh, so the row is inserted
        exfalso
        have hrows : ∃ rows, db.tasks.rows.insert? (newTask env id args none none) = some rows := by
          refine Option.ne_none_iff_exists'.mp fun hn => ?_
          obtain ⟨other, hother, hid⟩ := Keyed.insert?_eq_none.mp hn
          exact Keyed.get?_eq_none.mp hfresh.1 other hother hid
        obtain ⟨rows, hrows⟩ := hrows
        have hunique : (rows.rows.filterMap Task.pendingKey).Nodup := by
          rw [Keyed.rows_insert? hrows, List.filterMap_append]
          simpa [newTask, Task.pendingKey] using db.tasks.unique
        rw [TaskDb.insert?, hrows, Option.bind_some, Indexed.commit?, dif_pos hunique] at hinsert
        cases hinsert
      next db' hinsert =>
        obtain ⟨hinv, htask, hreminders⟩ := h.insert hinsert rfl
        split at ht
        next offset date time hoff hdate htime =>
          have hspec := endWithAttach_spec h hinv htask rfl (hreminders ▸ hfresh.2) ht
          rw [hreminders] at hspec
          rw [Decides, fits_add hblank hoff hdate htime]
          exact hspec
        next hmissing =>
          obtain rfl : t = db' := by rcases ht with rfl | rfl <;> rfl
          refine .of_inv hinv fun _ offset date time hoff hdate htime => ?_
          exact (hmissing offset date time hoff hdate htime).elim

/-- Without a change of the schedule the rule stays. -/
theorem recurrenceRule_patched {now : ℤ} {patch : TaskPatch} (h : task.scheduleChanged patch = false) :
    (task.patched now patch).recurrenceRule = task.recurrenceRule := by
  simp only [Task.scheduleChanged, Bool.or_eq_false_iff, Bool.and_eq_false_iff, bne_eq_false_iff_eq] at h
  simp only [Task.patched]
  split
  next hsome =>
    rcases h.2 with hnone | hsame
    · rw [hsome] at hnone
      cases hnone
    · exact hsame
  · rfl

theorem updateTask_decides (h : TaskInv owner db) (id reminderId : String) (patch : TaskPatch)
    (hfresh : db.reminders.get? reminderId = none)
    (ht : t = (updateTask R K owner env db id reminderId patch).committed ∨
      t = (updateTask R K owner env db id reminderId patch).session) :
    Decides owner ((TaskOp.update id reminderId patch).Fits R K owner env db) t := by
  unfold updateTask at ht
  split at ht
  next hget =>
    obtain rfl : t = db := by rcases ht with rfl | rfl <;> rfl
    refine .of_inv h fun task linked offset date time hget' => ?_
    rw [hget] at hget'
    cases hget'
  next task hget =>
    obtain ⟨hmem, htid⟩ := Keyed.get?_eq_some.mp hget
    dsimp only at ht
    split at ht
    next linked offset hlinked hoff =>
      split at ht
      next hchanged =>
        -- the old reminder is cancelled first
        have hrows : ({ db.modify id (patchTask env.now patch) with
              reminders := cancelReminder owner env db.reminders linked }.modify id unlinkReminder).tasks.rows.rows =
            changeRows id (unlinkReminder.set ∘ (patchTask env.now patch).set) db.tasks.rows.rows := by
          rw [rows_modify]
          show changeRows id _ (db.modify id (patchTask env.now patch)).tasks.rows.rows = _
          rw [rows_modify, changeRows_changeRows _ _ (patchTask env.now patch).id]
        split at ht
        next date time hdate htime =>
          have hinv := h.drop _ hget hrows (patchTask env.now patch).id hlinked rfl (.inl rfl)
          have htask : { task.patched env.now patch with reminderId := none } ∈
              ({ db.modify id (patchTask env.now patch) with
                reminders := cancelReminder owner env db.reminders linked }.modify id unlinkReminder).tasks.rows.rows := by
            rw [hrows]
            exact mem_changeRows.mpr ⟨task, hmem, if_pos htid⟩
          have hspec := endWithAttach_spec h hinv htask rfl (get?_cancelReminder hfresh) ht
          rw [Decides, fits_update hget hlinked hoff hchanged hdate htime]
          exact hspec
        next hmissing =>
          have hinv : TaskInv owner (({ db.modify id (patchTask env.now patch) with
              reminders := cancelReminder owner env db.reminders linked }.modify id unlinkReminder).modify id clearOffset) := by
            refine h.drop (clearOffset.set ∘ unlinkReminder.set ∘ (patchTask env.now patch).set) hget ?_
              (patchTask env.now patch).id hlinked rfl (.inl rfl)
            rw [rows_modify, hrows,
              changeRows_changeRows (unlinkReminder.set ∘ (patchTask env.now patch).set) _ (patchTask env.now patch).id]
          refine .of_inv ((TaskResult.All.ok hinv).of_step ht) ?_
          intro task' linked' offset' date time hget' _ _ _ hdate htime
          obtain rfl := Option.some.inj (hget.symm.trans hget')
          exact (hmissing date time hdate htime).elim
      next hchanged =>
        rw [Bool.not_eq_true] at hchanged
        have hinv : TaskInv owner (db.modify id (patchTask env.now patch)) := by
          refine h.keep _ hget rows_modify (patchTask env.now patch).id rfl rfl rfl fun hq => .inl ?_
          rcases hq with hcancelled | ⟨hcompleted, hrule⟩
          · exact .inl hcancelled
          · refine .inr ⟨hcompleted, ?_⟩
            rwa [show ((patchTask env.now patch).set task).recurrenceRule = _ from recurrenceRule_patched hchanged] at hrule
        refine .of_inv ((TaskResult.All.ok hinv).of_step ht) ?_
        intro task' linked' offset' date time hget' _ _ hchanged'
        obtain rfl := Option.some.inj (hget.symm.trans hget')
        rw [hchanged] at hchanged'
        cases hchanged'
    next hmissing =>
      -- a task with a reminder has an offset, so this one has no reminder
      have hnone : task.reminderId = none := by
        cases hlinked : task.reminderId with
        | none => rfl
        | some linked =>
          obtain ⟨offset, hoff⟩ := Option.isSome_iff_exists.mp (h.linked task hmem linked hlinked).1
          exact (hmissing linked offset hlinked hoff).elim
      refine .of_inv ((TaskResult.All.ok (h.unlinked _ hget rows_modify (patchTask env.now patch).id rfl hnone hnone)).of_step ht) ?_
      intro task' linked' offset' date time hget' hlinked'
      obtain rfl := Option.some.inj (hget.symm.trans hget')
      rw [hnone] at hlinked'
      cases hlinked'

theorem attachReminder_decides (h : TaskInv owner db) (id reminderId : String) (offset : ℤ)
    (hfresh : db.reminders.get? reminderId = none)
    (ht : t = (attachReminder R K owner env db id reminderId offset).committed ∨
      t = (attachReminder R K owner env db id reminderId offset).session) :
    Decides owner ((TaskOp.attachReminder id reminderId offset).Fits R K owner env db) t := by
  unfold attachReminder at ht
  split at ht
  next hget =>
    obtain rfl : t = db := by rcases ht with rfl | rfl <;> rfl
    refine .of_inv h fun task date time hget' => ?_
    rw [hget] at hget'
    cases hget'
  next task hget =>
    obtain ⟨hmem, htid⟩ := Keyed.get?_eq_some.mp hget
    split at ht
    next date time hdate htime =>
      rw [Decides, fits_attachReminder hget hdate htime]
      split at ht
      next hnone =>
        rw [hnone]
        exact endWithAttach_spec h h hmem hnone hfresh ht
      next linked hlinked =>
        rw [hlinked]
        have hcommitted : TaskInv owner { db with reminders := cancelReminder owner env db.reminders linked } :=
          h.drop (fun task => task) hget (by simp [changeRows]) (fun _ => rfl) hlinked rfl (.inr ⟨rfl, rfl⟩)
        have hinv : TaskInv owner
            ({ db with reminders := cancelReminder owner env db.reminders linked }.modify id unlinkReminder) :=
          h.drop _ hget rows_modify unlinkReminder.id hlinked rfl (.inl rfl)
        have htask : { task with reminderId := none } ∈
            ({ db with reminders := cancelReminder owner env db.reminders linked }.modify id unlinkReminder).tasks.rows.rows := by
          rw [rows_modify]
          exact mem_changeRows.mpr ⟨task, hmem, if_pos htid⟩
        have hspec := endWithAttach_spec hcommitted hinv htask rfl (get?_cancelReminder hfresh) ht
        exact hspec
    next hmissing =>
      obtain rfl : t = db := by rcases ht with rfl | rfl <;> rfl
      refine .of_inv h fun task' date time hget' hdate htime => ?_
      obtain rfl := Option.some.inj (hget.symm.trans hget')
      exact (hmissing date time hdate htime).elim

/-! ### Runs -/

/-- **One call**: it keeps the invariant when it meets the condition, and breaks a promise when it does
not. -/
theorem step_decides {call : TaskEnv × TaskOp} (h : TaskInv owner db)
    (hs : (taskRuns R K owner).step db call t) : Decides owner (CallFits R K owner db call) t := by
  obtain ⟨env, op⟩ := call
  obtain ⟨hfresh, ht⟩ := hs
  cases op with
  | add id reminderId args => exact add_decides h id reminderId args hfresh ht
  | update id reminderId patch => exact updateTask_decides h id reminderId patch hfresh ht
  | attachReminder id reminderId offset => exact attachReminder_decides h id reminderId offset hfresh ht
  | complete id => exact .of_inv ((complete_inv h id).of_step ht) trivial
  | uncomplete id => exact .of_inv ((uncomplete_inv h id).of_step ht) trivial
  | cancel id => exact .of_inv ((cancelTask_inv h id).of_step ht) trivial
  | delete id => exact .of_inv ((deleteTask_inv h id).of_step ht) trivial
  | detachReminder id => exact .of_inv ((detachReminder_inv h id).of_step ht) trivial

theorem taskInv (h : ((taskRuns R K owner).guard (CallFits R K owner)).Reachable db) : TaskInv owner db := by
  refine Lts.Reachable.induct (P := TaskInv owner) ?_ ?_ h
  · rintro db ⟨hempty, hnone⟩
    refine ⟨?_, fun row hrow _ id hmemo => absurd ⟨id, hmemo⟩ (hnone row hrow), ?_, ?_⟩ <;> simp [hempty]
  · rintro db call t - hinv ⟨hs, hfits⟩
    exact (step_decides hinv hs).1 hfits

/-- **The reminders of tasks**: in every run whose calls attach only what fits, the reminders are as
promised; and after any further call they are exactly when it does the same. -/
theorem task_reminders (R : RRule) (K : DedupKeys) (owner : TaskOwner) (db : TaskDb)
    (h : ((taskRuns R K owner).guard (CallFits R K owner)).Reachable db) :
    TaskGuarantees db ∧
      ∀ call t, (taskRuns R K owner).step db call t → (TaskGuarantees t ↔ CallFits R K owner db call) := by
  refine ⟨(taskInv h).guarantees, fun call t hs => ?_⟩
  obtain ⟨hkeep, hbreak⟩ := step_decides (taskInv h) hs
  exact ⟨fun hg => not_not.mp fun hn => hbreak hn hg, fun hfits => (hkeep hfits).guarantees⟩

/-! ### A reminder on a cancelled task -/

/-- Outside of a turn no key is read. -/
def noKeys : DedupKeys := ⟨fun _ _ _ _ _ => "", fun _ _ _ _ _ => "", fun _ _ _ _ _ _ => "", fun _ _ _ _ _ _ => ""⟩

def firstOwner : TaskOwner := ⟨"tenant_1", "user_1"⟩

/-- A task with a reminder a quarter of an hour before it. -/
def dentistArgs : AddArgs :=
  { title := "dentist".toList, scheduledDate := some 100, timeStart := some 36000000000, reminderOffsetMinutes := some 15 }

/-- No tasks and no reminders. -/
def emptyDb : TaskDb := ⟨.empty, .empty⟩

/-- The task is added. -/
def dentistDb : TaskDb :=
  ((TaskOp.add "task_1" "rem_1" dentistArgs).run noRules noKeys firstOwner { now := 0 } emptyDb).committed

/-- The task is cancelled. -/
def cancelledDb : TaskDb :=
  ((TaskOp.cancel "task_1").run noRules noKeys firstOwner { now := 1 } dentistDb).committed

theorem dentistDb_reachable :
    ((taskRuns noRules noKeys firstOwner).guard (CallFits noRules noKeys firstOwner)).Reachable dentistDb := by
  have hinit : (taskRuns noRules noKeys firstOwner).init emptyDb := ⟨rfl, by simp [emptyDb, Indexed.empty]⟩
  refine (Lts.Hist.init (L := (taskRuns noRules noKeys firstOwner).guard _) hinit).reachable.step
    (a := ({ now := 0 }, .add "task_1" "rem_1" dentistArgs)) ⟨⟨⟨rfl, rfl⟩, .inl rfl⟩, ?_⟩
  -- nothing is reused, and a new task is not quiet
  rintro - offset date time - - - trigger row - -
  show ¬ Task.Quiet _
  rintro (hcancelled | ⟨hcompleted, -⟩)
  · cases hcancelled
  · cases hcompleted

theorem cancelledDb_reachable :
    ((taskRuns noRules noKeys firstOwner).guard (CallFits noRules noKeys firstOwner)).Reachable cancelledDb :=
  dentistDb_reachable.step (a := ({ now := 1 }, .cancel "task_1")) ⟨⟨trivial, .inl rfl⟩, trivial⟩

/-- The reminder of the task that was added. -/
theorem task_reminders_dentistDb : TaskGuarantees dentistDb ∧
    ∀ call t, (taskRuns noRules noKeys firstOwner).step dentistDb call t →
      (TaskGuarantees t ↔ CallFits noRules noKeys firstOwner dentistDb call) :=
  task_reminders noRules noKeys firstOwner dentistDb dentistDb_reachable

/-- **A reminder on a cancelled task**: `attach_reminder` does not look at the status. -/
theorem attach_to_cancelled : ¬ ∀ R K owner db, (taskRuns R K owner).Reachable db → TaskGuarantees db := by
  intro h
  have hstep : (taskRuns noRules noKeys firstOwner).step cancelledDb ({ now := 2 }, .attachReminder "task_1" "rem_2" 15)
      ((TaskOp.attachReminder "task_1" "rem_2" 15).run noRules noKeys firstOwner { now := 2 } cancelledDb).committed :=
    ⟨rfl, .inl rfl⟩
  refine (step_decides (taskInv cancelledDb_reachable) hstep).2 (fun hfits => ?_)
    (h noRules noKeys firstOwner _ (cancelledDb_reachable.of_guard.step hstep))
  obtain ⟨task, hget, hstatus, hdate, htime, hrule⟩ : ∃ task, cancelledDb.tasks.get? "task_1" = some task ∧
      task.status = .cancelled ∧ task.scheduledDate = some 100 ∧ task.timeStart = some 36000000000 ∧
      task.recurrenceRule = none := ⟨_, rfl, rfl, rfl, rfl, rfl⟩
  have hattach := hfits task 100 36000000000 hget hdate htime
  obtain ⟨trigger, htrigger⟩ : ∃ trigger, attachTrigger noRules { now := 2 } task 100 36000000000 15 = .ok trigger := by
    simp [attachTrigger, hrule, truthy]
  obtain ⟨row, hrow⟩ : ∃ row, scheduleRow noRules noKeys firstOwner { now := 2 } "rem_2"
      (attachArgs firstOwner task trigger none) = .ok row := by
    simp [scheduleRow, scheduledRow, initialNextTriggerAt, attachArgs, hrule, truthy, ctxGuards, Except.map]
  exact hattach trigger row htrigger hrow (.inl hstatus)

end Sreda.Services
