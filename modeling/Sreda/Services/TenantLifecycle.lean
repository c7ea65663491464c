import Sreda.Services.Reminders
import Sreda.Workers.OutboxDelivery

/-!
# The deletion of a tenant and its end

`services/tenant_lifecycle.py`: `soft_delete_tenant` marks a tenant as deleted and drains what waits to be
done for it; `restore_tenant` takes the mark away and clears the window of the deletion: what would have been
due, or has arrived, between its two ends. Both write an audit row and commit it with the rest, or raise.

A call begins with a clean session. The advisory lock makes the calls for a tenant wait for each other; the
calls come at any times. Left out: the columns of the rows that neither call reads or writes.

## What is proved

* what becomes of the rows (`drained`, `windowCleared`);
* what a call commits and what it leaves in the session (`exec_cases`);
* the guarantees of the two calls in every run (`tenant_lifecycle`).
-/

namespace Sreda.Services

open Sreda.Lib
open Sreda.Workers (MessageJob JobTable OutboxMessage)

/-! ### The tables -/

/-- `Tenant`. -/
structure Tenant where
  id : String
  deletedAt : Option ℤ
  deriving DecidableEq

/-- The values of `InboundEvent.status`. -/
inductive EventStatus where
  | new | needsClassification | classified | consumed | skipped
  deriving DecidableEq

/-- `_INBOUND_NON_TERMINAL`. -/
def EventStatus.nonTerminal : EventStatus → Bool
  | .new | .needsClassification | .classified => true
  | .consumed | .skipped => false

/-- `InboundEvent`. -/
structure InboundEvent where
  id : String
  tenantId : String
  status : EventStatus
  statusReason : Option String
  createdAt : ℤ
  classifiedAt : Option ℤ
  deriving DecidableEq

/-- A row of the outbox under its id and its tenant. -/
structure TenantOutbox where
  id : String
  tenantId : String
  message : OutboxMessage
  deriving DecidableEq

/-- `AuditLog`, with the metadata of a lifecycle action. -/
structure AuditLog where
  actorType : String
  actorId : Option String
  action : String
  resourceType : String
  resourceId : String
  source : Option String
  reason : Option String
  previousDeletedAt : Option ℤ
  createdAt : ℤ
  deriving DecidableEq

/-- The tables of the two calls. -/
structure LifecycleDb where
  tenants : Keyed Tenant.id
  reminders : ReminderTable
  events : Keyed InboundEvent.id
  outbox : Keyed TenantOutbox.id
  jobs : JobTable
  audit : List AuditLog

/-- `tenants.deleted_at`. -/
def LifecycleDb.deletedAt (db : LifecycleDb) (tenantId : String) : Option ℤ :=
  (db.tenants.get? tenantId).bind (·.deletedAt)

/-! ### What becomes of the rows -/

/-- `_DRAIN_REASON`. -/
def drainReason : String := "tenant_deleted"

/-- An event that is skipped. -/
def InboundEvent.drained (event : InboundEvent) : InboundEvent :=
  { event with status := .skipped, statusReason := some drainReason }

@[simp] theorem InboundEvent.id_drained (event : InboundEvent) : event.drained.id = event.id := rfl

/-- A message that is dropped. -/
def TenantOutbox.drained (row : TenantOutbox) : TenantOutbox :=
  { row with message := { row.message with status := .dropped, dropReason := some drainReason } }

@[simp] theorem TenantOutbox.id_drained (row : TenantOutbox) : row.drained.id = row.id := rfl

/-- A job that is done. -/
def drainedJob (now : ℤ) : JobTable.SetClause where
  set job := { job with status := .done, finishedAt := some now, lastError := some drainReason }
  id_set _ := rfl
  dedupKey_set _ := rfl
  threadId_set _ := rfl
  enqueuedAt_set _ := rfl

/-- The event was created or classified in a window; a comparison with NULL is not true. -/
def InboundEvent.inWindow (event : InboundEvent) (deletedAt restoredAt : ℤ) : Bool :=
  decide (deletedAt ≤ event.createdAt ∧ event.createdAt ≤ restoredAt) ||
    event.classifiedAt.any fun classifiedAt => deletedAt ≤ classifiedAt ∧ classifiedAt ≤ restoredAt

/-- A tenant with another mark. -/
def Tenant.marked (tenant : Tenant) (deletedAt : Option ℤ) : Tenant := { tenant with deletedAt := deletedAt }

@[simp] theorem Tenant.id_marked (tenant : Tenant) (deletedAt : Option ℤ) : (tenant.marked deletedAt).id = tenant.id := rfl

theorem id_restored (R : RRule) (deletedAt restoredAt : ℤ) (row : FamilyReminder) :
    (row.restored R deletedAt restoredAt).id = row.id := by
  unfold FamilyReminder.restored
  split
  · split
    · rfl
    · split <;> rfl
  · rfl

/-- A reminder of a cleared window keeps its entry in the index, or loses it. -/
theorem pendingKey_restored (R : RRule) (deletedAt restoredAt : ℤ) (row : FamilyReminder) :
    (row.restored R deletedAt restoredAt).pendingKey = none ∨
      (row.restored R deletedAt restoredAt).pendingKey = row.pendingKey := by
  unfold FamilyReminder.restored
  split
  · split
    · exact .inl rfl
    · split
      · exact .inl rfl
      · exact .inr rfl
  · exact .inr rfl

section Writes

variable (R : RRule) (db : LifecycleDb) (tenantId : String)

/-- What `soft_delete_tenant` writes. -/
def LifecycleDb.markDeleted (now : ℤ) : LifecycleDb :=
  { db with
    tenants := db.tenants.update (·.id = tenantId) (·.marked (some now)) (·.id_marked (some now))
    outbox := db.outbox.update (fun row => row.tenantId = tenantId && row.message.status = .pending) (·.drained)
      (·.id_drained)
    jobs := (db.jobs.update (drainedJob now) fun job =>
      job.tenantId = tenantId && (job.status = .pending || job.status = .processing)).1
    events := db.events.update (fun event => event.tenantId = tenantId && event.status.nonTerminal) (·.drained)
      (·.id_drained) }

/-- What `restore_tenant` writes. The reminders of the window with a rule and those without one are two
statements, on different rows. -/
def LifecycleDb.markRestored (deletedAt restoredAt : ℤ) : LifecycleDb :=
  { db with
    tenants := db.tenants.update (·.id = tenantId) (·.marked none) (·.id_marked none)
    reminders := db.reminders.retire (·.tenantId = tenantId) (·.restored R deletedAt restoredAt)
      (id_restored R deletedAt restoredAt) (pendingKey_restored R deletedAt restoredAt)
    events := db.events.update
      (fun event => event.tenantId = tenantId && event.status.nonTerminal && event.inWindow deletedAt restoredAt)
      (·.drained) (·.id_drained) }

end Writes

/-! ### The calls -/

/-- The session of a call: what is committed, and what it has written. -/
structure LifecycleSession where
  committed : LifecycleDb
  pending : LifecycleDb

namespace LifecycleSession

def commit (session : LifecycleSession) : LifecycleSession := ⟨session.pending, session.pending⟩

def rollback (session : LifecycleSession) : LifecycleSession := ⟨session.committed, session.committed⟩

end LifecycleSession

/-- The arguments of a call, and whether its audit row can be flushed. -/
structure LifecycleCall where
  tenantId : String
  actorType : Option String
  actorId : Option String
  source : Option String
  reason : Option String
  auditAction : String
  flushes : Bool
  deriving DecidableEq

/-- `RuntimeError`: the audit row was not written. -/
inductive LifecycleError where
  | auditWriteFailed
  deriving DecidableEq

/-- `_VALID_ACTOR_TYPES`. -/
def validActorTypes : List String := ["admin", "user", "system"]

/-- `audit_event` without a commit: a flush that fails rolls the session back. -/
def auditEvent (session : LifecycleSession) (row : AuditLog) (flushes : Bool) : LifecycleSession × Option AuditLog :=
  if row.actorType ∉ validActorTypes then (session, none)
  else if flushes then
    ({ session with pending := { session.pending with audit := session.pending.audit ++ [row] } }, some row)
  else (session.rollback, none)

/-- `_write_lifecycle_audit`. -/
def writeLifecycleAudit (session : LifecycleSession) (call : LifecycleCall) (previousDeletedAt : Option ℤ) (now : ℤ) :
    LifecycleSession × Option AuditLog :=
  match truthy call.actorType with
  | none => (session, none)
  | some actorType =>
    if call.auditAction = "" then (session, none)
    else auditEvent session
      ⟨actorType, call.actorId, call.auditAction, "tenant", call.tenantId, call.source, call.reason, previousDeletedAt, now⟩
      call.flushes

/-- The end of both calls: the audit row, then the commit; without a row that is due, a rollback. -/
def LifecycleSession.finish (session : LifecycleSession) (call : LifecycleCall) (previousDeletedAt : Option ℤ) (now : ℤ) :
    LifecycleSession × Except LifecycleError Bool :=
  let (session, auditRow) := writeLifecycleAudit session call previousDeletedAt now
  if call.actorType.isSome && auditRow.isNone then (session.rollback, .error .auditWriteFailed)
  else (session.commit, .ok true)

/-- `soft_delete_tenant`. -/
def softDeleteTenant (db : LifecycleDb) (call : LifecycleCall) (now : ℤ) : LifecycleSession × Except LifecycleError Bool :=
  let session : LifecycleSession := ⟨db, db⟩
  match db.tenants.get? call.tenantId with
  | none => (session.commit, .ok false)
  | some tenant =>
    match tenant.deletedAt with
    | some _ => (session.commit, .ok false)
    | none => LifecycleSession.finish { session with pending := db.markDeleted call.tenantId now } call none now

/-- `restore_tenant`. -/
def restoreTenant (R : RRule) (db : LifecycleDb) (call : LifecycleCall) (now : ℤ) :
    LifecycleSession × Except LifecycleError Bool :=
  let session : LifecycleSession := ⟨db, db⟩
  match db.tenants.get? call.tenantId with
  | none => (session.commit, .ok false)
  | some tenant =>
    match tenant.deletedAt with
    | none => (session.commit, .ok false)
    | some deletedAt =>
      LifecycleSession.finish { session with pending := db.markRestored R call.tenantId deletedAt now } call
        (some deletedAt) now

/-! ### The system -/

/-- A call, its moment and its result. -/
inductive LifecycleEvent where
  | softDelete (call : LifecycleCall) (now : ℤ) (result : Except LifecycleError Bool)
  | restore (call : LifecycleCall) (now : ℤ) (result : Except LifecycleError Bool)

namespace LifecycleEvent

/-- What the call makes of the session, and what it returns. -/
def exec (R : RRule) (db : LifecycleDb) : LifecycleEvent → LifecycleSession × Except LifecycleError Bool
  | softDelete call now _ => softDeleteTenant db call now
  | restore call now _ => restoreTenant R db call now

def result : LifecycleEvent → Except LifecycleError Bool
  | softDelete _ _ result | restore _ _ result => result

def tenantId : LifecycleEvent → String
  | softDelete call _ _ | restore call _ _ => call.tenantId

/-- The call deletes the tenant, or ends its deletion. -/
def Turns (tenantId : String) (e : LifecycleEvent) : Prop := e.tenantId = tenantId ∧ e.result = .ok true

/-- The call deletes the tenant at `d`. -/
def Deletes (tenantId : String) (d : ℤ) : LifecycleEvent → Prop
  | softDelete call now result => call.tenantId = tenantId ∧ now = d ∧ result = .ok true
  | restore _ _ _ => False

/-- Two calls of one kind for one tenant. -/
def Same : LifecycleEvent → LifecycleEvent → Prop
  | softDelete call _ _, softDelete call' _ _ | restore call _ _, restore call' _ _ => call'.tenantId = call.tenantId
  | _, _ => False

end LifecycleEvent

/-- The calls, one after the other. -/
def lifecycle (R : RRule) : Lts LifecycleDb LifecycleEvent where
  init _ := True
  step db e db' := (e.exec R db).1.committed = db' ∧ (e.exec R db).2 = e.result

/-! ### What is promised -/

/-- The first occurrence of a rule after an instant: none when the rule does not parse, or nothing is left. -/
def FirstAfter (R : RRule) (rule : String) (dtstart reference : ℤ) : Option ℤ → Prop
  | some next => R.valid rule dtstart = true ∧ IsLeast {u ∈ R.occurrences rule dtstart | reference < u} next
  | none => R.valid rule dtstart = false ∨ ∀ u ∈ R.occurrences rule dtstart, u ≤ reference

/-- A recurring reminder that goes on to another trigger, or is closed. -/
def FamilyReminder.movedTo (row : FamilyReminder) (next : Option ℤ) (restoredAt : ℤ) : FamilyReminder :=
  match next with
  | some next => { row with nextTriggerAt := some next, updatedAt := restoredAt }
  | none => { row with status := .fired, nextTriggerAt := none, updatedAt := restoredAt }

/-- The window of a deletion is cleared. -/
structure WindowCleared (R : RRule) (db db' : LifecycleDb) (tenantId : String) (deletedAt restoredAt : ℤ) : Prop where
  /-- No pending reminder of the tenant is due in the window. -/
  noneDue : ∀ row ∈ db'.reminders.rows.rows, row.tenantId = tenantId → row.status = .pending →
    row.inWindow deletedAt restoredAt = false
  /-- One that was due and recurs goes on to the first occurrence after the window, or is closed. -/
  recurring : ∀ row ∈ db.reminders.rows.rows, row.tenantId = tenantId → row.status = .pending →
    row.inWindow deletedAt restoredAt = true → ∀ rule, row.recurrenceRule = some rule →
    ∃ next, FirstAfter R rule row.triggerAt restoredAt next ∧ row.movedTo next restoredAt ∈ db'.reminders.rows.rows
  /-- One that was due once is cancelled. -/
  oneShot : ∀ row ∈ db.reminders.rows.rows, row.tenantId = tenantId → row.status = .pending →
    row.inWindow deletedAt restoredAt = true → row.recurrenceRule = none →
    { row with status := .cancelled, nextTriggerAt := none, updatedAt := restoredAt } ∈ db'.reminders.rows.rows
  /-- Nothing happens to the other reminders. -/
  reminders : ∀ row ∈ db.reminders.rows.rows,
    (row.tenantId ≠ tenantId ∨ row.status ≠ .pending ∨ row.inWindow deletedAt restoredAt = false) →
    row ∈ db'.reminders.rows.rows
  reminderIds : db'.reminders.rows.rows.map (·.id) = db.reminders.rows.rows.map (·.id)
  /-- No event of the tenant that is not done was created or classified in the window. -/
  noneOpen : ∀ event ∈ db'.events.rows, event.tenantId = tenantId → event.status.nonTerminal = true →
    event.inWindow deletedAt restoredAt = false
  /-- Nothing happens to the other events. -/
  events : ∀ event ∈ db.events.rows, (event.tenantId ≠ tenantId ∨ event.status.nonTerminal = false ∨
    event.inWindow deletedAt restoredAt = false) → event ∈ db'.events.rows
  eventIds : db'.events.rows.map (·.id) = db.events.rows.map (·.id)
  outbox : db'.outbox = db.outbox
  jobs : db'.jobs = db.jobs
  tenants : ∀ tenant ∈ db.tenants.rows, tenant.id ≠ tenantId → tenant ∈ db'.tenants.rows

/-- What waits for a tenant is drained. -/
structure Drained (db db' : LifecycleDb) (tenantId : String) : Prop where
  noneOpen : ∀ event ∈ db'.events.rows, event.tenantId = tenantId → event.status.nonTerminal = false
  noneWaiting : ∀ row ∈ db'.outbox.rows, row.tenantId = tenantId → row.message.status ≠ .pending
  noneQueued : ∀ job ∈ db'.jobs.rows, job.tenantId = tenantId → job.status.terminal = true
  reminders : db'.reminders = db.reminders
  /-- Nothing happens to the rows of other tenants. -/
  events : ∀ event ∈ db.events.rows, event.tenantId ≠ tenantId → event ∈ db'.events.rows
  outbox : ∀ row ∈ db.outbox.rows, row.tenantId ≠ tenantId → row ∈ db'.outbox.rows
  jobs : ∀ job ∈ db.jobs.rows, job.tenantId ≠ tenantId → job ∈ db'.jobs.rows
  tenants : ∀ tenant ∈ db.tenants.rows, tenant.id ≠ tenantId → tenant ∈ db'.tenants.rows

/-- The deletion that a tenant is in has begun at `d`: by the last call that turned it, or before all calls. -/
def DeletionBegun (db₀ : LifecycleDb) (as : List LifecycleEvent) (tenantId : String) (d : ℤ) : Prop :=
  (db₀.deletedAt tenantId = some d ∧ ∀ e ∈ as, ¬ e.Turns tenantId) ∨
    ∃ before e after, as = before ++ e :: after ∧ e.Deletes tenantId d ∧ ∀ e' ∈ after, ¬ e'.Turns tenantId

/-- What the two calls guarantee after some calls. -/
structure LifecycleGuarantees (R : RRule) (db₀ : LifecycleDb) (as : List LifecycleEvent) (db : LifecycleDb) : Prop where
  deletes : ∀ call now db', (lifecycle R).step db (.softDelete call now (.ok true)) db' →
    db'.deletedAt call.tenantId = some now ∧ Drained db db' call.tenantId
  restores : ∀ call now db', (lifecycle R).step db (.restore call now (.ok true)) db' →
    ∃ d, db.deletedAt call.tenantId = some d ∧ DeletionBegun db₀ as call.tenantId d ∧
      db'.deletedAt call.tenantId = none ∧ WindowCleared R db db' call.tenantId d now
  /-- Repeating a call changes nothing. -/
  repeats : ∀ e db' e' db'' b, (lifecycle R).step db e db' → e.result = .ok b → e.Same e' → (lifecycle R).step db' e' db'' →
    db'' = db' ∧ e'.result = .ok false
  /-- A call that raises leaves every row, and nothing that a later commit could write. -/
  raises : ∀ e : LifecycleEvent, (e.exec R db).2 = .error .auditWriteFailed → (e.exec R db).1 = ⟨db, db⟩

/-! ### The rows -/

variable {row : FamilyReminder} {call : LifecycleCall}

section Rows

variable {R : RRule} {db db' : LifecycleDb} {tenantId : String} {deletedAt restoredAt now : ℤ}

/-- A rule is asked for its first occurrence after an instant. -/
theorem firstAfter_compute (R : RRule) (rule : String) (dtstart reference : ℤ) :
    FirstAfter R rule dtstart reference (computeNextOccurrenceAfter R rule dtstart reference) := by
  unfold computeNextOccurrenceAfter
  split
  next hvalid =>
    cases hafter : R.after rule dtstart reference with
    | none => exact .inr (R.after_none hafter)
    | some next => exact ⟨hvalid, R.after_some hafter⟩
  next hinvalid => exact .inl (by simpa using hinvalid)

theorem restored_recurring {rule : String} (hstatus : row.status = .pending)
    (hwindow : row.inWindow deletedAt restoredAt = true) (hrule : row.recurrenceRule = some rule) :
    row.restored R deletedAt restoredAt =
      row.movedTo (computeNextOccurrenceAfter R rule row.triggerAt restoredAt) restoredAt := by
  unfold FamilyReminder.restored FamilyReminder.movedTo
  rw [if_pos ⟨hstatus, hwindow⟩]
  split
  next hnone =>
    rw [hrule] at hnone
    cases hnone
  next other hother =>
    obtain rfl : rule = other := Option.some.inj (hrule.symm.trans hother)
    cases computeNextOccurrenceAfter R rule row.triggerAt restoredAt <;> rfl

theorem restored_oneShot (hstatus : row.status = .pending)
    (hwindow : row.inWindow deletedAt restoredAt = true) (hrule : row.recurrenceRule = none) :
    row.restored R deletedAt restoredAt =
      { row with status := .cancelled, nextTriggerAt := none, updatedAt := restoredAt } := by
  unfold FamilyReminder.restored
  rw [if_pos ⟨hstatus, hwindow⟩]
  split
  · rfl
  next other hother =>
    rw [hrule] at hother
    cases hother

theorem restored_of_outside
    (h : row.status ≠ .pending ∨ row.inWindow deletedAt restoredAt = false) : row.restored R deletedAt restoredAt = row := by
  rw [FamilyReminder.restored, if_neg]
  rintro ⟨hstatus, hwindow⟩
  rcases h with h | h
  · exact h hstatus
  · rw [hwindow] at h
    cases h

/-- No pending reminder of a cleared window is due in it. -/
theorem inWindow_restored (hstatus : (row.restored R deletedAt restoredAt).status = .pending) :
    (row.restored R deletedAt restoredAt).inWindow deletedAt restoredAt = false := by
  by_cases hpending : row.status = .pending
  · cases hwindow : row.inWindow deletedAt restoredAt with
    | false => rwa [restored_of_outside (.inr hwindow)]
    | true =>
      cases hrule : row.recurrenceRule with
      | none =>
        rw [restored_oneShot hpending hwindow hrule] at hstatus
        cases hstatus
      | some rule =>
        rw [restored_recurring hpending hwindow hrule] at hstatus ⊢
        cases hnext : computeNextOccurrenceAfter R rule row.triggerAt restoredAt with
        | none =>
          rw [hnext] at hstatus
          cases hstatus
        | some next =>
          have hlt := lt_of_computeNextOccurrenceAfter hnext
          simpa [FamilyReminder.movedTo, FamilyReminder.inWindow] using fun _ => hlt
  · rw [restored_of_outside (.inl hpending)] at hstatus
    exact absurd hstatus hpending

theorem mem_restored {row' : FamilyReminder} : row' ∈ (db.markRestored R tenantId deletedAt restoredAt).reminders.rows.rows ↔
    ∃ row ∈ db.reminders.rows.rows, row' = if row.tenantId = tenantId then row.restored R deletedAt restoredAt else row := by
  have hmem := Keyed.mem_update (t := db.reminders.rows) (p := fun row => row.tenantId = tenantId)
    (id_restored R deletedAt restoredAt) (b := row')
  simp only [decide_eq_true_eq] at hmem
  exact hmem

/-- **The window after a restore.** -/
theorem windowCleared (R : RRule) (db : LifecycleDb) (tenantId : String) (deletedAt restoredAt : ℤ) (audit : List AuditLog) :
    WindowCleared R db { db.markRestored R tenantId deletedAt restoredAt with audit := audit } tenantId deletedAt restoredAt where
  noneDue := by
    intro row hrow htenant hstatus
    obtain ⟨old, -, rfl⟩ := mem_restored.mp hrow
    by_cases hold : old.tenantId = tenantId
    · rw [if_pos hold] at hstatus ⊢
      exact inWindow_restored hstatus
    · rw [if_neg hold] at htenant
      exact absurd htenant hold
  recurring := by
    intro row hrow htenant hstatus hwindow rule hrule
    refine ⟨_, firstAfter_compute R rule row.triggerAt restoredAt, mem_restored.mpr ⟨row, hrow, ?_⟩⟩
    rw [if_pos htenant, restored_recurring hstatus hwindow hrule]
  oneShot := by
    intro row hrow htenant hstatus hwindow hrule
    refine mem_restored.mpr ⟨row, hrow, ?_⟩
    rw [if_pos htenant, restored_oneShot hstatus hwindow hrule]
  reminders := by
    intro row hrow hout
    refine mem_restored.mpr ⟨row, hrow, ?_⟩
    by_cases htenant : row.tenantId = tenantId
    · rw [if_pos htenant, restored_of_outside (hout.resolve_left fun hne => hne htenant)]
    · rw [if_neg htenant]
  reminderIds := Keyed.keys_update (id_restored R deletedAt restoredAt)
  noneOpen := by
    intro event hevent htenant hopen
    obtain ⟨old, -, rfl⟩ := (Keyed.mem_update InboundEvent.id_drained).mp hevent
    by_cases hold : (old.tenantId = tenantId && old.status.nonTerminal && old.inWindow deletedAt restoredAt) = true
    · rw [if_pos hold] at hopen
      cases hopen
    · rw [if_neg hold] at htenant hopen ⊢
      simpa [htenant, hopen] using hold
  events := by
    intro event hevent hout
    refine (Keyed.mem_update InboundEvent.id_drained).mpr ⟨event, hevent, (if_neg ?_).symm⟩
    rcases hout with hout | hout | hout <;> simp [hout]
  eventIds := Keyed.keys_update InboundEvent.id_drained
  outbox := rfl
  jobs := rfl
  tenants tenant htenant hne := (Keyed.mem_update fun tenant => tenant.id_marked none).mpr ⟨tenant, htenant, (if_neg (by simpa using hne)).symm⟩

/-- **The rows after a deletion.** -/
theorem drained (db : LifecycleDb) (tenantId : String) (now : ℤ) (audit : List AuditLog) :
    Drained db { db.markDeleted tenantId now with audit := audit } tenantId where
  noneOpen := by
    intro event hevent htenant
    obtain ⟨old, -, rfl⟩ := (Keyed.mem_update InboundEvent.id_drained).mp hevent
    by_cases hold : (old.tenantId = tenantId && old.status.nonTerminal) = true
    · rw [if_pos hold]
      rfl
    · rw [if_neg hold] at htenant ⊢
      simpa [htenant] using hold
  noneWaiting := by
    intro row hrow htenant
    obtain ⟨old, -, rfl⟩ := (Keyed.mem_update TenantOutbox.id_drained).mp hrow
    by_cases hold : (old.tenantId = tenantId && old.message.status = .pending) = true
    · rw [if_pos hold]
      simp [TenantOutbox.drained]
    · rw [if_neg hold] at htenant ⊢
      simpa [htenant] using hold
  noneQueued := by
    intro job hjob htenant
    obtain ⟨old, -, rfl⟩ := JobTable.mem_update.mp hjob
    by_cases hold : (old.tenantId = tenantId && (old.status = .pending || old.status = .processing)) = true
    · rw [if_pos hold]
      rfl
    · rw [if_neg hold] at htenant ⊢
      simp only [htenant, decide_true, Bool.true_and, Bool.or_eq_true, decide_eq_true_eq, not_or] at hold
      cases hstatus : old.status with
      | pending => exact absurd hstatus hold.1
      | processing => exact absurd hstatus hold.2
      | done | failed | deadLetter => rfl
  reminders := rfl
  events event hevent hne := (Keyed.mem_update InboundEvent.id_drained).mpr ⟨event, hevent, (if_neg (by simp [hne])).symm⟩
  outbox row hrow hne := (Keyed.mem_update TenantOutbox.id_drained).mpr ⟨row, hrow, (if_neg (by simp [hne])).symm⟩
  jobs job hjob hne := JobTable.mem_update.mpr ⟨job, hjob, (if_neg (by simp [hne])).symm⟩
  tenants tenant htenant hne := (Keyed.mem_update fun tenant => tenant.id_marked (some now)).mpr ⟨tenant, htenant, (if_neg (by simpa using hne)).symm⟩

theorem deletedAt_marked {mark : Option ℤ} {tenant : Tenant}
    (ht : db'.tenants = db.tenants.update (·.id = tenantId) (·.marked mark) (·.id_marked mark))
    (htenant : db.tenants.get? tenantId = some tenant) (other : String) :
    db'.deletedAt other = if other = tenantId then mark else db.deletedAt other := by
  rw [LifecycleDb.deletedAt, ht, Keyed.get?_update]
  by_cases hother : other = tenantId
  · subst hother
    have hid : tenant.id = other := (Keyed.get?_eq_some.mp htenant).2
    simp [htenant, hid, Tenant.marked]
  · rw [if_neg hother]
    cases hget : db.tenants.get? other with
    | none => simp [LifecycleDb.deletedAt, hget]
    | some row =>
      have hid : row.id = other := (Keyed.get?_eq_some.mp hget).2
      simp [LifecycleDb.deletedAt, hget, hid, hother]

end Rows

/-! ### The calls -/

section Runs

variable {R : RRule} {db₀ db db' : LifecycleDb} {as : List LifecycleEvent} {e : LifecycleEvent} {tenantId : String} {d : ℤ}

/-- The audit row is written, or it is not; without an actor nothing is touched. -/
theorem writeLifecycleAudit_cases (session : LifecycleSession) (call : LifecycleCall) (previousDeletedAt : Option ℤ) (now : ℤ) :
    (∃ row, writeLifecycleAudit session call previousDeletedAt now =
        ({ session with pending := { session.pending with audit := session.pending.audit ++ [row] } }, some row)) ∨
      ∃ session', writeLifecycleAudit session call previousDeletedAt now = (session', none) ∧
        session'.committed = session.committed ∧ (call.actorType = none → session' = session) := by
  unfold writeLifecycleAudit
  cases hactor : truthy call.actorType with
  | none => exact .inr ⟨session, rfl, rfl, fun _ => rfl⟩
  | some actorType =>
    have hsome : call.actorType ≠ none := by
      intro hnone
      simp [hnone, truthy] at hactor
    simp only
    split
    · exact .inr ⟨session, rfl, rfl, fun _ => rfl⟩
    unfold auditEvent
    split
    · exact .inr ⟨session, rfl, rfl, fun _ => rfl⟩
    split
    · exact .inl ⟨_, rfl⟩
    · exact .inr ⟨session.rollback, rfl, rfl, fun hnone => absurd hnone hsome⟩

/-- The end of a call: what it has written is committed with the audit row, or nothing is. -/
theorem finish_cases (session : LifecycleSession) (call : LifecycleCall) (previousDeletedAt : Option ℤ) (now : ℤ) :
    (∃ audit, session.finish call previousDeletedAt now =
        (⟨{ session.pending with audit := audit }, { session.pending with audit := audit }⟩, .ok true)) ∨
      session.finish call previousDeletedAt now = (⟨session.committed, session.committed⟩, .error .auditWriteFailed) := by
  unfold LifecycleSession.finish
  rcases writeLifecycleAudit_cases session call previousDeletedAt now with ⟨row, hwrite⟩ | ⟨session', hwrite, hsame, hnone⟩
  · exact .inl ⟨session.pending.audit ++ [row], by simp [hwrite, LifecycleSession.commit]⟩
  · cases hactor : call.actorType with
    | none =>
      obtain rfl := hnone hactor
      exact .inl ⟨session'.pending.audit, by simp [hwrite, LifecycleSession.commit]⟩
    | some actorType => exact .inr (by simp [hwrite, hsame, LifecycleSession.rollback])

/-- **`soft_delete_tenant`**: nothing for a tenant that is missing or deleted; else it commits all or raises. -/
theorem softDelete_cases (db : LifecycleDb) (call : LifecycleCall) (now : ℤ) :
    ((db.tenants.get? call.tenantId = none ∨ ∃ d, db.deletedAt call.tenantId = some d) ∧
        softDeleteTenant db call now = (⟨db, db⟩, .ok false)) ∨
      ((∃ tenant, db.tenants.get? call.tenantId = some tenant) ∧ db.deletedAt call.tenantId = none ∧
        ((∃ audit, softDeleteTenant db call now =
            (⟨{ db.markDeleted call.tenantId now with audit := audit },
              { db.markDeleted call.tenantId now with audit := audit }⟩, .ok true)) ∨
          softDeleteTenant db call now = (⟨db, db⟩, .error .auditWriteFailed))) := by
  unfold softDeleteTenant LifecycleDb.deletedAt
  cases hget : db.tenants.get? call.tenantId with
  | none => exact .inl ⟨.inl rfl, rfl⟩
  | some tenant =>
    cases hdeleted : tenant.deletedAt with
    | some d => exact .inl ⟨.inr ⟨d, hdeleted⟩, by simp only [hdeleted]; rfl⟩
    | none =>
      refine .inr ⟨⟨tenant, rfl⟩, hdeleted, ?_⟩
      simp only [hdeleted]
      exact finish_cases ⟨db, db.markDeleted call.tenantId now⟩ call none now

/-- **`restore_tenant`**: nothing for a tenant that is missing or not deleted; else it commits all or raises. -/
theorem restore_cases (R : RRule) (db : LifecycleDb) (call : LifecycleCall) (now : ℤ) :
    (db.deletedAt call.tenantId = none ∧ restoreTenant R db call now = (⟨db, db⟩, .ok false)) ∨
      ∃ tenant d, db.tenants.get? call.tenantId = some tenant ∧ db.deletedAt call.tenantId = some d ∧
        ((∃ audit, restoreTenant R db call now =
            (⟨{ db.markRestored R call.tenantId d now with audit := audit },
              { db.markRestored R call.tenantId d now with audit := audit }⟩, .ok true)) ∨
          restoreTenant R db call now = (⟨db, db⟩, .error .auditWriteFailed)) := by
  unfold restoreTenant LifecycleDb.deletedAt
  cases hget : db.tenants.get? call.tenantId with
  | none => exact .inl ⟨rfl, rfl⟩
  | some tenant =>
    cases hdeleted : tenant.deletedAt with
    | none => exact .inl ⟨hdeleted, by simp only [hdeleted]; rfl⟩
    | some d =>
      refine .inr ⟨tenant, d, rfl, hdeleted, ?_⟩
      simp only [hdeleted]
      exact finish_cases ⟨db, db.markRestored R call.tenantId d now⟩ call (some d) now

theorem softDelete_ok {now : ℤ} (hs : (lifecycle R).step db (.softDelete call now (.ok true)) db') :
    (∀ other, db'.deletedAt other = if other = call.tenantId then some now else db.deletedAt other) ∧
      Drained db db' call.tenantId := by
  obtain ⟨rfl, hresult⟩ := hs
  simp only [LifecycleEvent.exec, LifecycleEvent.result] at hresult ⊢
  rcases softDelete_cases db call now with ⟨-, heq⟩ | ⟨⟨tenant, htenant⟩, -, ⟨audit, heq⟩ | heq⟩ <;> rw [heq] at hresult ⊢
  · cases hresult
  · exact ⟨deletedAt_marked rfl htenant, drained db call.tenantId now audit⟩
  · cases hresult

theorem restore_ok {now : ℤ} (hs : (lifecycle R).step db (.restore call now (.ok true)) db') :
    ∃ d, db.deletedAt call.tenantId = some d ∧
      (∀ other, db'.deletedAt other = if other = call.tenantId then none else db.deletedAt other) ∧
      WindowCleared R db db' call.tenantId d now := by
  obtain ⟨rfl, hresult⟩ := hs
  simp only [LifecycleEvent.exec, LifecycleEvent.result] at hresult ⊢
  rcases restore_cases R db call now with ⟨-, heq⟩ | ⟨tenant, d, htenant, hd, ⟨audit, heq⟩ | heq⟩ <;> rw [heq] at hresult ⊢
  · cases hresult
  · exact ⟨d, hd, deletedAt_marked rfl htenant, windowCleared R db call.tenantId d now audit⟩
  · cases hresult

/-- A call that does not turn its tenant changes nothing. -/
theorem step_unchanged (hs : (lifecycle R).step db e db') (hresult : e.result ≠ .ok true) : db' = db := by
  obtain ⟨rfl, heq⟩ := hs
  cases e with
  | softDelete call now result =>
    simp only [LifecycleEvent.exec, LifecycleEvent.result] at heq hresult ⊢
    rcases softDelete_cases db call now with ⟨-, h⟩ | ⟨-, -, ⟨audit, h⟩ | h⟩ <;> rw [h] at heq ⊢
    exact absurd heq.symm hresult
  | restore call now result =>
    simp only [LifecycleEvent.exec, LifecycleEvent.result] at heq hresult ⊢
    rcases restore_cases R db call now with ⟨-, h⟩ | ⟨tenant, d, -, -, ⟨audit, h⟩ | h⟩ <;> rw [h] at heq ⊢
    exact absurd heq.symm hresult

/-- **A call that raises** leaves nothing behind. -/
theorem exec_raises (e : LifecycleEvent) (h : (e.exec R db).2 = .error .auditWriteFailed) : (e.exec R db).1 = ⟨db, db⟩ := by
  cases e with
  | softDelete call now result =>
    simp only [LifecycleEvent.exec] at h ⊢
    rcases softDelete_cases db call now with ⟨-, heq⟩ | ⟨-, -, ⟨audit, heq⟩ | heq⟩ <;> rw [heq] at h ⊢
    cases h
  | restore call now result =>
    simp only [LifecycleEvent.exec] at h ⊢
    rcases restore_cases R db call now with ⟨-, heq⟩ | ⟨tenant, d, -, -, ⟨audit, heq⟩ | heq⟩ <;> rw [heq] at h ⊢
    cases h

/-- A deletion of a tenant that is missing or deleted. -/
theorem softDelete_idle {now : ℤ} {result : Except LifecycleError Bool}
    (h : db.tenants.get? call.tenantId = none ∨ ∃ d, db.deletedAt call.tenantId = some d)
    (hs : (lifecycle R).step db (.softDelete call now result) db') : db' = db ∧ result = .ok false := by
  obtain ⟨rfl, hresult⟩ := hs
  simp only [LifecycleEvent.exec, LifecycleEvent.result] at hresult ⊢
  rcases softDelete_cases db call now with ⟨-, heq⟩ | ⟨⟨tenant, htenant⟩, hnone, -⟩
  · rw [heq] at hresult ⊢
    exact ⟨rfl, hresult.symm⟩
  · rcases h with h | ⟨d, hd⟩
    · rw [htenant] at h
      cases h
    · rw [hnone] at hd
      cases hd

theorem restore_idle {now : ℤ} {result : Except LifecycleError Bool}
    (h : db.deletedAt call.tenantId = none) (hs : (lifecycle R).step db (.restore call now result) db') :
    db' = db ∧ result = .ok false := by
  obtain ⟨rfl, hresult⟩ := hs
  simp only [LifecycleEvent.exec, LifecycleEvent.result] at hresult ⊢
  rcases restore_cases R db call now with ⟨-, heq⟩ | ⟨tenant, d, -, hd, -⟩
  · rw [heq] at hresult ⊢
    exact ⟨rfl, hresult.symm⟩
  · rw [h] at hd
    cases hd

/-- **A call repeated** changes nothing. -/
theorem repeated {e' : LifecycleEvent} {db'' : LifecycleDb} {b : Bool} (hs : (lifecycle R).step db e db') (hb : e.result = .ok b)
    (hsame : e.Same e') (hs' : (lifecycle R).step db' e' db'') : db'' = db' ∧ e'.result = .ok false := by
  cases e with
  | softDelete call now result =>
    cases e' with
    | restore => exact hsame.elim
    | softDelete call' now' result' =>
      have heq : call'.tenantId = call.tenantId := hsame
      obtain rfl : result = .ok b := hb
      refine softDelete_idle ?_ hs'
      rw [heq]
      cases b with
      | true =>
        have hmarks := (softDelete_ok hs).1 call.tenantId
        rw [if_pos rfl] at hmarks
        exact .inr ⟨now, hmarks⟩
      | false =>
        obtain ⟨rfl, hresult⟩ := hs
        simp only [LifecycleEvent.exec, LifecycleEvent.result] at hresult ⊢
        rcases softDelete_cases db call now with ⟨hidle, h⟩ | ⟨-, -, ⟨audit, h⟩ | h⟩ <;> rw [h] at hresult ⊢
        · exact hidle
        · cases hresult
        · cases hresult
  | restore call now result =>
    cases e' with
    | softDelete => exact hsame.elim
    | restore call' now' result' =>
      have heq : call'.tenantId = call.tenantId := hsame
      obtain rfl : result = .ok b := hb
      refine restore_idle ?_ hs'
      rw [heq]
      cases b with
      | true =>
        obtain ⟨d, -, hmarks, -⟩ := restore_ok hs
        rw [hmarks, if_pos rfl]
      | false =>
        obtain ⟨rfl, hresult⟩ := hs
        simp only [LifecycleEvent.exec, LifecycleEvent.result] at hresult ⊢
        rcases restore_cases R db call now with ⟨hidle, h⟩ | ⟨tenant, d, -, -, ⟨audit, h⟩ | h⟩ <;> rw [h] at hresult ⊢
        · exact hidle
        · cases hresult
        · cases hresult

/-- The deletion of a tenant goes on with a call that does not turn it. -/
theorem DeletionBegun.snoc (h : DeletionBegun db₀ as tenantId d) (hturns : ¬ e.Turns tenantId) :
    DeletionBegun db₀ (as ++ [e]) tenantId d := by
  rcases h with ⟨hd, hnone⟩ | ⟨before, e', after, rfl, hdeletes, hnone⟩
  · refine .inl ⟨hd, fun x hx => ?_⟩
    rcases List.mem_append.mp hx with hx | hx
    · exact hnone x hx
    · rwa [List.mem_singleton.mp hx]
  · refine .inr ⟨before, e', after ++ [e], by simp, hdeletes, fun x hx => ?_⟩
    rcases List.mem_append.mp hx with hx | hx
    · exact hnone x hx
    · rwa [List.mem_singleton.mp hx]

/-- **The mark of a tenant** is the moment at which its deletion has begun. -/
theorem deletionBegun (h : (lifecycle R).Run db₀ as db) (hd : db.deletedAt tenantId = some d) :
    DeletionBegun db₀ as tenantId d := by
  induction h generalizing d with
  | nil => exact .inl ⟨hd, by simp⟩
  | @snoc db db' as e _ hs ih =>
    by_cases hresult : e.result = .ok true
    · by_cases hown : e.tenantId = tenantId
      · cases e with
        | softDelete call now result =>
          obtain rfl : result = .ok true := hresult
          obtain rfl : call.tenantId = tenantId := hown
          rw [(softDelete_ok hs).1, if_pos rfl] at hd
          exact .inr ⟨as, _, [], rfl, ⟨rfl, Option.some.inj hd, rfl⟩, by simp⟩
        | restore call now result =>
          obtain rfl : result = .ok true := hresult
          obtain rfl : call.tenantId = tenantId := hown
          obtain ⟨_, -, hmarks, -⟩ := restore_ok hs
          rw [hmarks, if_pos rfl] at hd
          cases hd
      · refine (ih ?_).snoc fun hturns => hown hturns.1
        cases e with
        | softDelete call now result =>
          obtain rfl : result = .ok true := hresult
          rwa [(softDelete_ok hs).1, if_neg fun heq => hown heq.symm] at hd
        | restore call now result =>
          obtain rfl : result = .ok true := hresult
          obtain ⟨_, -, hmarks, -⟩ := restore_ok hs
          rwa [hmarks, if_neg fun heq => hown heq.symm] at hd
    · obtain rfl := step_unchanged hs hresult
      exact (ih hd).snoc fun hturns => hresult hturns.2

end Runs

/-- **The life of a tenant**: after any deletions and restores, a restore that ends a deletion clears its
window, a deletion drains what waits for the tenant, a call repeated changes nothing, and a call that raises
leaves every row. -/
theorem tenant_lifecycle (R : RRule) (db₀ : LifecycleDb) (as : List LifecycleEvent) (db : LifecycleDb)
    (h : (lifecycle R).Run db₀ as db) : LifecycleGuarantees R db₀ as db where
  deletes call now db' hs := by
    obtain ⟨hmarks, hdrained⟩ := softDelete_ok hs
    exact ⟨by rw [hmarks, if_pos rfl], hdrained⟩
  restores call now db' hs := by
    obtain ⟨d, hd, hmarks, hcleared⟩ := restore_ok hs
    exact ⟨d, hd, deletionBegun h hd, by rw [hmarks, if_pos rfl], hcleared⟩
  repeats _ _ _ _ _ hs hb hsame hs' := repeated hs hb hsame hs'
  raises e := exec_raises e

/-! ### A deletion -/

/-- The rule of every day. -/
def dailyRules : RRule where
  valid rule _ := rule = "FREQ=DAILY"
  occurrences rule dtstart := {t | rule = "FREQ=DAILY" ∧ ∃ n : ℕ, t = dtstart + n * 86400000000}
  after rule dtstart reference :=
    if rule = "FREQ=DAILY" then
      if reference < dtstart then some dtstart
      else some (dtstart + ((reference - dtstart) / 86400000000 + 1) * 86400000000)
    else none
  after_some := by
    intro rule dtstart reference t h
    split at h
    case isFalse => cases h
    case isTrue hrule =>
      split at h <;> obtain rfl := Option.some.inj h
      · exact ⟨⟨⟨hrule, 0, by omega⟩, by assumption⟩, by rintro u ⟨⟨-, n, rfl⟩, -⟩; omega⟩
      · refine ⟨⟨⟨hrule, ((reference - dtstart) / 86400000000 + 1).toNat, by omega⟩, ?_⟩, ?_⟩
        · show reference < _
          omega
        · rintro u ⟨⟨-, n, rfl⟩, hlt⟩
          have hlater : reference < dtstart + n * 86400000000 := hlt
          omega
  after_none := by
    intro rule dtstart reference h u hu
    split at h
    case isFalse hrule => exact absurd hu.1 hrule
    case isTrue => split at h <;> cases h

/-- A tenant with a reminder every day. -/
def dailyTenant : LifecycleDb where
  tenants := ⟨[⟨"tenant_1", none⟩], by simp⟩
  reminders := ⟨⟨[{ id := "reminder_1", tenantId := "tenant_1", title := "витамины".toList, triggerAt := 100
                    recurrenceRule := some "FREQ=DAILY", nextTriggerAt := some 100, updatedAt := 0 }], by simp⟩,
    by decide +kernel⟩
  events := .empty
  outbox := .empty
  jobs := .empty
  audit := []

/-- A call of an administrator. -/
def byAdmin (action : String) : LifecycleCall :=
  ⟨"tenant_1", some "admin", some "token", some "admin", none, action, true⟩

/-- The tenant is deleted before the reminder is due, and restored after. -/
def deletionAndRestore : List LifecycleEvent :=
  [.softDelete (byAdmin "admin.tenant.soft_delete") 50 (.ok true), .restore (byAdmin "admin.tenant.restore") 150 (.ok true)]

theorem tenant_lifecycle_daily : ∃ db, LifecycleGuarantees dailyRules dailyTenant deletionAndRestore db := by
  have hdelete : (lifecycle dailyRules).step dailyTenant (.softDelete (byAdmin "admin.tenant.soft_delete") 50 (.ok true))
      (softDeleteTenant dailyTenant (byAdmin "admin.tenant.soft_delete") 50).1.committed := ⟨rfl, by decide +kernel⟩
  have hrestore : (lifecycle dailyRules).step
      (softDeleteTenant dailyTenant (byAdmin "admin.tenant.soft_delete") 50).1.committed
      (.restore (byAdmin "admin.tenant.restore") 150 (.ok true)) _ := ⟨rfl, by decide +kernel⟩
  exact ⟨_, tenant_lifecycle dailyRules dailyTenant deletionAndRestore _ ((Lts.Run.single hdelete).snoc hrestore)⟩

end Sreda.Services
