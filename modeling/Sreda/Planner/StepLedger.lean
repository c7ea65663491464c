import Sreda.Lib.Keyed
import Sreda.Planner.Executor

/-!
# The step ledger

The module `step_ledger`: the table `step_execution_ledger` with one row per step of an
execution, and the two helpers that write it. A helper that raises has changed nothing: its
caller rolls the transaction back. The row's `id` is left out, it is read by nobody.
-/

namespace Sreda.Planner

open Sreda.Lib

/-- `timedelta(seconds=n)`: times are counted in microseconds, as in a `datetime`. -/
def seconds (n : ℤ) : ℤ := n * 1000000

/-! ### The table -/

/-- The status of a ledger row (`ck_step_execution_ledger_status`). -/
inductive RowStatus where
  | started
  | closed (status : LedgerStatus)
deriving DecidableEq

/-- The text of a terminal status. -/
def LedgerStatus.text : LedgerStatus → String
  | committed => "committed"
  | unknown => "unknown"
  | unknownPending => "unknown_pending"

/-- The text of a status. -/
def RowStatus.text : RowStatus → String
  | started => "started"
  | closed status => status.text

/-- `_TERMINAL_STATUSES`: the terminal status with this text. -/
def LedgerStatus.ofText? : String → Option LedgerStatus
  | "committed" => some committed
  | "unknown" => some unknown
  | "unknown_pending" => some unknownPending
  | _ => none

@[simp] theorem LedgerStatus.ofText?_text (status : LedgerStatus) : ofText? status.text = some status := by
  cases status <;> rfl

/-- A row of `step_execution_ledger`. -/
structure StepRow where
  executionId : String
  stepId : String
  tool : Option String
  operationId : String
  status : RowStatus
  createdAt : ℤ
  updatedAt : ℤ
deriving DecidableEq

/-- `uq_step_execution_ledger_execution_step`. -/
def StepRow.key (row : StepRow) : String × String := (row.executionId, row.stepId)

/-- The table. -/
abbrev StepLedger := Keyed StepRow.key

/-! ### The helpers -/

/-- `open_step`: the existing row, or a new one with status `started`. -/
def openStep (ledger : StepLedger) (executionId stepId : String) (tool : Option String) (operationId : String)
    (now : ℤ) : Except PyException (StepLedger × StepRow) :=
  match ledger.get? (executionId, stepId) with
  | some existing =>
    if existing.operationId ≠ operationId then
      .error ⟨"ValueError", "open_step: ledger row for (execution_id=" ++ executionId ++ ", step_id=" ++ stepId
        ++ ") has operation_id=" ++ existing.operationId ++ " but caller supplied " ++ operationId
        ++ ". A resume must re-derive the SAME operation_id; divergence splits ledger/audit idempotency."⟩
    else if tool.isSome ∧ existing.tool ≠ tool then
      .error ⟨"ValueError", "open_step: ledger row for (execution_id=" ++ executionId ++ ", step_id=" ++ stepId
        ++ ") has tool=" ++ existing.tool.getD "None" ++ " but caller supplied tool=" ++ tool.getD "None"
        ++ ". The step's tool must be stable across retries."⟩
    else .ok (ledger, existing)
  | none =>
    let row : StepRow := {
      executionId, stepId, tool, operationId, status := .started, createdAt := now, updatedAt := now }
    -- `uq_step_execution_ledger_operation_id`
    if ledger.rows.any fun other => other.operationId = operationId then
      .error ⟨"IntegrityError", "uq_step_execution_ledger_operation_id"⟩
    else match ledger.insert? row with
      | some ledger' => .ok (ledger', row)
      | none => .error ⟨"IntegrityError", "uq_step_execution_ledger_execution_step"⟩

/-- A row with the status and the time of a mark. -/
def StepRow.close (status : LedgerStatus) (now : ℤ) (row : StepRow) : StepRow :=
  { row with status := .closed status, updatedAt := now }

@[simp] theorem StepRow.key_close (status : LedgerStatus) (now : ℤ) (row : StepRow) :
    (row.close status now).key = row.key := rfl

/-- The table after the row under a key was marked. -/
def markRow (ledger : StepLedger) (key : String × String) (status : LedgerStatus) (now : ℤ) : StepLedger :=
  ledger.update (fun row => row.key = key) (StepRow.close status now) (StepRow.key_close status now)

/-- `mark_step_status`: whatever the row's status is, it becomes the given terminal one. -/
def markStepStatus (ledger : StepLedger) (executionId stepId status : String) (now : ℤ) :
    Except PyException StepLedger :=
  match LedgerStatus.ofText? status with
  | none => .error ⟨"ValueError", "Invalid ledger status " ++ status
      ++ ". Allowed values: ['committed', 'unknown', 'unknown_pending']. 'started' is set only by open_step()."⟩
  | some status =>
    match ledger.get? (executionId, stepId) with
    | none => .error ⟨"LookupError", "No StepExecutionLedger row found for execution_id=" ++ executionId
        ++ ", step_id=" ++ stepId ++ ". open_step() must be called before mark_step_status()."⟩
    | some _ => .ok (markRow ledger (executionId, stepId) status now)

/-! ### What they do -/

/-- **What `open_step` can do**: it finds the row and changes nothing, or it adds a row
under a free key. -/
theorem openStep_ok {ledger ledger' : StepLedger} {executionId stepId operationId : String} {tool : Option String}
    {now : ℤ} {row : StepRow} (h : openStep ledger executionId stepId tool operationId now = .ok (ledger', row)) :
    row.key = (executionId, stepId) ∧ row.operationId = operationId ∧
      ((ledger' = ledger ∧ row ∈ ledger.rows) ∨
        (row.status = .started ∧ ledger.get? (executionId, stepId) = none ∧ ledger.insert? row = some ledger')) := by
  unfold openStep at h
  split at h
  · next existing hget =>
    obtain ⟨hmem, hkey⟩ := Keyed.get?_eq_some.mp hget
    split at h
    · cases h
    · next hop =>
      split at h
      · cases h
      · cases h
        exact ⟨hkey, by simpa using hop, .inl ⟨rfl, hmem⟩⟩
  · next hget =>
    simp only at h
    split at h
    · cases h
    · split at h
      · next hins =>
        cases h
        exact ⟨rfl, rfl, .inr ⟨rfl, hget, hins⟩⟩
      · cases h

/-- `open_step` leaves every row that was there. -/
theorem openStep_get? {ledger ledger' : StepLedger} {executionId stepId operationId : String} {tool : Option String}
    {now : ℤ} {row other : StepRow} {key : String × String}
    (h : openStep ledger executionId stepId tool operationId now = .ok (ledger', row))
    (hother : ledger.get? key = some other) : ledger'.get? key = some other := by
  obtain ⟨-, -, ⟨rfl, -⟩ | ⟨-, -, hins⟩⟩ := openStep_ok h
  · exact hother
  · exact Keyed.get?_insert? hins hother

theorem get?_markRow {ledger : StepLedger} {key key' : String × String} {status : LedgerStatus} {now : ℤ} :
    (markRow ledger key status now).get? key' =
      (ledger.get? key').map fun row => if key' = key then row.close status now else row := by
  rw [markRow, Keyed.get?_update]
  cases h : ledger.get? key' with
  | none => rfl
  | some row =>
    obtain ⟨-, rfl⟩ := Keyed.get?_eq_some.mp h
    simp

/-- **What `mark_step_status` does**: it marks a row that is there. -/
theorem markStepStatus_ok {ledger ledger' : StepLedger} {executionId stepId : String} (status : LedgerStatus)
    {now : ℤ} : markStepStatus ledger executionId stepId status.text now = .ok ledger' ↔
      (ledger.get? (executionId, stepId)).isSome ∧ ledger' = markRow ledger (executionId, stepId) status now := by
  unfold markStepStatus
  rw [LedgerStatus.ofText?_text]
  cases h : ledger.get? (executionId, stepId) with
  | none => simp
  | some row => simp [eq_comm]

end Sreda.Planner
