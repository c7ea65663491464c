import Sreda.Planner.StepLedger

/-!
# Recovery of interrupted executions

The modules `recovery` and `recovery_scanner`. A scan claims executions that are in progress
and under no running lease, and then recovers each in a transaction of its own: it probes
the audit tables for the durable steps of the ledger and writes the status that follows.

A recovery transaction reads first and writes last, and takes no lock before it writes:
`recoverExecution` has the tables as it reads them (`seen`) and the tables that it writes to
(`db`). When nothing is committed in between, the two are the same.
-/

namespace Sreda.Planner

open Sreda.Lib

/-! ### The tables -/

/-- `ck_planner_executions_execution_status`. -/
inductive ExecutionStatus where
  | pending
  | inProgress
  | completed
  | partialFailure
  | failed
  | aborted
  | abortedPartial
  | failedNeedsManual
  | committedUnservedNeedsManual
deriving DecidableEq

/-- `_TERMINAL_EXECUTION_STATUSES`. -/
def ExecutionStatus.terminal : ExecutionStatus → Bool
  | pending | inProgress => false
  | _ => true

/-- A row of `planner_executions`: the columns that the scanner reads and writes. -/
structure PlannerExecution where
  id : String
  executionStatus : ExecutionStatus
  recoveryWorkerId : Option String
  recoveryAttempt : ℕ
  recoveryLeaseUntil : Option ℤ
  createdAt : ℤ
deriving DecidableEq

/-- The tables that the scanner reads and writes. Of the audit tables only the column
`operation_id` is kept. -/
structure Database where
  executions : Keyed PlannerExecution.id
  ledger : StepLedger
  auditOutbox : List String
  userDataChangeFeed : List String

/-- The ledger rows of an execution. -/
def Database.steps (db : Database) (executionId : String) : List StepRow :=
  db.ledger.rows.filter fun row => row.executionId = executionId

/-- The status of an execution. -/
def Database.status? (db : Database) (executionId : String) : Option ExecutionStatus :=
  (db.executions.get? executionId).map (·.executionStatus)

/-! ### The decision -/

/-- `probe_operation`. -/
def probeOperation (db : Database) (operationId : String) : Bool :=
  operationId ∈ db.auditOutbox || operationId ∈ db.userDataChangeFeed

/-- `RecoveryAction`. -/
inductive RecoveryAction where
  | skip
  | markCommitted
  | markFailedNeedsManual
  | reProbe
deriving DecidableEq

/-- `decide_recovery`. -/
def decideRecovery (ledgerStatus : String) (isDurableWrite probedCommitted settleWindowElapsed : Bool) :
    Except PyException RecoveryAction :=
  if ledgerStatus = "committed" then .ok .skip
  else if ledgerStatus = "started" ∨ ledgerStatus = "unknown" then
    if !isDurableWrite then .ok .skip
    else if probedCommitted then .ok .markCommitted
    else .ok .markFailedNeedsManual
  else if ledgerStatus = "unknown_pending" then
    if !isDurableWrite then .ok .skip
    else if probedCommitted then .ok .markCommitted
    else if settleWindowElapsed then .ok .markFailedNeedsManual
    else .ok .reProbe
  else .error ⟨"ValueError", "decide_recovery: unrecognised ledger_status=" ++ ledgerStatus
    ++ ". Expected one of 'started', 'committed', 'unknown', 'unknown_pending'."⟩

/-! ### Claiming -/

/-- What a claim looks for: `in_progress`, with no lease or one that has run out. -/
def PlannerExecution.stalled (now : ℤ) (execution : PlannerExecution) : Bool :=
  execution.executionStatus = .inProgress && execution.recoveryLeaseUntil.all fun lease => lease < now

/-- The row of a claimed execution. -/
def PlannerExecution.claimed (workerId : String) (leaseEnd : ℤ) (execution : PlannerExecution) :
    PlannerExecution :=
  { execution with
    recoveryWorkerId := some workerId
    recoveryAttempt := execution.recoveryAttempt + 1
    recoveryLeaseUntil := some leaseEnd }

@[simp] theorem PlannerExecution.id_claimed (workerId : String) (leaseEnd : ℤ) (execution : PlannerExecution) :
    (execution.claimed workerId leaseEnd).id = execution.id := rfl

/-- The SELECT of a claim: the oldest stalled executions. Executions of the same age come in
the order of the table. -/
def staleExecutions (db : Database) (now : ℤ) (limit : ℕ) : List String :=
  (((db.executions.rows.filter (·.stalled now)).insertionSort fun e e' => e.createdAt ≤ e'.createdAt).take limit).map
    (·.id)

/-- `claim_stale_executions`: the tables after the claim, and the claimed ids. -/
def claimStaleExecutions (db : Database) (workerId : String) (now : ℤ) (leaseSeconds : ℤ) (limit : ℕ) :
    Database × List String :=
  let ids := staleExecutions db now limit
  let leaseEnd := now + seconds leaseSeconds
  let executions := db.executions.update (fun row => row.id ∈ ids) (PlannerExecution.claimed workerId leaseEnd)
    (PlannerExecution.id_claimed workerId leaseEnd)
  ({ db with executions }, ids)

/-! ### Recovering -/

/-- What a scanner is run with. -/
structure ScanSettings where
  registry : Registry
  settleWindowSeconds : ℤ

/-- The local variables of `recover_execution`. -/
structure Findings where
  needsManual : Bool := false
  reProbePending : Bool := false
  anyCommittedDurable : Bool := false
  earliestReprobeDeadline : Option ℤ := none
  /-- The steps whose ledger rows are marked `committed`. -/
  marked : List String := []

/-- `_AlertPayload`. -/
structure AlertPayload where
  title : String
  body : String
  dedupeKey : String
deriving DecidableEq

/-- The status that `recover_execution` returns. -/
inductive RecoverStatus where
  | resolved (status : ExecutionStatus)
  | reProbePending
  | notFound
deriving DecidableEq

/-- `RecoverOutcome`. -/
structure RecoverOutcome where
  status : RecoverStatus
  alert : Option AlertPayload := none
deriving DecidableEq

/-- The alert for an execution with a committed write. -/
def unservedAlert (executionId : String) : AlertPayload where
  title := "planner recovery: committed_unserved_needs_manual"
  body := "execution_id=" ++ executionId ++ "\nA durable write committed but the user's reply was not proven "
    ++ "served (worker crashed mid-turn). Manual verification required before any resend.\n"
    ++ "See step_execution_ledger for execution_id=" ++ executionId ++ "."
  dedupeKey := "planner_recovery_unserved:" ++ String.ofList (executionId.toList.take 16)

/-- The alert for an execution with a write that did not land. -/
def failedAlert (executionId : String) : AlertPayload where
  title := "planner recovery: execution failed_needs_manual"
  body := "execution_id=" ++ executionId ++ "\nA durable step's write did not commit and could not be safely "
    ++ "retried. Manual intervention required.\n"
    ++ "See step_execution_ledger for execution_id=" ++ executionId ++ "."
  dedupeKey := "planner_recovery_failed:" ++ String.ofList (executionId.toList.take 16)

section Recover

variable (cfg : ScanSettings)

/-- Whether a step writes durably; a tool that the registry does not have counts as one that
does. -/
def isDurableStep (row : StepRow) : Bool :=
  match row.tool.bind fun tool => if tool = "" then none else cfg.registry tool with
  | none => true
  | some spec => spec.isDurableWrite

/-- The settle window of a row has passed. -/
def settleElapsed (now : ℤ) (row : StepRow) : Bool := seconds cfg.settleWindowSeconds < now - row.updatedAt

/-- When the settle window of a row ends. -/
def settleDeadline (row : StepRow) : ℤ := row.updatedAt + seconds cfg.settleWindowSeconds

variable (seen : Database) (now : ℤ)

/-- One round of the loop over the ledger rows. -/
def recoverRow (findings : Findings) (row : StepRow) : Except PyException Findings :=
  let durable := isDurableStep cfg row
  let probed := durable && probeOperation seen row.operationId
  match decideRecovery row.status.text durable probed (settleElapsed cfg now row) with
  | .error exc => .error exc
  | .ok .skip =>
    .ok { findings with
      anyCommittedDurable := findings.anyCommittedDurable || (durable && row.status = .closed .committed) }
  | .ok .markCommitted =>
    .ok { findings with marked := findings.marked ++ [row.stepId], anyCommittedDurable := true }
  | .ok .markFailedNeedsManual => .ok { findings with needsManual := true }
  | .ok .reProbe =>
    let deadline := settleDeadline cfg row
    .ok { findings with
      reProbePending := true
      earliestReprobeDeadline := match findings.earliestReprobeDeadline with
        | none => some deadline
        | some earliest => some (if deadline < earliest then deadline else earliest) }

/-- The loop over the ledger rows. -/
def recoverRows (rows : List StepRow) : Except PyException Findings :=
  rows.foldlM (recoverRow cfg seen now) {}

/-- The status and the lease that the findings lead to, with what is returned. -/
def resolve (execution : PlannerExecution) (findings : Findings) :
    ExecutionStatus × Option ℤ × RecoverOutcome :=
  if findings.anyCommittedDurable then
    (.committedUnservedNeedsManual, none,
      ⟨.resolved .committedUnservedNeedsManual, some (unservedAlert execution.id)⟩)
  else if findings.reProbePending then
    let epsilonFloor := now + seconds 1
    let backoff := findings.earliestReprobeDeadline.getD epsilonFloor
    let backoff := if backoff < epsilonFloor then epsilonFloor else backoff
    (execution.executionStatus, some backoff, ⟨.reProbePending, none⟩)
  else if findings.needsManual then
    (.failedNeedsManual, none, ⟨.resolved .failedNeedsManual, some (failedAlert execution.id)⟩)
  else (.failed, none, ⟨.resolved .failed, none⟩)

/-- The UPDATE of an execution: a column is written when its value differs from the one that
was read. -/
def writeBack (read : PlannerExecution) (status : ExecutionStatus) (lease : Option ℤ)
    (row : PlannerExecution) : PlannerExecution :=
  { row with
    executionStatus := if status = read.executionStatus then row.executionStatus else status
    recoveryLeaseUntil := if lease = read.recoveryLeaseUntil then row.recoveryLeaseUntil else lease }

@[simp] theorem id_writeBack (read : PlannerExecution) (status : ExecutionStatus) (lease : Option ℤ)
    (row : PlannerExecution) : (writeBack read status lease row).id = row.id := rfl

/-- The marks of `recover_execution`. -/
def markAll (executionId : String) (ledger : StepLedger) (stepIds : List String) : Except PyException StepLedger :=
  stepIds.foldlM (fun ledger stepId => markStepStatus ledger executionId stepId "committed" now) ledger

/-- `recover_execution`: reads in `seen`, writes to `db`. -/
def recoverExecution (db : Database) (executionId : String) : Except PyException (Database × RecoverOutcome) :=
  match seen.executions.get? executionId with
  | none => .ok (db, ⟨.notFound, none⟩)
  | some execution => do
    let findings ← recoverRows cfg seen now (seen.steps executionId)
    let ledger ← markAll now executionId db.ledger findings.marked
    let (status, lease, outcome) := resolve now execution findings
    let executions := db.executions.update (fun row => row.id = executionId) (writeBack execution status lease)
      (id_writeBack execution status lease)
    .ok ({ db with ledger, executions }, outcome)

/-! ### What the loop finds -/

/-- A step whose durable write is known to have landed. -/
def hasLanded (row : StepRow) : Bool :=
  isDurableStep cfg row && (row.status = .closed .committed || probeOperation seen row.operationId)

/-- A step that is waited for: marked `unknown_pending`, and its settle window is open. -/
def isAwaited (row : StepRow) : Bool :=
  isDurableStep cfg row && row.status = .closed .unknownPending && !probeOperation seen row.operationId
    && !settleElapsed cfg now row

/-- A step whose durable write is taken not to have landed. -/
def isLost (row : StepRow) : Bool :=
  isDurableStep cfg row && !hasLanded cfg seen row && !isAwaited cfg seen now row

/-- A landed step whose ledger row does not say so. -/
def isUnmarked (row : StepRow) : Bool := hasLanded cfg seen row && row.status ≠ .closed .committed

/-- The findings of the loop over some rows. -/
structure Found (rows : List StepRow) (findings : Findings) : Prop where
  landed : findings.anyCommittedDurable = rows.any (hasLanded cfg seen)
  awaited : findings.reProbePending = rows.any (isAwaited cfg seen now)
  lost : findings.needsManual = rows.any (isLost cfg seen now)
  marked : findings.marked = (rows.filter (isUnmarked cfg seen)).map (·.stepId)
  /-- The earliest deadline is one of a step that is waited for. -/
  earliest_of : ∀ deadline ∈ findings.earliestReprobeDeadline,
    ∃ row ∈ rows, isAwaited cfg seen now row ∧ deadline = settleDeadline cfg row
  earliest_le : ∀ row ∈ rows, isAwaited cfg seen now row →
    ∃ deadline ∈ findings.earliestReprobeDeadline, deadline ≤ settleDeadline cfg row

variable {cfg seen now}

theorem decideRecovery_row (row : StepRow) :
    decideRecovery row.status.text (isDurableStep cfg row)
      (isDurableStep cfg row && probeOperation seen row.operationId) (settleElapsed cfg now row) =
      .ok (if isUnmarked cfg seen row then .markCommitted
        else if isAwaited cfg seen now row then .reProbe
        else if isLost cfg seen now row then .markFailedNeedsManual
        else .skip) := by
  cases hd : isDurableStep cfg row <;> cases hp : probeOperation seen row.operationId <;>
    cases he : settleElapsed cfg now row <;> cases hs : row.status with
    | started => simp [decideRecovery, RowStatus.text, isUnmarked, hasLanded, isAwaited, isLost, hd, hp, he, hs]
    | closed status =>
      cases status <;>
        simp [decideRecovery, RowStatus.text, LedgerStatus.text, isUnmarked, hasLanded, isAwaited, isLost, hd, hp, he, hs]

theorem not_landed_of_awaited {row : StepRow} (h : isAwaited cfg seen now row) : hasLanded cfg seen row = false := by
  simp only [isAwaited, Bool.and_eq_true, decide_eq_true_eq, Bool.not_eq_true'] at h
  simp [hasLanded, h.1.1.2, h.1.2]

theorem isLost_iff {row : StepRow} : isLost cfg seen now row ↔
    isDurableStep cfg row ∧ hasLanded cfg seen row = false ∧ isAwaited cfg seen now row = false := by
  simp [isLost, and_assoc]

theorem landed_of_unmarked {row : StepRow} (h : isUnmarked cfg seen row) : hasLanded cfg seen row := by
  simp only [isUnmarked, Bool.and_eq_true] at h
  exact h.1

theorem landed_eq (row : StepRow) : hasLanded cfg seen row =
    ((isDurableStep cfg row && decide (row.status = .closed .committed)) || isUnmarked cfg seen row) := by
  simp only [isUnmarked, hasLanded]
  by_cases h : row.status = .closed .committed <;> simp [h]

/-- What one round of the loop adds to the findings; it does not raise. -/
theorem recoverRow_eq (findings : Findings) (row : StepRow) :
    recoverRow cfg seen now findings row = .ok {
      anyCommittedDurable := findings.anyCommittedDurable || hasLanded cfg seen row
      reProbePending := findings.reProbePending || isAwaited cfg seen now row
      needsManual := findings.needsManual || isLost cfg seen now row
      marked := findings.marked ++ if isUnmarked cfg seen row then [row.stepId] else []
      earliestReprobeDeadline := if isAwaited cfg seen now row then
          some (match findings.earliestReprobeDeadline with
            | none => settleDeadline cfg row
            | some earliest => min (settleDeadline cfg row) earliest)
        else findings.earliestReprobeDeadline } := by
  unfold recoverRow
  simp only [decideRecovery_row]
  by_cases hu : isUnmarked cfg seen row
  · have hl := landed_of_unmarked hu
    have hw : isAwaited cfg seen now row = false := by
      by_contra hw
      simp [not_landed_of_awaited (by simpa using hw)] at hl
    simp [hu, hl, hw, isLost]
  · have hl : hasLanded cfg seen row = (isDurableStep cfg row && decide (row.status = .closed .committed)) := by
      rw [landed_eq, Bool.or_eq_left_iff_imp.mpr fun h => absurd h hu]
    by_cases hw : isAwaited cfg seen now row
    · have hnl := not_landed_of_awaited hw
      simp only [hu, hw, hnl, isLost, Bool.or_true, Bool.or_false, Bool.not_true, Bool.and_false, if_true,
        Bool.false_eq_true, if_false, List.append_nil, min_def_lt]
      cases findings.earliestReprobeDeadline <;> rfl
    · by_cases hlost : isLost cfg seen now row
      · have hnl := (isLost_iff.mp hlost).2.1
        simp [hu, hw, hlost, hnl]
      · simp [hu, hw, hlost, hl]

theorem Found.step {rows : List StepRow} {findings : Findings} (h : Found cfg seen now rows findings)
    (row : StepRow) :
    ∃ findings', recoverRow cfg seen now findings row = .ok findings' ∧
      Found cfg seen now (rows ++ [row]) findings' := by
  refine ⟨_, recoverRow_eq findings row, ?_, ?_, ?_, ?_, ?_, ?_⟩
  · simp [h.landed]
  · simp [h.awaited]
  · simp [h.lost]
  · by_cases hu : isUnmarked cfg seen row <;> simp [h.marked, hu]
  · -- the earliest deadline
    intro deadline hmem
    simp only [List.mem_append, List.mem_singleton]
    by_cases hw : isAwaited cfg seen now row
    · simp only [hw, if_true, Option.mem_def, Option.some.injEq] at hmem
      cases he : findings.earliestReprobeDeadline with
      | none => exact ⟨row, .inr rfl, hw, by rw [← hmem, he]⟩
      | some earliest =>
        rw [he] at hmem
        obtain ⟨other, ho, hwo, rfl⟩ := h.earliest_of earliest he
        rcases min_choice (settleDeadline cfg row) (settleDeadline cfg other) with hc | hc
        · exact ⟨row, .inr rfl, hw, by rw [← hmem]; exact hc⟩
        · exact ⟨other, .inl ho, hwo, by rw [← hmem]; exact hc⟩
    · simp only [hw, if_false, Bool.false_eq_true] at hmem
      obtain ⟨other, ho, hwo, heq⟩ := h.earliest_of deadline hmem
      exact ⟨other, .inl ho, hwo, heq⟩
  · intro other ho hwo
    simp only [List.mem_append, List.mem_singleton] at ho
    rcases ho with ho | rfl
    · obtain ⟨earliest, he, hle⟩ := h.earliest_le other ho hwo
      by_cases hw : isAwaited cfg seen now row
      · refine ⟨min (settleDeadline cfg row) earliest, ?_, (min_le_right _ _).trans hle⟩
        simp [hw, Option.mem_def.mp he]
      · exact ⟨earliest, by simpa [hw] using he, hle⟩
    · simp only [hwo, if_true, Option.mem_def, Option.some.injEq, exists_eq_left']
      cases findings.earliestReprobeDeadline with
      | none => exact le_rfl
      | some earliest => exact min_le_left _ _

variable (cfg seen now) in
/-- **The loop**: it ends, and finds what is there. -/
theorem recoverRows_found (rows : List StepRow) :
    ∃ findings, recoverRows cfg seen now rows = .ok findings ∧ Found cfg seen now rows findings := by
  induction rows using List.reverseRecOn with
  | nil => exact ⟨{}, rfl, ⟨rfl, rfl, rfl, rfl, by simp, by simp⟩⟩
  | append_singleton rows row ih =>
    obtain ⟨findings, hrun, hfound⟩ := ih
    obtain ⟨findings', hstep, hfound'⟩ := hfound.step row
    refine ⟨findings', ?_, hfound'⟩
    simp only [recoverRows] at hrun ⊢
    rw [List.foldlM_append, hrun]
    simp only [bind, Except.bind, List.foldlM_cons, List.foldlM_nil, hstep]
    rfl

/-! ### What the operations do -/

/-- The marks touch the rows of their steps only. -/
theorem markAll_ok {executionId : String} {ledger ledger' : StepLedger} {stepIds : List String}
    (h : markAll now executionId ledger stepIds = .ok ledger') (key : String × String) :
    ledger'.get? key = (ledger.get? key).map fun row =>
      if key.1 = executionId ∧ key.2 ∈ stepIds then row.close .committed now else row := by
  induction stepIds generalizing ledger with
  | nil =>
    cases h
    simp
  | cons stepId stepIds ih =>
    simp only [markAll, List.foldlM_cons] at h
    obtain ⟨marked, hmark, hrest⟩ := Value.bind_ok.mp h
    obtain ⟨-, rfl⟩ := (markStepStatus_ok .committed).mp hmark
    rw [ih hrest, get?_markRow, Option.map_map]
    congr 1
    funext row
    obtain ⟨executionId', stepId'⟩ := key
    by_cases h1 : executionId' = executionId <;> by_cases h2 : stepId' = stepId <;>
      by_cases h3 : stepId' ∈ stepIds <;> simp [h1, h2, h3, StepRow.close]

variable (cfg seen now) in
/-- What a recovery resolves to, by what the ledger rows are: the status and the lease that
the execution is given, and what is returned. -/
inductive Resolution (rows : List StepRow) (execution : PlannerExecution) :
    ExecutionStatus × Option ℤ × RecoverOutcome → Prop where
  /-- A durable write has landed. -/
  | unserved (hlanded : rows.any (hasLanded cfg seen)) :
      Resolution rows execution (.committedUnservedNeedsManual, none,
        ⟨.resolved .committedUnservedNeedsManual, some (unservedAlert execution.id)⟩)
  /-- None has landed and `row` is the first that is waited for. -/
  | reProbe (row : StepRow) (hlanded : rows.any (hasLanded cfg seen) = false) (hrow : row ∈ rows)
      (hawaited : isAwaited cfg seen now row)
      (hfirst : ∀ other ∈ rows, isAwaited cfg seen now other → settleDeadline cfg row ≤ settleDeadline cfg other) :
      Resolution rows execution (execution.executionStatus, some (max (settleDeadline cfg row) (now + seconds 1)),
        ⟨.reProbePending, none⟩)
  /-- None has landed, none is waited for, and one is lost. -/
  | manual (hlanded : rows.any (hasLanded cfg seen) = false) (hawaited : rows.any (isAwaited cfg seen now) = false)
      (hlost : rows.any (isLost cfg seen now)) :
      Resolution rows execution (.failedNeedsManual, none,
        ⟨.resolved .failedNeedsManual, some (failedAlert execution.id)⟩)
  /-- There is no durable write. -/
  | failed (hlanded : rows.any (hasLanded cfg seen) = false) (hawaited : rows.any (isAwaited cfg seen now) = false)
      (hlost : rows.any (isLost cfg seen now) = false) :
      Resolution rows execution (.failed, none, ⟨.resolved .failed, none⟩)

theorem Found.resolution {rows : List StepRow} {findings : Findings} (h : Found cfg seen now rows findings)
    (execution : PlannerExecution) : Resolution cfg seen now rows execution (resolve now execution findings) := by
  unfold resolve
  by_cases hl : findings.anyCommittedDurable
  · rw [if_pos hl]
    exact .unserved (h.landed ▸ hl)
  · have hlanded : rows.any (hasLanded cfg seen) = false := by simpa [h.landed] using hl
    rw [if_neg hl]
    by_cases hw : findings.reProbePending
    · -- some row is waited for, so there is an earliest deadline
      obtain ⟨other, ho, hwo⟩ := List.any_eq_true.mp (h.awaited ▸ hw)
      obtain ⟨deadline, hd, -⟩ := h.earliest_le other ho hwo
      obtain ⟨row, hrow, hawaited, rfl⟩ := h.earliest_of deadline hd
      have hfirst : ∀ other ∈ rows, isAwaited cfg seen now other →
          settleDeadline cfg row ≤ settleDeadline cfg other := fun other ho hwo => by
        obtain ⟨deadline, hd', hle⟩ := h.earliest_le other ho hwo
        cases Option.mem_unique hd hd'
        exact hle
      rw [if_pos hw, Option.mem_def.mp hd]
      have hmax : (if settleDeadline cfg row < now + seconds 1 then now + seconds 1 else settleDeadline cfg row) =
          max (settleDeadline cfg row) (now + seconds 1) := by
        rw [max_def_lt]
      simp only [Option.getD_some, hmax]
      exact .reProbe row hlanded hrow hawaited hfirst
    · have hawaited : rows.any (isAwaited cfg seen now) = false := by simpa [h.awaited] using hw
      rw [if_neg hw]
      by_cases hm : findings.needsManual
      · rw [if_pos hm]
        exact .manual hlanded hawaited (h.lost ▸ hm)
      · rw [if_neg hm]
        exact .failed hlanded hawaited (by simpa [h.lost] using hm)

/-- **What a recovery does.** It finds no such execution; or it marks the ledger rows of the
writes that have landed and writes back what the rows resolve to. -/
theorem recoverExecution_ok {db db' : Database} {executionId : String} {outcome : RecoverOutcome}
    (h : recoverExecution cfg seen now db executionId = .ok (db', outcome)) :
    (seen.executions.get? executionId = none ∧ db' = db ∧ outcome = ⟨.notFound, none⟩) ∨
      ∃ execution status lease ledger, seen.executions.get? executionId = some execution ∧
        Resolution cfg seen now (seen.steps executionId) execution (status, lease, outcome) ∧
        markAll now executionId db.ledger (((seen.steps executionId).filter (isUnmarked cfg seen)).map (·.stepId))
          = .ok ledger ∧
        db' = { db with
          ledger, executions := db.executions.update (fun row => row.id = executionId)
            (writeBack execution status lease) (id_writeBack execution status lease) } := by
  unfold recoverExecution at h
  split at h
  · next hnone =>
    cases h
    exact .inl ⟨hnone, rfl, rfl⟩
  · next execution hsome =>
    obtain ⟨findings, hrows, h⟩ := Value.bind_ok.mp h
    obtain ⟨ledger, hmarks, h⟩ := Value.bind_ok.mp h
    obtain ⟨findings', hrows', hfound⟩ := recoverRows_found cfg seen now (seen.steps executionId)
    cases hrows.symm.trans hrows'
    have hres := hfound.resolution execution
    rw [hfound.marked] at hmarks
    cases h
    exact .inr ⟨execution, _, _, ledger, hsome, hres, hmarks, rfl⟩

end Recover

theorem stalled_iff {now : ℤ} {execution : PlannerExecution} : execution.stalled now ↔
    execution.executionStatus = .inProgress ∧ ∀ lease ∈ execution.recoveryLeaseUntil, lease < now := by
  simp [PlannerExecution.stalled, Option.all_eq_true]

theorem staleExecutions_spec (db : Database) (now : ℤ) (limit : ℕ) :
    (staleExecutions db now limit).Nodup ∧ ∀ id ∈ staleExecutions db now limit,
      ∃ execution, db.executions.get? id = some execution ∧ execution.stalled now := by
  have hsub : (((db.executions.rows.filter (·.stalled now)).insertionSort
      fun e e' => e.createdAt ≤ e'.createdAt).take limit).Subperm (db.executions.rows.filter (·.stalled now)) :=
    (List.take_sublist _ _).subperm.trans (List.perm_insertionSort _ _).subperm
  constructor
  · have hnodup : ((db.executions.rows.filter (·.stalled now)).map (·.id)).Nodup :=
      db.executions.nodup.sublist (List.filter_sublist.map _)
    obtain ⟨rows, hperm, hrows⟩ := hsub
    exact (hperm.map _).nodup_iff.mp (hnodup.sublist (hrows.map _))
  · intro id hid
    obtain ⟨execution, hmem, rfl⟩ := List.mem_map.mp hid
    obtain ⟨hrow, hstalled⟩ := List.mem_filter.mp (hsub.subset hmem)
    exact ⟨execution, Keyed.get?_key hrow, hstalled⟩

/-- **What a claim does**: only the rows of the claimed executions change. -/
theorem get?_claimStaleExecutions (db : Database) (workerId : String) (now : ℤ) (leaseSeconds : ℤ) (limit : ℕ)
    (id : String) : (claimStaleExecutions db workerId now leaseSeconds limit).1.executions.get? id =
      (db.executions.get? id).map fun execution =>
        if id ∈ staleExecutions db now limit then execution.claimed workerId (now + seconds leaseSeconds)
        else execution := by
  refine (Keyed.get?_update (PlannerExecution.id_claimed workerId _)).trans ?_
  cases hget : db.executions.get? id with
  | none => rfl
  | some execution =>
    obtain ⟨-, rfl⟩ := Keyed.get?_eq_some.mp hget
    simp

end Sreda.Planner
