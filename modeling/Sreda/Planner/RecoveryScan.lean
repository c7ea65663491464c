import Sreda.Lib.Transition
import Sreda.Planner.Recovery

/-!
# The recovery scan

`run_recovery_scan`: one claim, and for each claimed execution a recovery in a transaction
of its own. A transaction that fails is rolled back and counted as an error.

**`recovery_decision`** says what the decision depends on, and **`summary_balanced`** what a scan counts.

Then sequences of scans on a clock that moves on with every reading. **`backoffs_le`**: an
execution with `k` rows marked `unknown_pending` is backed off at most `k` times, and any
other recovery of it that is not rolled back makes it terminal.
-/

namespace Sreda.Planner

open Sreda.Lib

/-! ### One scan -/

/-- The call of a scan: its arguments, the readings of `now_fn`, and the transactions that
the database fails. -/
structure ScanCall where
  workerId : String
  leaseSeconds : ℤ
  limit : ℕ
  clock : ℕ → ℤ
  claimFails : Bool := false
  recoverFails : String → Bool := fun _ => false

/-- What becomes of a claimed execution. -/
structure Pass where
  executionId : String
  now : ℤ
  /-- What `recover_execution` returned, or nothing when its transaction was rolled back. -/
  outcome : Option RecoverOutcome
  /-- The row of the execution after the transaction. -/
  after : Option PlannerExecution
deriving DecidableEq

/-- The summary of a scan. -/
structure ScanSummary where
  claimed : ℕ := 0
  failed : ℕ := 0
  failedNeedsManual : ℕ := 0
  committedUnservedNeedsManual : ℕ := 0
  reProbePending : ℕ := 0
  errored : ℕ := 0
deriving DecidableEq

/-- Count what became of a claimed execution. -/
def ScanSummary.tally (summary : ScanSummary) (pass : Pass) : ScanSummary :=
  match pass.outcome.map RecoverOutcome.status with
  | some (.resolved .failed) => { summary with failed := summary.failed + 1 }
  | some (.resolved .failedNeedsManual) => { summary with failedNeedsManual := summary.failedNeedsManual + 1 }
  | some (.resolved .committedUnservedNeedsManual) =>
    { summary with committedUnservedNeedsManual := summary.committedUnservedNeedsManual + 1 }
  | some .reProbePending => { summary with reProbePending := summary.reProbePending + 1 }
  | _ => { summary with errored := summary.errored + 1 }

/-- What a scan leaves and returns, with the alerts that it sends. -/
structure ScanResult where
  db : Database
  passes : List Pass
  summary : ScanSummary
  alerts : List AlertPayload

variable {db db' : Database} {other : String} {execution : PlannerExecution} {pass : Pass} {t : ℤ} {row : StepRow}

section Scan

variable (cfg : ScanSettings) (call : ScanCall)

/-- The transaction that recovers one claimed execution. -/
def recoverOne (db : Database) (now : ℤ) (executionId : String) : Database × Pass :=
  match if call.recoverFails executionId then none else (recoverExecution cfg db now db executionId).toOption with
  | none => (db, { executionId, now, outcome := none, after := db.executions.get? executionId })
  | some (db', outcome) => (db', { executionId, now, outcome := some outcome, after := db'.executions.get? executionId })

/-- The recoveries of a scan, the first of them at reading `i` of the clock. -/
def recoverAll (db : Database) (i : ℕ) : List String → Database × List Pass
  | [] => (db, [])
  | executionId :: ids =>
    let one := recoverOne cfg call db (call.clock i) executionId
    let rest := recoverAll one.1 (i + 1) ids
    (rest.1, one.2 :: rest.2)

/-- `run_recovery_scan`. -/
def runRecoveryScan (db : Database) : ScanResult :=
  if call.claimFails then { db, passes := [], summary := {}, alerts := [] }
  else
    let claim := claimStaleExecutions db call.workerId (call.clock 0) call.leaseSeconds call.limit
    let rest := recoverAll cfg call claim.1 1 claim.2
    { db := rest.1
      passes := rest.2
      summary := rest.2.foldl ScanSummary.tally { claimed := claim.2.length }
      alerts := rest.2.filterMap fun pass => pass.outcome.bind (·.alert) }

variable {cfg call}

/-- The counts of what became of the claimed executions, together. -/
def ScanSummary.total (t : ScanSummary) : ℕ :=
  t.failed + t.failedNeedsManual + t.committedUnservedNeedsManual + t.reProbePending + t.errored

theorem tally_one (summary : ScanSummary) (pass : Pass) :
    (summary.tally pass).claimed = summary.claimed ∧ (summary.tally pass).total = summary.total + 1 := by
  unfold ScanSummary.tally
  split <;> refine ⟨rfl, ?_⟩ <;> simp only [ScanSummary.total] <;> omega

theorem tally_passes (passes : List Pass) (summary : ScanSummary) :
    (passes.foldl ScanSummary.tally summary).claimed = summary.claimed ∧
      (passes.foldl ScanSummary.tally summary).total = summary.total + passes.length := by
  induction passes generalizing summary with
  | nil => exact ⟨rfl, rfl⟩
  | cons pass passes ih =>
    obtain ⟨h1, h2⟩ := tally_one summary pass
    obtain ⟨h3, h4⟩ := ih (summary.tally pass)
    rw [List.foldl_cons, List.length_cons]
    exact ⟨h3.trans h1, by omega⟩

theorem length_recoverAll (db : Database) (i : ℕ) (ids : List String) :
    (recoverAll cfg call db i ids).2.length = ids.length := by
  induction ids generalizing db i with
  | nil => rfl
  | cons id ids ih => simp [recoverAll, ih]

/-- **The summary**: every claimed execution is counted once. -/
theorem summary_balanced (db : Database) :
    (runRecoveryScan cfg call db).summary.claimed = (runRecoveryScan cfg call db).summary.total := by
  unfold runRecoveryScan
  by_cases h : call.claimFails
  · simp [h, ScanSummary.total]
  · simp only [h, Bool.false_eq_true, if_false]
    set claim := claimStaleExecutions db call.workerId (call.clock 0) call.leaseSeconds call.limit
    obtain ⟨h1, h2⟩ := tally_passes (recoverAll cfg call claim.1 1 claim.2).2 { claimed := claim.2.length }
    rw [h1, h2, length_recoverAll]
    simp [ScanSummary.total]

/-! ### What a scan does to one execution -/

/-- The row and the ledger rows of an execution are the same. -/
def SameExecution (executionId : String) (db db' : Database) : Prop :=
  db'.executions.get? executionId = db.executions.get? executionId ∧ db'.steps executionId = db.steps executionId

theorem SameExecution.refl (executionId : String) (db : Database) : SameExecution executionId db db := ⟨rfl, rfl⟩

theorem SameExecution.trans {executionId : String} {db'' : Database} (h : SameExecution executionId db db')
    (h' : SameExecution executionId db' db'') : SameExecution executionId db db'' :=
  ⟨h'.1.trans h.1, h'.2.trans h.2⟩

/-- Marks in one execution leave the ledger rows of another. -/
theorem markAll_other {now : ℤ} {executionId : String} (hne : other ≠ executionId)
    {ledger ledger' : StepLedger} {stepIds : List String} (h : markAll now other ledger stepIds = .ok ledger') :
    (ledger'.rows.filter fun row => row.executionId = executionId) =
      ledger.rows.filter fun row => row.executionId = executionId := by
  induction stepIds generalizing ledger with
  | nil => cases h; rfl
  | cons stepId stepIds ih =>
    simp only [markAll, List.foldlM_cons] at h
    obtain ⟨marked, hmark, hrest⟩ := Value.bind_ok.mp h
    obtain ⟨-, rfl⟩ := (markStepStatus_ok .committed).mp hmark
    rw [ih hrest, markRow, Keyed.rows_update, List.filter_map]
    have hexec : ∀ row : StepRow, (if row.key = (other, stepId) then row.close .committed now else row).executionId =
        row.executionId := fun row => by split <;> rfl
    simp only [decide_eq_true_eq, Function.comp_def, hexec]
    refine (List.map_congr_left fun row hrow => ?_).trans (List.map_id _)
    have : row.executionId = executionId := by simpa using (List.mem_filter.mp hrow).2
    rw [if_neg fun hkey => hne ((congrArg Prod.fst hkey).symm.trans this), id]

/-- A recovery leaves every other execution alone. -/
theorem recoverExecution_other {seen : Database} {now : ℤ} {executionId : String}
    (hne : other ≠ executionId) {outcome : RecoverOutcome}
    (h : recoverExecution cfg seen now db other = .ok (db', outcome)) : SameExecution executionId db db' := by
  rcases recoverExecution_ok h with ⟨-, rfl, -⟩ | ⟨execution, status, lease, ledger, -, -, hmarks, rfl⟩
  · exact .refl ..
  · refine ⟨(Keyed.get?_update (id_writeBack execution status lease)).trans ?_, markAll_other hne hmarks⟩
    cases hget : db.executions.get? executionId with
    | none => rfl
    | some row =>
      obtain ⟨-, rfl⟩ := Keyed.get?_eq_some.mp hget
      simp [hne.symm]

variable (cfg) in
/-- What the recovery of an execution does to it: `execution` is its row before. -/
inductive OwnPass (db : Database) (now : ℤ) (executionId : String) (execution : PlannerExecution) :
    Database → Pass → Prop where
  | rolledBack : OwnPass db now executionId execution db ⟨executionId, now, none, some execution⟩
  /-- It is backed off until the deadline of `row`, or for a second when that is earlier. -/
  | backedOff {db' : Database} {row : StepRow} {after : PlannerExecution} (hrow : row ∈ db.steps executionId)
      (hawaited : isAwaited cfg db now row)
      (hafter : after =
        { execution with recoveryLeaseUntil := some (max (settleDeadline cfg row) (now + seconds 1)) })
      (hget : db'.executions.get? executionId = some after) (hsteps : db'.steps executionId = db.steps executionId) :
      OwnPass db now executionId execution db' ⟨executionId, now, some ⟨.reProbePending, none⟩, some after⟩
  /-- It is made terminal. -/
  | resolved {db' : Database} {status : ExecutionStatus} {alert : Option AlertPayload} {after : PlannerExecution}
      (hterminal : status.terminal)
      (hafter : after = { execution with executionStatus := status, recoveryLeaseUntil := none })
      (hget : db'.executions.get? executionId = some after) :
      OwnPass db now executionId execution db' ⟨executionId, now, some ⟨.resolved status, alert⟩, some after⟩

theorem OwnPass.executionId {now : ℤ} {executionId : String}
    (h : OwnPass cfg db now executionId execution db' pass) : pass.executionId = executionId := by
  cases h with
  | rolledBack | backedOff | resolved => rfl

theorem writeBack_self (execution : PlannerExecution) (status : ExecutionStatus) (lease : Option ℤ) :
    writeBack execution status lease execution =
      { execution with executionStatus := status, recoveryLeaseUntil := lease } := by
  unfold writeBack
  congr 1
  · split
    · next h => exact h.symm
    · rfl
  · split
    · next h => exact h.symm
    · rfl

variable (cfg call) in
/-- **The recovery of an execution**, in one transaction. -/
theorem recoverOne_own {executionId : String} (hget : db.executions.get? executionId = some execution) (now : ℤ) :
    OwnPass cfg db now executionId execution (recoverOne cfg call db now executionId).1
      (recoverOne cfg call db now executionId).2 := by
  unfold recoverOne
  split
  · rw [hget]
    exact .rolledBack
  · next db' outcome h =>
    have hok : recoverExecution cfg db now db executionId = .ok (db', outcome) := by
      split at h
      · cases h
      · cases hr : recoverExecution cfg db now db executionId with
        | error exc => rw [hr] at h; cases h
        | ok r => rw [hr] at h; cases h; rfl
    rcases recoverExecution_ok hok with ⟨hnone, -, -⟩ | ⟨read, status, lease, ledger, hread, hres, hmarks, rfl⟩
    · rw [hget] at hnone; cases hnone
    cases hget.symm.trans hread
    have hafter : (db.executions.update (fun row => row.id = executionId) (writeBack execution status lease)
        (id_writeBack execution status lease)).get? executionId =
          some { execution with executionStatus := status, recoveryLeaseUntil := lease } := by
      refine (Keyed.get?_update (id_writeBack execution status lease)).trans ?_
      rw [hget, Option.map_some, if_pos (by simpa using (Keyed.get?_eq_some.mp hget).2), writeBack_self]
    rw [show (Database.executions _).get? executionId = _ from hafter]
    cases hres with
    | unserved => exact .resolved rfl rfl hafter
    | manual => exact .resolved rfl rfl hafter
    | failed => exact .resolved rfl rfl hafter
    | reProbe row hlanded hrow hawaited =>
      -- no row has landed, so none is marked
      have hnone : (db.steps executionId).filter (isUnmarked cfg db) = [] := by
        refine List.filter_eq_nil_iff.mpr fun other hother hun => ?_
        simpa [landed_of_unmarked hun] using List.any_eq_false.mp hlanded other hother
      rw [hnone] at hmarks
      cases hmarks
      exact .backedOff hrow hawaited rfl hafter rfl

variable (cfg call) in
theorem recoverOne_other (db : Database) {executionId : String} (hne : other ≠ executionId) (now : ℤ) :
    SameExecution executionId db (recoverOne cfg call db now other).1 ∧
      (recoverOne cfg call db now other).2.executionId = other := by
  unfold recoverOne
  split
  · exact ⟨.refl .., rfl⟩
  · next db' outcome h =>
    split at h
    · cases h
    · cases hr : recoverExecution cfg db now db other with
      | error exc => rw [hr] at h; cases h
      | ok r => rw [hr] at h; cases h; exact ⟨recoverExecution_other hne hr, rfl⟩

/-- The passes of an execution. -/
def ownPasses (executionId : String) (passes : List Pass) : List Pass :=
  passes.filter fun pass => pass.executionId = executionId

variable (cfg call) in
theorem recoverAll_other {executionId : String} {ids : List String} (hmem : executionId ∉ ids) (db : Database) (i : ℕ) :
    SameExecution executionId db (recoverAll cfg call db i ids).1 ∧
      ownPasses executionId (recoverAll cfg call db i ids).2 = [] := by
  induction ids generalizing db i with
  | nil => exact ⟨.refl .., rfl⟩
  | cons other ids ih =>
    have hne : other ≠ executionId := fun h => hmem (h ▸ List.mem_cons_self)
    obtain ⟨hsame, hid⟩ := recoverOne_other cfg call db hne (call.clock i)
    obtain ⟨hrest, hown⟩ := ih (fun h => hmem (List.mem_cons_of_mem _ h)) (recoverOne cfg call db (call.clock i) other).1
      (i + 1)
    refine ⟨hsame.trans hrest, ?_⟩
    simp only [ownPasses] at hown ⊢
    simp only [recoverAll, List.filter_cons, hid, hne, decide_false, Bool.false_eq_true, if_false, hown]

variable (cfg call) in
/-- The recoveries of a scan that has claimed the execution. -/
theorem recoverAll_own {executionId : String} {ids : List String} (hnodup : ids.Nodup) (hmem : executionId ∈ ids)
    (hget : db.executions.get? executionId = some execution) (i : ℕ) :
    ∃ j db₁ db₂ pass, i ≤ j ∧ j < i + ids.length ∧ SameExecution executionId db db₁ ∧
      OwnPass cfg db₁ (call.clock j) executionId execution db₂ pass ∧
      SameExecution executionId db₂ (recoverAll cfg call db i ids).1 ∧
      ownPasses executionId (recoverAll cfg call db i ids).2 = [pass] := by
  induction ids generalizing db i with
  | nil => cases hmem
  | cons other ids ih =>
    obtain ⟨hfresh, hnodup⟩ := List.nodup_cons.mp hnodup
    by_cases hne : other = executionId
    · subst hne
      obtain ⟨hsame, hown⟩ := recoverAll_other cfg call hfresh
        (recoverOne cfg call db (call.clock i) other).1 (i + 1)
      have hpass := recoverOne_own cfg call hget (call.clock i)
      refine ⟨i, db, _, _, le_rfl, by simp, .refl .., hpass, hsame, ?_⟩
      simp only [ownPasses] at hown ⊢
      simp [recoverAll, hpass.executionId, hown]
    · obtain ⟨hsame, hid⟩ := recoverOne_other cfg call db hne (call.clock i)
      have hmem' : executionId ∈ ids := (List.mem_cons.mp hmem).resolve_left (Ne.symm hne)
      obtain ⟨j, db₁, db₂, pass, hij, hj, hsame', hpass, hrest, hown⟩ := ih hnodup hmem' (hsame.1.trans hget) (i + 1)
      refine ⟨j, db₁, db₂, pass, by omega, by simp only [List.length_cons]; omega, hsame.trans hsame', hpass, hrest, ?_⟩
      simp only [ownPasses] at hown ⊢
      simp only [recoverAll, List.filter_cons, hid, hne, decide_false, Bool.false_eq_true, if_false, hown]

variable (cfg call) in
/-- **A scan and one execution.** The scan leaves the execution alone; or it claims it, which
it does under no running lease only, and recovers it once, at a later reading of the clock. -/
theorem runRecoveryScan_own (db : Database) (executionId : String) :
    (SameExecution executionId db (runRecoveryScan cfg call db).db ∧
      ownPasses executionId (runRecoveryScan cfg call db).passes = []) ∨
    ∃ execution j db₁ db₂ pass, db.executions.get? executionId = some execution ∧ execution.stalled (call.clock 0) ∧
      1 ≤ j ∧ j ≤ (runRecoveryScan cfg call db).passes.length ∧ db₁.steps executionId = db.steps executionId ∧
      OwnPass cfg db₁ (call.clock j) executionId
        (execution.claimed call.workerId (call.clock 0 + seconds call.leaseSeconds)) db₂ pass ∧
      SameExecution executionId db₂ (runRecoveryScan cfg call db).db ∧
      ownPasses executionId (runRecoveryScan cfg call db).passes = [pass] := by
  unfold runRecoveryScan
  by_cases hfail : call.claimFails
  · rw [if_pos hfail]
    exact .inl ⟨.refl .., rfl⟩
  rw [if_neg hfail]
  have hclaim := get?_claimStaleExecutions db call.workerId (call.clock 0) call.leaseSeconds call.limit executionId
  obtain ⟨hnodup, hstale⟩ := staleExecutions_spec db (call.clock 0) call.limit
  by_cases hmem : executionId ∈ staleExecutions db (call.clock 0) call.limit
  · obtain ⟨execution, hget, hstalled⟩ := hstale executionId hmem
    rw [hget, Option.map_some, if_pos hmem] at hclaim
    obtain ⟨j, db₁, db₂, pass, hj, hj', hsame, hpass, hrest, hown⟩ :=
      recoverAll_own cfg call hnodup hmem hclaim 1
    refine .inr ⟨execution, j, db₁, db₂, pass, hget, hstalled, hj, ?_, hsame.2, hpass, hrest, hown⟩
    rw [length_recoverAll]
    simp only [claimStaleExecutions]
    omega
  · obtain ⟨hsame, hown⟩ := recoverAll_other cfg call hmem
      (claimStaleExecutions db call.workerId (call.clock 0) call.leaseSeconds call.limit).1 1
    have hclaimed : SameExecution executionId db
        (claimStaleExecutions db call.workerId (call.clock 0) call.leaseSeconds call.limit).1 := by
      refine ⟨hclaim.trans ?_, rfl⟩
      cases db.executions.get? executionId with
      | none => rfl
      | some execution => simp [hmem]
    exact .inl ⟨hclaimed.trans hsame, hown⟩

end Scan

/-! ### The order of the ledger rows -/

section Order

variable {cfg : ScanSettings} {seen : Database} {now : ℤ} {rows rows' : List StepRow} {findings findings' : Findings}

/-- The findings do not depend on the order, but for that of the marks. -/
theorem Found.perm (h : Found cfg seen now rows findings) (hperm : rows.Perm rows') :
    Found cfg seen now rows' { findings with marked := (rows'.filter (isUnmarked cfg seen)).map (·.stepId) } where
  landed := h.landed.trans (hperm.any_eq)
  awaited := h.awaited.trans (hperm.any_eq)
  lost := h.lost.trans (hperm.any_eq)
  marked := rfl
  earliest_of deadline hmem := by
    obtain ⟨row, hrow, hawaited⟩ := h.earliest_of deadline hmem
    exact ⟨row, hperm.mem_iff.mp hrow, hawaited⟩
  earliest_le row hrow := h.earliest_le row (hperm.mem_iff.mpr hrow)

/-- The earliest deadline is determined by the rows. -/
theorem Found.earliest_unique (h : Found cfg seen now rows findings) (h' : Found cfg seen now rows findings') :
    findings.earliestReprobeDeadline = findings'.earliestReprobeDeadline := by
  have hle : ∀ {findings₁ findings₂ : Findings}, Found cfg seen now rows findings₁ → Found cfg seen now rows findings₂ →
      ∀ deadline ∈ findings₁.earliestReprobeDeadline, ∃ other ∈ findings₂.earliestReprobeDeadline, other ≤ deadline := by
    intro findings₁ findings₂ h₁ h₂ deadline hmem
    obtain ⟨row, hrow, hawaited, rfl⟩ := h₁.earliest_of deadline hmem
    exact h₂.earliest_le row hrow hawaited
  refine Option.ext fun deadline => ⟨fun hmem => ?_, fun hmem => ?_⟩
  · obtain ⟨other, hother, hlower⟩ := hle h h' deadline hmem
    obtain ⟨back, hback, hlower'⟩ := hle h' h other hother
    obtain rfl := Option.mem_unique hmem hback
    rwa [le_antisymm hlower' hlower]
  · obtain ⟨other, hother, hlower⟩ := hle h' h deadline hmem
    obtain ⟨back, hback, hlower'⟩ := hle h h' other hother
    obtain rfl := Option.mem_unique hmem hback
    rwa [le_antisymm hlower' hlower]

/-- **The decision does not depend on the order.** -/
theorem Found.resolve_eq (h : Found cfg seen now rows findings) (h' : Found cfg seen now rows' findings')
    (hperm : rows.Perm rows') (execution : PlannerExecution) : resolve now execution findings = resolve now execution findings' := by
  have hlanded : findings.anyCommittedDurable = findings'.anyCommittedDurable :=
    (h.landed.trans hperm.any_eq).trans h'.landed.symm
  have hawaited : findings.reProbePending = findings'.reProbePending := (h.awaited.trans hperm.any_eq).trans h'.awaited.symm
  have hlost : findings.needsManual = findings'.needsManual := (h.lost.trans hperm.any_eq).trans h'.lost.symm
  have hearliest : findings.earliestReprobeDeadline = findings'.earliestReprobeDeadline := (h.perm hperm).earliest_unique h'
  unfold resolve
  rw [hlanded, hawaited, hlost, hearliest]

theorem Resolution.status_iff {decision : ExecutionStatus × Option ℤ × RecoverOutcome}
    (h : Resolution cfg seen now rows execution decision) :
    (decision.2.2.status = .resolved .committedUnservedNeedsManual ↔
      ∃ row ∈ rows, isDurableStep cfg row ∧ (row.status = .closed .committed ∨ probeOperation seen row.operationId)) ∧
    decision.2.2.status ≠ .resolved .completed := by
  have hany : rows.any (hasLanded cfg seen) = true ↔
      ∃ row ∈ rows, isDurableStep cfg row ∧ (row.status = .closed .committed ∨ probeOperation seen row.operationId) := by
    simp [hasLanded]
  rw [← hany]
  cases h with
  | unserved hlanded => exact ⟨⟨fun _ => hlanded, fun _ => rfl⟩, fun heq => by cases heq⟩
  | reProbe _ hlanded | manual hlanded | failed hlanded =>
    refine ⟨⟨(fun heq => by cases heq), fun hlanded' => ?_⟩, fun heq => by cases heq⟩
    rw [hlanded] at hlanded'
    cases hlanded'

end Order

/-- **The decision of a recovery** over any ledger rows and any audit tables: it does not depend on the order in which the rows
are read, it is `committed_unserved_needs_manual` iff a durable write has landed, and it is never `completed`; and a scan counts
each claimed execution once. -/
theorem recovery_decision (cfg : ScanSettings) :
    (∀ seen now execution rows rows', rows.Perm rows' →
      (recoverRows cfg seen now rows).map (resolve now execution) = (recoverRows cfg seen now rows').map (resolve now execution)) ∧
    (∀ seen now execution rows, ∃ decision,
      (recoverRows cfg seen now rows).map (resolve now execution) = .ok decision ∧
      (decision.2.2.status = .resolved .committedUnservedNeedsManual ↔
        ∃ row ∈ rows, isDurableStep cfg row ∧ (row.status = .closed .committed ∨ probeOperation seen row.operationId)) ∧
      decision.2.2.status ≠ .resolved .completed) ∧
    (∀ seen now db executionId db' outcome, recoverExecution cfg seen now db executionId = .ok (db', outcome) →
      (outcome.status = .resolved .committedUnservedNeedsManual ↔
        seen.executions.get? executionId ≠ none ∧ ∃ row ∈ seen.steps executionId,
          isDurableStep cfg row ∧ (row.status = .closed .committed ∨ probeOperation seen row.operationId)) ∧
      outcome.status ≠ .resolved .completed) ∧
    (∀ call db, (runRecoveryScan cfg call db).summary.claimed = (runRecoveryScan cfg call db).summary.total) := by
  refine ⟨?_, ?_, ?_, fun call db => summary_balanced db⟩
  · intro seen now execution rows rows' hperm
    obtain ⟨findings, hrun, hfound⟩ := recoverRows_found cfg seen now rows
    obtain ⟨findings', hrun', hfound'⟩ := recoverRows_found cfg seen now rows'
    rw [hrun, hrun']
    exact congrArg Except.ok (hfound.resolve_eq hfound' hperm execution)
  · intro seen now execution rows
    obtain ⟨findings, hrun, hfound⟩ := recoverRows_found cfg seen now rows
    exact ⟨resolve now execution findings, by rw [hrun]; rfl, (hfound.resolution execution).status_iff⟩
  · intro seen now db executionId db' outcome hok
    rcases recoverExecution_ok hok with ⟨hnone, -, rfl⟩ | ⟨execution, status, lease, ledger, hsome, hres, -, -⟩
    · exact ⟨⟨(fun heq => by cases heq), fun h => absurd hnone h.1⟩, fun heq => by cases heq⟩
    · obtain ⟨hstatus, hcompleted⟩ := hres.status_iff
      have hfound : seen.executions.get? executionId ≠ none := by
        rw [hsome]
        exact fun h => by cases h
      exact ⟨hstatus.trans (and_iff_right hfound).symm, hcompleted⟩

/-- A committed step beside one that timed out at second 0. -/
def mixedRows : List StepRow :=
  [⟨"exec_1", "s1", none, "op_1", .closed .committed, 0, 0⟩, ⟨"exec_1", "s2", none, "op_2", .closed .unknownPending, 0, 0⟩]

/-- **A committed write dominates**: at second 10 the other step is still waited for. -/
theorem committed_dominates :
    ((recoverRows ⟨fun _ => none, 240⟩ ⟨.empty, .empty, [], []⟩ (seconds 10) mixedRows).map fun findings =>
        (resolve (seconds 10) ⟨"exec_1", .inProgress, none, 0, none, 0⟩ findings).2.2.status) =
      .ok (.resolved .committedUnservedNeedsManual) ∧
    ∃ row ∈ mixedRows, isAwaited ⟨fun _ => none, 240⟩ ⟨.empty, .empty, [], []⟩ (seconds 10) row :=
  ⟨rfl, _, List.mem_cons_of_mem _ List.mem_cons_self, rfl⟩

/-! ### Sequences of scans -/

/-- Scans that have run: the tables, the last reading of the clock, and what has become of
one execution so far. -/
structure ScanState where
  db : Database
  clock : ℤ
  passes : List Pass

/-- A step of a sequence of scans. -/
inductive ScanEvent where
  | scan (call : ScanCall)
  /-- Other writers; they leave the rows of the execution alone. -/
  | outside

section Sequence

variable (cfg : ScanSettings) (executionId : String)

/-- Scans one after another, on a clock whose readings strictly increase. -/
def scanning : Lts ScanState ScanEvent where
  init s := s.passes = []
  step s e s' :=
    match e with
    | .scan call =>
      let result := runRecoveryScan cfg call s.db
      s.clock < call.clock 0 ∧ (∀ i j, i < j → call.clock i < call.clock j) ∧ s'.db = result.db ∧
        s'.passes = s.passes ++ ownPasses executionId result.passes ∧ s'.clock = call.clock result.passes.length
    | .outside =>
      s'.db.executions.get? executionId = s.db.executions.get? executionId ∧
        (s'.db.steps executionId).Perm (s.db.steps executionId) ∧ s'.clock = s.clock ∧ s'.passes = s.passes

/-- The execution was backed off. -/
def Pass.backedOff (pass : Pass) : Bool := pass.outcome.map RecoverOutcome.status = some .reProbePending

/-- The execution is terminal when the pass is over. -/
def Pass.terminal (pass : Pass) : Bool := pass.after.any fun execution => execution.executionStatus.terminal

/-- The lease when the pass is over. -/
def Pass.lease? (pass : Pass) : Option ℤ := pass.after.bind (·.recoveryLeaseUntil)

/-- A row with status `unknown_pending`. -/
def StepRow.isPending (row : StepRow) : Bool := row.status = .closed .unknownPending

/-- `row` is the row whose deadline has set the lease of a pass: it was waited for. -/
structure SetsLease (row : StepRow) (pass : Pass) : Prop where
  pending : row.isPending
  open_now : settleElapsed cfg pass.now row = false
  lease : pass.lease? = some (max (settleDeadline cfg row) (pass.now + seconds 1))

/-- What the passes of an execution with these ledger rows come to. -/
structure BackoffBound (rows : List StepRow) (passes : List Pass) : Prop where
  /-- It is backed off at most as often as it has pending rows. -/
  count : passes.countP Pass.backedOff ≤ rows.countP StepRow.isPending
  /-- Any other recovery makes it terminal. -/
  resolves : ∀ pass ∈ passes, pass.outcome.isSome → pass.backedOff = false → pass.terminal
  /-- A terminal execution is not claimed again. -/
  last : passes.Pairwise fun pass _ => pass.terminal = false
  /-- A re-probe lease lies strictly in the future, and it is the deadline of some row. -/
  future : ∀ pass ∈ passes, pass.backedOff →
    (∃ lease, pass.lease? = some lease ∧ pass.now < lease) ∧ ∃ row ∈ rows, SetsLease cfg row pass
  /-- When the execution is claimed again, that row is no longer waited for. -/
  settles : passes.Pairwise fun pass later => pass.backedOff → ∀ row ∈ rows, SetsLease cfg row pass →
    ∀ seen, isAwaited cfg seen later.now row = false

/-- The execution can be claimed at `t`, which the clock has yet to show. -/
def Claimable (s : ScanState) (t : ℤ) : Prop :=
  s.clock < t ∧ ∃ execution, s.db.executions.get? executionId = some execution ∧ execution.stalled t

/-- The rows that a scan at `t` may wait for. -/
def openRows (rows : List StepRow) (t : ℤ) : ℕ :=
  rows.countP fun row => row.isPending && !settleElapsed cfg t row

/-- What holds between two scans. -/
structure BackoffInv (rows : List StepRow) (s : ScanState) : Prop where
  bound : BackoffBound cfg rows s.passes
  steps : ∀ t, Claimable executionId s t → (s.db.steps executionId).Perm rows
  live : ∀ t, Claimable executionId s t → ∀ pass ∈ s.passes, pass.terminal = false
  /-- The rows still to be waited for make up for the backoffs so far. -/
  progress : ∀ t, Claimable executionId s t →
    s.passes.countP Pass.backedOff + openRows cfg rows t ≤ rows.countP StepRow.isPending
  elapsed : ∀ t, Claimable executionId s t → ∀ pass ∈ s.passes, pass.backedOff → ∀ row ∈ rows, SetsLease cfg row pass →
    settleElapsed cfg t row

variable {cfg executionId}

theorem settleElapsed_mono {t' : ℤ} (h : t ≤ t') (he : settleElapsed cfg t row) : settleElapsed cfg t' row := by
  simp only [settleElapsed, decide_eq_true_eq] at he ⊢
  omega

theorem settleElapsed_iff : settleElapsed cfg t row ↔ settleDeadline cfg row < t := by
  simp only [settleElapsed, settleDeadline, decide_eq_true_eq]
  omega

variable (cfg) in
theorem openRows_anti {t' : ℤ} (h : t ≤ t') (rows : List StepRow) : openRows cfg rows t' ≤ openRows cfg rows t := by
  refine List.countP_mono_left fun row _ hrow => ?_
  simp only [Bool.and_eq_true, Bool.not_eq_true'] at hrow ⊢
  refine ⟨hrow.1, ?_⟩
  by_contra he
  simp [settleElapsed_mono h (by simpa using he)] at hrow

variable (cfg) in
/-- Once a row that was open has settled, fewer rows are open. -/
theorem openRows_lt {t' : ℤ} (h : t ≤ t') {rows : List StepRow} (hrow : row ∈ rows)
    (hpending : row.isPending) (hopen : settleElapsed cfg t row = false) (hsettled : settleElapsed cfg t' row) :
    openRows cfg rows t' < openRows cfg rows t := by
  induction rows with
  | nil => cases hrow
  | cons other rows ih =>
    simp only [openRows, List.countP_cons] at ih ⊢
    rcases List.mem_cons.mp hrow with rfl | hmem
    · have := openRows_anti cfg h rows
      simp only [openRows] at this
      simp only [hpending, hopen, hsettled, Bool.not_true, Bool.and_false, Bool.not_false, Bool.and_self, if_true,
        Bool.false_eq_true, if_false]
      omega
    · have hlt := ih hmem
      have hone := openRows_anti cfg h [other]
      simp only [openRows, List.countP_cons, List.countP_nil] at hone
      omega

variable {rows : List StepRow} {s s' : ScanState}

theorem BackoffInv.init (h : s.passes = []) : BackoffInv cfg executionId (s.db.steps executionId) s where
  bound := by
    constructor <;> simp [h]
  steps _ _ := .refl _
  live := by simp [h]
  progress _ _ := by
    rw [h, List.countP_nil, Nat.zero_add]
    refine List.countP_mono_left fun row _ hrow => ?_
    simp only [Bool.and_eq_true] at hrow
    exact hrow.1
  elapsed := by simp [h]

theorem BackoffInv.quiet (hi : BackoffInv cfg executionId rows s) (hpasses : s'.passes = s.passes)
    (hclock : s.clock ≤ s'.clock) (hget : s'.db.executions.get? executionId = s.db.executions.get? executionId)
    (hsteps : (s'.db.steps executionId).Perm (s.db.steps executionId)) : BackoffInv cfg executionId rows s' := by
  have hclaim : ∀ t, Claimable executionId s' t → Claimable executionId s t := fun t ⟨ht, execution, hex, hst⟩ =>
    ⟨by omega, execution, hget ▸ hex, hst⟩
  exact {
    bound := hpasses ▸ hi.bound
    steps := fun t ht => hsteps.trans (hi.steps t (hclaim t ht))
    live := fun t ht => hpasses ▸ hi.live t (hclaim t ht)
    progress := fun t ht => hpasses ▸ hi.progress t (hclaim t ht)
    elapsed := fun t ht => hpasses ▸ hi.elapsed t (hclaim t ht) }

/-- One more pass keeps the bound, by what the pass is. -/
theorem BackoffInv.bound_snoc (hi : BackoffInv cfg executionId rows s) (ht : Claimable executionId s t)
    (hlater : t ≤ pass.now)
    (hopen : pass.backedOff → 1 ≤ openRows cfg rows pass.now)
    (hresolves : pass.outcome.isSome → pass.backedOff = false → pass.terminal)
    (hfuture : pass.backedOff → (∃ lease, pass.lease? = some lease ∧ pass.now < lease) ∧
      ∃ row ∈ rows, SetsLease cfg row pass) : BackoffBound cfg rows (s.passes ++ [pass]) where
  count := by
    rw [List.countP_append, List.countP_singleton]
    have hprogress := hi.progress t ht
    have hanti := openRows_anti cfg hlater rows
    by_cases hb : pass.backedOff
    · have := hopen hb
      rw [if_pos hb]
      omega
    · rw [if_neg hb]
      omega
  resolves other hother := by
    rcases List.mem_append.mp hother with h | h
    · exact hi.bound.resolves other h
    · rw [List.mem_singleton.mp h]
      exact hresolves
  last := by
    refine List.pairwise_append.mpr ⟨hi.bound.last, List.pairwise_singleton _ _, fun other hother _ _ => ?_⟩
    exact hi.live t ht other hother
  future other hother := by
    rcases List.mem_append.mp hother with h | h
    · exact hi.bound.future other h
    · rw [List.mem_singleton.mp h]
      exact hfuture
  settles := by
    refine List.pairwise_append.mpr ⟨hi.bound.settles, List.pairwise_singleton _ _, ?_⟩
    intro other hother later hl hb row hrow hsets seen
    rw [List.mem_singleton.mp hl]
    have := settleElapsed_mono hlater (hi.elapsed t ht other hother hb row hrow hsets)
    simp [isAwaited, this]

theorem isAwaited_iff {seen : Database} {now : ℤ} : isAwaited cfg seen now row ↔
    isDurableStep cfg row ∧ row.isPending ∧ probeOperation seen row.operationId = false ∧
      settleElapsed cfg now row = false := by
  simp [isAwaited, StepRow.isPending, and_assoc]

/-- A pass after which the execution may be claimed again. -/
theorem BackoffInv.live_snoc (hi : BackoffInv cfg executionId rows s) {c : ℤ} (hclaim : Claimable executionId s c)
    (hterminal : pass.terminal = false) : ∀ other ∈ s.passes ++ [pass], other.terminal = false := by
  intro other hother
  rcases List.mem_append.mp hother with h | h
  · exact hi.live c hclaim other h
  · rw [List.mem_singleton.mp h, hterminal]

theorem BackoffInv.own (hi : BackoffInv cfg executionId rows s) {c now : ℤ}
    (hc : s.clock < c) (hnow : c < now) (hget : s.db.executions.get? executionId = some execution)
    (hstalled : execution.stalled c) {db₁ db₂ : Database} {workerId : String} {leaseEnd : ℤ}
    (hsteps₁ : db₁.steps executionId = s.db.steps executionId)
    (hpass : OwnPass cfg db₁ now executionId (execution.claimed workerId leaseEnd) db₂ pass)
    (hsame : SameExecution executionId db₂ s'.db) (hclock : now ≤ s'.clock) (hpasses : s'.passes = s.passes ++ [pass]) :
    BackoffInv cfg executionId rows s' := by
  have hclaim : Claimable executionId s c := ⟨hc, execution, hget, hstalled⟩
  have hperm := hi.steps c hclaim
  have hstatus : (execution.claimed workerId leaseEnd).executionStatus = .inProgress := (stalled_iff.mp hstalled).1
  cases hpass with
  | rolledBack =>
    have hb : Pass.backedOff ⟨executionId, now, none, some (execution.claimed workerId leaseEnd)⟩ = false := rfl
    have hterminal : Pass.terminal ⟨executionId, now, none, some (execution.claimed workerId leaseEnd)⟩ = false := by
      simp [Pass.terminal, hstatus, ExecutionStatus.terminal]
    refine ⟨?_, fun t _ => ?_, fun t _ => ?_, fun t ht => ?_, fun t ht => ?_⟩
    · rw [hpasses]
      exact hi.bound_snoc hclaim hnow.le (by simp [hb]) (by simp) (by simp [hb])
    · rw [hsame.2, hsteps₁]
      exact hperm
    · rw [hpasses]
      exact hi.live_snoc hclaim hterminal
    · have hlt : c ≤ t := by have := ht.1; omega
      have := hi.progress c hclaim
      have := openRows_anti cfg hlt rows
      rw [hpasses, List.countP_append, List.countP_singleton, hb]
      simp only [Bool.false_eq_true, if_false]
      omega
    · have hlt : c ≤ t := by have := ht.1; omega
      rw [hpasses]
      intro other hother hbo row hrow hsets
      rcases List.mem_append.mp hother with h | h
      · exact settleElapsed_mono hlt (hi.elapsed c hclaim other h hbo row hrow hsets)
      · rw [List.mem_singleton.mp h, hb] at hbo
        cases hbo
  | @backedOff _ row after hrow hawaited hafter hget₂ hsteps₂ =>
    obtain ⟨-, hpending, -, hopen⟩ := isAwaited_iff.mp hawaited
    have hrow' : row ∈ rows := hperm.subset (hsteps₁ ▸ hrow)
    have hb : Pass.backedOff ⟨executionId, now, some ⟨.reProbePending, none⟩, some after⟩ = true := rfl
    have hlease : Pass.lease? ⟨executionId, now, some ⟨.reProbePending, none⟩, some after⟩ =
        some (max (settleDeadline cfg row) (now + seconds 1)) := by
      simp [Pass.lease?, hafter]
    have hterminal : Pass.terminal ⟨executionId, now, some ⟨.reProbePending, none⟩, some after⟩ = false := by
      simp [Pass.terminal, hafter, hstatus, ExecutionStatus.terminal]
    -- the execution is claimable again when the lease has run out
    have hready : ∀ t, Claimable executionId s' t → c ≤ t ∧ max (settleDeadline cfg row) (now + seconds 1) < t := by
      rintro t ⟨ht, later, hlater, hst⟩
      rw [hsame.1, hget₂] at hlater
      cases hlater
      exact ⟨by omega, (stalled_iff.mp hst).2 _ (by simp [hafter])⟩
    refine ⟨?_, fun t _ => ?_, fun t _ => ?_, fun t ht => ?_, fun t ht => ?_⟩
    · rw [hpasses]
      refine hi.bound_snoc hclaim hnow.le (fun _ => ?_) (by simp [hb]) fun _ =>
        ⟨⟨_, hlease, ?_⟩, row, hrow', hpending, hopen, hlease⟩
      · exact List.countP_pos_iff.mpr ⟨row, hrow', by simp [hpending, hopen]⟩
      · refine lt_of_lt_of_le ?_ (le_max_right _ _)
        simp only [seconds]
        omega
    · rw [hsame.2, hsteps₂, hsteps₁]
      exact hperm
    · rw [hpasses]
      exact hi.live_snoc hclaim hterminal
    · obtain ⟨hct, hlt⟩ := hready t ht
      have hsettled : settleElapsed cfg t row := settleElapsed_iff.mpr (lt_of_le_of_lt (le_max_left _ _) hlt)
      have hnt : now ≤ t := by simp only [seconds] at hlt; omega
      have := hi.progress c hclaim
      have := openRows_anti cfg hnow.le rows
      have := openRows_lt cfg hnt hrow' hpending hopen hsettled
      rw [hpasses, List.countP_append, List.countP_singleton, hb, if_pos rfl]
      omega
    · obtain ⟨hct, hlt⟩ := hready t ht
      rw [hpasses]
      intro other hother hbo row' hrow'' hsets
      rcases List.mem_append.mp hother with h | h
      · exact settleElapsed_mono hct (hi.elapsed c hclaim other h hbo row' hrow'' hsets)
      · rw [List.mem_singleton.mp h] at hsets
        have heq := Option.some.inj (hlease.symm.trans hsets.lease)
        rw [heq] at hlt
        exact settleElapsed_iff.mpr (lt_of_le_of_lt (le_max_left _ _) hlt)
  | @resolved _ status alert after hterminal hafter hget₂ =>
    have hb : Pass.backedOff ⟨executionId, now, some ⟨.resolved status, alert⟩, some after⟩ = false := rfl
    -- a terminal execution is not claimed again
    have hdone : ∀ t, ¬ Claimable executionId s' t := by
      rintro t ⟨-, later, hlater, hst⟩
      rw [hsame.1, hget₂] at hlater
      cases hlater
      have := (stalled_iff.mp hst).1
      simp only [hafter] at this
      rw [this] at hterminal
      cases hterminal
    refine ⟨?_, fun t ht => absurd ht (hdone t), fun t ht => absurd ht (hdone t), fun t ht => absurd ht (hdone t),
      fun t ht => absurd ht (hdone t)⟩
    rw [hpasses]
    exact hi.bound_snoc hclaim hnow.le (by simp [hb]) (fun _ _ => by simp [Pass.terminal, hafter, hterminal])
      (by simp [hb])

/-- A step of a sequence of scans keeps the invariant. -/
theorem BackoffInv.step (hi : BackoffInv cfg executionId rows s) {e : ScanEvent}
    (hs : (scanning cfg executionId).step s e s') : BackoffInv cfg executionId rows s' := by
  cases e with
  | outside =>
    obtain ⟨hget, hsteps, hclock, hpasses⟩ := hs
    exact hi.quiet hpasses hclock.ge hget hsteps
  | scan call =>
    obtain ⟨hstart, hmono, hdb, hpasses, hclock⟩ := hs
    have hle : call.clock 0 ≤ s'.clock := by
      rw [hclock]
      rcases Nat.eq_zero_or_pos (runRecoveryScan cfg call s.db).passes.length with h | h
      · rw [h]
      · exact (hmono _ _ h).le
    rcases runRecoveryScan_own cfg call s.db executionId with
      ⟨hsame, hown⟩ | ⟨execution, j, db₁, db₂, pass, hget, hstalled, hj, hj', hsteps₁, hpass, hsame, hown⟩
    · exact hi.quiet (by rw [hpasses, hown, List.append_nil]) (by omega) (hdb ▸ hsame.1) (hdb ▸ hsame.2 ▸ .refl _)
    · have hnow : call.clock j ≤ s'.clock := by
        rw [hclock]
        rcases hj'.lt_or_eq with h | h
        · exact (hmono _ _ h).le
        · rw [h]
      exact hi.own hstart (hmono 0 j hj) hget hstalled hsteps₁ hpass (hdb ▸ hsame) hnow (by rw [hpasses, hown])

theorem BackoffInv.run {as : List ScanEvent} (hr : (scanning cfg executionId).Run s as s')
    (hi : BackoffInv cfg executionId rows s) :
    BackoffInv cfg executionId rows s' :=
  hr.keeps (fun _ _ _ hi hs => BackoffInv.step hi hs) hi

/-- A recovered execution that is not terminal was backed off. -/
theorem BackoffBound.reaches {passes : List Pass} (h : BackoffBound cfg rows passes)
    (hmany : rows.countP StepRow.isPending < passes.countP fun pass => pass.outcome.isSome) :
    ∃ pass ∈ passes, pass.terminal := by
  by_contra hnone
  have hle : (passes.countP fun pass => pass.outcome.isSome) ≤ passes.countP Pass.backedOff := by
    refine List.countP_mono_left fun pass hpass hsome => ?_
    by_contra hb
    exact hnone ⟨pass, hpass, h.resolves pass hpass hsome (by simpa using hb)⟩
  have := h.count
  omega

/-- **The scanner does not spin.** Over every sequence of scans an execution whose ledger
has `k` rows `unknown_pending` is backed off at most `k` times, every other recovery makes it
terminal, and after more than `k` recoveries it is terminal. Each re-probe lease lies
strictly in the future, and when the execution is claimed again the row whose deadline has
set the lease is no longer waited for. -/
theorem backoffs_le {as : List ScanEvent} (hinit : (scanning cfg executionId).init s)
    (hr : (scanning cfg executionId).Run s as s') :
    BackoffBound cfg (s.db.steps executionId) s'.passes ∧
      ((s.db.steps executionId).countP StepRow.isPending < (s'.passes.countP fun pass => pass.outcome.isSome) →
        ∃ pass ∈ s'.passes, pass.terminal) := by
  have hi : BackoffInv cfg executionId (s.db.steps executionId) s' := BackoffInv.run hr (BackoffInv.init hinit)
  exact ⟨hi.bound, hi.bound.reaches⟩

/-! ### An execution that waits for one step -/

theorem timedOutStep_nodup :
    ([⟨"exec_1", .inProgress, none, 0, none, 0⟩] : List PlannerExecution).map (·.id) |>.Nodup := by simp

/-- One execution in progress with a step that timed out at second 0. -/
def timedOutStep : Database where
  executions := ⟨[⟨"exec_1", .inProgress, none, 0, none, 0⟩], timedOutStep_nodup⟩
  ledger := ⟨[⟨"exec_1", "s1", some "send_message", "op_1", .closed .unknownPending, 0, 0⟩], by simp⟩
  auditOutbox := []
  userDataChangeFeed := []

/-- A scanner that knows no tool, with a settle window of 240 seconds. -/
def strictScanner : ScanSettings where
  registry _ := none
  settleWindowSeconds := 240

/-- A scan that starts at second `n`. -/
def scanAt (n : ℤ) : ScanCall where
  workerId := "recovery:1"
  leaseSeconds := 300
  limit := 10
  clock i := seconds (n + i)

/-- The scans at second 10 and at second 300: the first backs off, the second gives up. -/
theorem backoffs_le_timedOutStep :
    let s : ScanState := ⟨timedOutStep, 0, []⟩
    let s₁ := runRecoveryScan strictScanner (scanAt 10) timedOutStep
    let s₂ := runRecoveryScan strictScanner (scanAt 300) s₁.db
    (s₁.passes ++ s₂.passes).map (fun pass => (pass.backedOff, pass.terminal)) = [(true, false), (false, true)] ∧
      BackoffBound strictScanner (s.db.steps "exec_1") (s₁.passes ++ s₂.passes) := by
  intro s s₁ s₂
  have hmono : ∀ n i j : ℕ, i < j → (scanAt n).clock i < (scanAt n).clock j := fun n i j h => by
    simp only [scanAt, seconds]
    omega
  have h₁ : (scanning strictScanner "exec_1").step s (.scan (scanAt 10)) ⟨s₁.db, seconds 11, s₁.passes⟩ :=
    ⟨by decide, hmono 10, rfl, rfl, rfl⟩
  have h₂ : (scanning strictScanner "exec_1").step ⟨s₁.db, seconds 11, s₁.passes⟩ (.scan (scanAt 300))
      ⟨s₂.db, seconds 301, s₁.passes ++ s₂.passes⟩ :=
    ⟨by decide, hmono 300, rfl, rfl, rfl⟩
  have hinit : (scanning strictScanner "exec_1").init s := rfl
  exact ⟨rfl, (backoffs_le hinit ((Lts.Run.single h₁).snoc h₂)).1⟩

end Sequence

end Sreda.Planner
