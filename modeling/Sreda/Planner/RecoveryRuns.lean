import Sreda.Planner.ExecutorGuarantees
import Sreda.Planner.Recovery

/-!
# The executor and the scanners at work

The live executor and any number of scanners as a labelled transition system. A step of the
executor opens its ledger row, calls the tool, and marks the row when the call is over or
has timed out; the thread of a call that has timed out goes on, and what it writes is
committed together with its audit row. A crashed turn may be run again: its steps open the
same rows and call the tools once more. A scanner claims executions in one transaction and
recovers each in another, which reads before it writes. Every clock is arbitrary.

A mark of the executor is a transaction of its own and may be lost (`_best_effort_mark`).
The executor writes the row of an execution once, by an INSERT at the end of the turn
(`persist_completed_turn`), which fails when the row is there.

The three guarantees below hold of the runs whose steps meet a condition, and each condition
is exact: **`terminal_kept`** (a terminal status stays), **`not_declared_early`** (no failure
is declared while a write may still land) and **`committed_kept`** (a committed row stays
committed).
-/

namespace Sreda.Planner

open Sreda.Lib

/-- The thread of a tool call: what it writes may still be committed. -/
structure ToolThread where
  executionId : String
  stepId : String
  operationId : String
  spec : ToolSpec
  timedOut : Bool

/-- The step of a thread. -/
def ToolThread.key (thread : ToolThread) : String × String := (thread.executionId, thread.stepId)

/-- A mark that the executor is about to make. -/
structure PendingMark where
  key : String × String
  status : LedgerStatus

/-- A recovery that has read the tables and not yet written. -/
structure Recovering where
  executionId : String
  now : ℤ
  seen : Database

/-- The tables, and what is in progress. -/
structure World where
  db : Database
  threads : List ToolThread
  marks : List PendingMark
  /-- The executions that a scanner has claimed and not yet begun to recover. -/
  claimed : List String
  recovering : List Recovering

/-- What happens in a run. -/
inductive RecoveryEvent where
  /-- A step of the executor opens its row and calls its tool. -/
  | starts (executionId stepId tool operationId : String) (now : ℤ)
  /-- The transaction of a durable tool commits. -/
  | commits (thread : ToolThread)
  /-- The executor stops waiting for the tool. -/
  | timesOut (thread : ToolThread)
  /-- The tool call is over, and the step ends with this status. -/
  | returns (thread : ToolThread) (status : StepStatus)
  /-- The thread is gone: after a timeout, or in a crash. -/
  | stops (thread : ToolThread)
  /-- The executor makes a mark. -/
  | marks (mark : PendingMark) (now : ℤ)
  /-- A mark is lost. -/
  | losesMark (mark : PendingMark)
  /-- The executor inserts the row of an execution. -/
  | inserts (execution : PlannerExecution)
  /-- The relay moves an audit row to the feed. -/
  | relays (operationId : String)
  /-- A scanner claims. -/
  | claims (workerId : String) (now leaseSeconds : ℤ) (limit : ℕ)
  /-- A scanner begins to recover an execution and reads the tables. -/
  | reads (executionId : String) (now : ℤ)
  /-- It writes, and commits. -/
  | writes (recovering : Recovering)
  /-- Its transaction is rolled back, or the scanner is gone. -/
  | drops (recovering : Recovering)

section Runs

variable (cfg : ScanSettings)

/-- One step of a run. -/
inductive RecoveryStep : World → RecoveryEvent → World → Prop where
  | starts {w : World} {executionId stepId tool operationId : String} {now : ℤ} {spec : ToolSpec}
      {ledger : StepLedger} {row : StepRow} (hspec : cfg.registry tool = some spec)
      (hopen : openStep w.db.ledger executionId stepId (some tool) operationId now = .ok (ledger, row)) :
      RecoveryStep w (.starts executionId stepId tool operationId now)
        { w with
          db := { w.db with ledger }
          threads := { executionId, stepId, operationId, spec, timedOut := false } :: w.threads }
  | commits {w : World} {thread : ToolThread} (hthread : thread ∈ w.threads) (hdurable : thread.spec.isDurableWrite) :
      RecoveryStep w (.commits thread)
        { w with db := { w.db with auditOutbox := thread.operationId :: w.db.auditOutbox } }
  | timesOut {w : World} {rest : List ToolThread} {thread : ToolThread}
      (hthreads : w.threads.Perm (thread :: rest)) :
      RecoveryStep w (.timesOut thread)
        { w with
          threads := { thread with timedOut := true } :: rest
          marks := (terminalMark thread.spec .timeout).toList.map (⟨thread.key, ·⟩) ++ w.marks }
  | returns {w : World} {rest : List ToolThread} {thread : ToolThread} {status : StepStatus}
      (hthreads : w.threads.Perm (thread :: rest)) (hwaiting : thread.timedOut = false)
      (hstatus : status ∈ [StepStatus.ok, .error, .unknownOutcome, .planGap]) :
      RecoveryStep w (.returns thread status)
        { w with
          threads := rest
          marks := (terminalMark thread.spec status).toList.map (⟨thread.key, ·⟩) ++ w.marks }
  | stops {w : World} {rest : List ToolThread} {thread : ToolThread}
      (hthreads : w.threads.Perm (thread :: rest)) :
      RecoveryStep w (.stops thread) { w with threads := rest }
  | marks {w : World} {rest : List PendingMark} {mark : PendingMark} {now : ℤ} {ledger : StepLedger}
      (hmarks : w.marks.Perm (mark :: rest))
      (hmark : markStepStatus w.db.ledger mark.key.1 mark.key.2 mark.status.text now = .ok ledger) :
      RecoveryStep w (.marks mark now) { w with db := { w.db with ledger }, marks := rest }
  | losesMark {w : World} {rest : List PendingMark} {mark : PendingMark}
      (hmarks : w.marks.Perm (mark :: rest)) :
      RecoveryStep w (.losesMark mark) { w with marks := rest }
  | inserts {w : World} {execution : PlannerExecution} :
      RecoveryStep w (.inserts execution)
        { w with db := { w.db with executions := (w.db.executions.insert? execution).getD w.db.executions } }
  | relays {w : World} {rest : List String} {operationId : String}
      (houtbox : w.db.auditOutbox.Perm (operationId :: rest)) :
      RecoveryStep w (.relays operationId)
        { w with db := { w.db with
          auditOutbox := rest
          userDataChangeFeed := operationId :: w.db.userDataChangeFeed } }
  | claims {w : World} {workerId : String} {now leaseSeconds : ℤ} {limit : ℕ} :
      RecoveryStep w (.claims workerId now leaseSeconds limit)
        { w with
          db := (claimStaleExecutions w.db workerId now leaseSeconds limit).1
          claimed := (claimStaleExecutions w.db workerId now leaseSeconds limit).2 ++ w.claimed }
  | reads {w : World} {rest : List String} {executionId : String} {now : ℤ}
      (hclaimed : w.claimed.Perm (executionId :: rest)) :
      RecoveryStep w (.reads executionId now)
        { w with claimed := rest, recovering := ⟨executionId, now, w.db⟩ :: w.recovering }
  | writes {w : World} {rest : List Recovering} {r : Recovering} {db : Database} {outcome : RecoverOutcome}
      (hrecovering : w.recovering.Perm (r :: rest))
      (hrecover : recoverExecution cfg r.seen r.now w.db r.executionId = .ok (db, outcome)) :
      RecoveryStep w (.writes r) { w with db, recovering := rest }
  | drops {w : World} {rest : List Recovering} {r : Recovering}
      (hrecovering : w.recovering.Perm (r :: rest)) :
      RecoveryStep w (.drops r) { w with recovering := rest }

/-- The executor and the scanners, started on any tables. -/
def recovery : Lts World RecoveryEvent where
  init w := w.threads = [] ∧ w.marks = [] ∧ w.claimed = [] ∧ w.recovering = []
  step := RecoveryStep cfg

/-! ### The status of an execution -/

/-- The terminal status that the ledger rows read by a recovery call for. -/
def CallsFor (r : Recovering) (status : ExecutionStatus) : Prop :=
  let rows := r.seen.steps r.executionId
  (status = .committedUnservedNeedsManual ∧ rows.any (hasLanded cfg r.seen)) ∨
  (status = .failedNeedsManual ∧ rows.any (hasLanded cfg r.seen) = false ∧
    rows.any (isAwaited cfg r.seen r.now) = false ∧ rows.any (isLost cfg r.seen r.now)) ∨
  (status = .failed ∧ rows.any (hasLanded cfg r.seen) = false ∧
    rows.any (isAwaited cfg r.seen r.now) = false ∧ rows.any (isLost cfg r.seen r.now) = false)

/-- Among the ledger rows read by a recovery none has landed and one is waited for. -/
def Waits (r : Recovering) : Prop :=
  (r.seen.steps r.executionId).any (hasLanded cfg r.seen) = false ∧
    (r.seen.steps r.executionId).any (isAwaited cfg r.seen r.now)

/-- A recovery that writes to a terminal execution has nothing to change: it waits, or the
status that it calls for is there, or was there when it read. -/
def TerminalAgrees (w : World) : RecoveryEvent → Prop
  | .writes r => ∀ status, w.db.status? r.executionId = some status → status.terminal →
      Waits cfg r ∨ CallsFor cfg r status ∨ ∀ read, r.seen.status? r.executionId = some read → CallsFor cfg r read
  | _ => True

/-- The executions that are terminal keep their status. -/
def TerminalKept (w w' : World) : Prop :=
  ∀ executionId status, w.db.status? executionId = some status → status.terminal →
    w'.db.status? executionId = some status

variable {cfg} {w w' : World}

/-- What a recovery calls for is what it resolves to. -/
theorem Resolution.callsFor {r : Recovering} {execution : PlannerExecution}
    {resolved : ExecutionStatus × Option ℤ × RecoverOutcome}
    (h : Resolution cfg r.seen r.now (r.seen.steps r.executionId) execution resolved) :
    (Waits cfg r ∧ resolved.1 = execution.executionStatus) ∨
      (¬ Waits cfg r ∧ ∀ status, CallsFor cfg r status ↔ status = resolved.1) := by
  cases h with
  | unserved hlanded => exact .inr ⟨fun hw => by simp [hw.1] at hlanded, fun status => by simp [CallsFor, hlanded]⟩
  | reProbe row hlanded hrow hawaited => exact .inl ⟨⟨hlanded, List.any_eq_true.mpr ⟨row, hrow, hawaited⟩⟩, rfl⟩
  | manual hlanded hawaited hlost =>
    exact .inr ⟨fun hw => by simp [hw.2] at hawaited, fun status => by simp [CallsFor, hlanded, hawaited, hlost]⟩
  | failed hlanded hawaited hlost =>
    exact .inr ⟨fun hw => by simp [hw.2] at hawaited, fun status => by simp [CallsFor, hlanded, hawaited, hlost]⟩

/-- The status of the executions after the write of a recovery. -/
theorem status?_update {db : Database} {executionId : String} {read : PlannerExecution} {status : ExecutionStatus}
    {lease : Option ℤ} {ledger : StepLedger} (other : String) :
    Database.status? { db with
        ledger, executions := db.executions.update (fun row => row.id = executionId) (writeBack read status lease)
          (id_writeBack read status lease) } other =
      (db.status? other).map fun old =>
        if other = executionId ∧ status ≠ read.executionStatus then status else old := by
  unfold Database.status?
  rw [Keyed.get?_update (id_writeBack read status lease)]
  cases hget : db.executions.get? other with
  | none => rfl
  | some row =>
    obtain ⟨-, rfl⟩ := Keyed.get?_eq_some.mp hget
    by_cases h1 : row.id = executionId <;> by_cases h2 : status = read.executionStatus <;> simp [h1, h2, writeBack]

/-- A step that leaves the executions, or claims or inserts some, changes no status. -/
theorem terminalKept_of_get? (h : ∀ executionId status, w.db.status? executionId = some status →
    w'.db.status? executionId = some status) : TerminalKept w w' := fun executionId status hs _ => h executionId status hs

theorem status?_claims (db : Database) (workerId : String) (now leaseSeconds : ℤ) (limit : ℕ) (executionId : String) :
    (claimStaleExecutions db workerId now leaseSeconds limit).1.status? executionId = db.status? executionId := by
  unfold Database.status?
  rw [get?_claimStaleExecutions, Option.map_map]
  congr 1
  funext execution
  by_cases h : executionId ∈ staleExecutions db now limit <;> simp [h, PlannerExecution.claimed]

/-- The write of a recovery keeps the terminal statuses if and only if it agrees with them. -/
theorem terminalKept_write_iff {r : Recovering} {db : Database} {outcome : RecoverOutcome}
    (h : recoverExecution cfg r.seen r.now w.db r.executionId = .ok (db, outcome)) (hdb : w'.db = db) :
    TerminalKept w w' ↔ TerminalAgrees cfg w (.writes r) := by
  rcases recoverExecution_ok h with ⟨hnone, rfl, -⟩ | ⟨read, status, lease, ledger, hread, hres, -, rfl⟩
  · refine iff_of_true (terminalKept_of_get? fun _ _ hs => hdb ▸ hs) fun _ _ _ => .inr (.inr fun read hread => ?_)
    simp [Database.status?, hnone] at hread
  · have hreads : ∀ other, r.seen.status? r.executionId = some other ↔ read.executionStatus = other := fun other => by
      simp [Database.status?, hread]
    -- the status is written when it differs from the one that was read
    have hkept : TerminalKept w w' ↔ ∀ old, w.db.status? r.executionId = some old → old.terminal →
        status = read.executionStatus ∨ status = old := by
      constructor
      · intro hk old hold ht
        have := hk _ old hold ht
        rw [hdb, status?_update, hold] at this
        simp only [Option.map_some, true_and, Option.some.injEq] at this
        by_cases heq : status = read.executionStatus
        · exact .inl heq
        · rw [if_pos heq] at this
          exact .inr this
      · intro hk other old hold ht
        rw [hdb, status?_update, hold, Option.map_some]
        split
        · next hne =>
          obtain ⟨rfl, hne⟩ := hne
          rw [(hk old hold ht).resolve_left hne]
        · rfl
    rw [hkept]
    refine forall_congr' fun old => imp_congr_right fun _ => imp_congr_right fun _ => ?_
    rcases hres.callsFor with ⟨hwaits, heq⟩ | ⟨hwaits, hcalls⟩
    · exact iff_of_true (.inl heq) (.inl hwaits)
    · simp only [hwaits, hcalls, hreads, false_or, forall_eq']
      rw [or_comm, eq_comm, @eq_comm _ status]

/-- **One step** keeps the terminal statuses if and only if it meets the condition. -/
theorem terminalKept_step_iff {e : RecoveryEvent} (h : (recovery cfg).step w e w') :
    TerminalKept w w' ↔ TerminalAgrees cfg w e := by
  cases h with
  | starts | commits | timesOut | returns | stops | marks | losesMark | relays | reads | drops =>
    exact iff_of_true (terminalKept_of_get? fun _ _ hs => hs) trivial
  | claims => exact iff_of_true (terminalKept_of_get? fun _ _ hs => (status?_claims ..).trans hs) trivial
  | @inserts execution =>
    refine iff_of_true (terminalKept_of_get? fun executionId status hs => ?_) trivial
    cases hins : w.db.executions.insert? execution with
    | none => simpa [Database.status?] using hs
    | some executions =>
      obtain ⟨row, hrow, rfl⟩ := Option.map_eq_some_iff.mp hs
      simp [Database.status?, Keyed.get?_insert? hins hrow]
  | writes hrecovering hrecover => exact terminalKept_write_iff hrecover rfl

/-- **A terminal status stays.** In every run whose recoveries agree with the terminal
statuses that they find when they write, an execution that has become terminal keeps its
status; and the condition is exact, step by step. -/
theorem terminal_kept {es : List RecoveryEvent} (hr : ((recovery cfg).guard (TerminalAgrees cfg)).Run w es w') :
    TerminalKept w w' ∧ ∀ u e u', (recovery cfg).step u e u' → (TerminalKept u u' ↔ TerminalAgrees cfg u e) := by
  refine ⟨fun executionId status hs ht => ?_, fun _ _ _ h => terminalKept_step_iff h⟩
  refine Lts.Run.keeps (P := fun w => w.db.status? executionId = some status) (fun u e u' hu hstep => ?_) hr hs
  exact (terminalKept_step_iff hstep.1).mpr hstep.2 executionId status hu ht

/-! ### The settle window -/

/-- The thread of a durable step goes on after a timeout, and has not committed. -/
def MayStillCommit (w : World) (thread : ToolThread) : Prop :=
  thread ∈ w.threads ∧ thread.timedOut ∧ thread.spec.isDurableWrite ∧ probeOperation w.db thread.operationId = false

variable (cfg) in
/-- The settle windows of the steps of an execution that may still commit have passed. -/
def OpenStepsSettled (w : World) (r : Recovering) : Prop :=
  ∀ thread row, MayStillCommit w thread → thread.executionId = r.executionId →
    w.db.ledger.get? thread.key = some row → settleElapsed cfg r.now row

variable (cfg) in
/-- A recovery that declares a failure does so when no step of the execution may still commit
within its settle window. -/
def NotDeclaredEarly (w : World) : RecoveryEvent → Prop
  | .writes r => ∀ db outcome, recoverExecution cfg r.seen r.now w.db r.executionId = .ok (db, outcome) →
      (outcome.status = .resolved .failed ∨ outcome.status = .resolved .failedNeedsManual) → OpenStepsSettled cfg w r
  | _ => True

variable (cfg) in
/-- When a step of the execution may still commit within its settle window, the ledger rows
that the recovery has read show a landed write, or a step marked `unknown_pending` within its
window. -/
def OpenStepsMarked (w : World) : RecoveryEvent → Prop
  | .writes r => r.seen.status? r.executionId = none ∨ (r.seen.steps r.executionId).any (hasLanded cfg r.seen) ∨
      (r.seen.steps r.executionId).any (isAwaited cfg r.seen r.now) ∨ OpenStepsSettled cfg w r
  | _ => True

/-- **One step** declares no failure early if and only if it meets the condition. -/
theorem notDeclaredEarly_step_iff {e : RecoveryEvent} (h : (recovery cfg).step w e w') :
    OpenStepsMarked cfg w e ↔ NotDeclaredEarly cfg w e := by
  cases h with
  | starts | commits | timesOut | returns | stops | marks | losesMark | relays | reads | drops | claims | inserts =>
    exact Iff.rfl
  | @writes rest r db outcome hrecovering hrecover =>
    rcases recoverExecution_ok hrecover with ⟨hnone, rfl, rfl⟩ | ⟨read, status, lease, ledger, hread, hres, -, rfl⟩
    · refine iff_of_true (.inl (by simp [Database.status?, hnone])) fun db outcome hrun hfail => ?_
      cases hrecover.symm.trans hrun
      simp at hfail
    have hseen : r.seen.status? r.executionId ≠ none := by simp [Database.status?, hread]
    -- a failure is declared when no step has landed and none is waited for
    have hdeclares : (outcome.status = .resolved .failed ∨ outcome.status = .resolved .failedNeedsManual) ↔
        (r.seen.steps r.executionId).any (hasLanded cfg r.seen) = false ∧
          (r.seen.steps r.executionId).any (isAwaited cfg r.seen r.now) = false := by
      cases hres with
      | unserved hlanded => simp [hlanded]
      | reProbe row hlanded hrow hawaited => simp [List.any_eq_true.mpr ⟨row, hrow, hawaited⟩]
      | manual hlanded hawaited hlost => simp [hlanded, hawaited]
      | failed hlanded hawaited hlost => simp [hlanded, hawaited]
    constructor
    · intro hmarked db' outcome' hrun hfail
      cases hrecover.symm.trans hrun
      obtain ⟨hlanded, hawaited⟩ := hdeclares.mp hfail
      simpa [hseen, hlanded, hawaited, OpenStepsMarked] using hmarked
    · intro hearly
      by_cases hfail : outcome.status = .resolved .failed ∨ outcome.status = .resolved .failedNeedsManual
      · exact .inr (.inr (.inr (hearly _ _ hrecover hfail)))
      · simp only [hdeclares, not_and_or, Bool.not_eq_false] at hfail
        exact .inr (hfail.imp id .inl)

/-- **No failure is declared early.** The runs in which, whenever a recovery writes, the steps
that may still commit within their settle windows show in the ledger rows it has read, are
exactly the runs in which no failure is declared while such a step may still commit. -/
theorem not_declared_early {es : List RecoveryEvent} :
    ((recovery cfg).guard (OpenStepsMarked cfg)).Run w es w' ↔
      ((recovery cfg).guard (NotDeclaredEarly cfg)).Run w es w' :=
  Lts.guard_run_congr fun _ _ _ h => notDeclaredEarly_step_iff h

/-! ### Committed rows -/

/-- The rows of the step ledger that are `committed` stay so. -/
def CommittedKept (w w' : World) : Prop :=
  ∀ key row, w.db.ledger.get? key = some row → row.status = .closed .committed →
    ∃ row', w'.db.ledger.get? key = some row' ∧ row'.status = .closed .committed

/-- No mark but `committed` lands on a row that is `committed`. -/
def MarksAgree (w : World) : RecoveryEvent → Prop
  | .marks mark _ => ∀ row, w.db.ledger.get? mark.key = some row → row.status = .closed .committed →
      mark.status = .committed
  | _ => True

theorem committedKept_of_get? (h : ∀ key row, w.db.ledger.get? key = some row → w'.db.ledger.get? key = some row) :
    CommittedKept w w' := fun key row hrow hc => ⟨row, h key row hrow, hc⟩

/-- **One step** keeps the committed rows if and only if it meets the condition. -/
theorem committedKept_step_iff {e : RecoveryEvent} (h : (recovery cfg).step w e w') :
    CommittedKept w w' ↔ MarksAgree w e := by
  cases h with
  | commits | timesOut | returns | stops | losesMark | relays | reads | drops | claims | inserts =>
    exact iff_of_true (committedKept_of_get? fun _ _ hrow => hrow) trivial
  | starts hspec hopen => exact iff_of_true (committedKept_of_get? fun _ _ hrow => openStep_get? hopen hrow) trivial
  | @marks rest mark now ledger hmarks hmark =>
    obtain ⟨-, rfl⟩ := (markStepStatus_ok _).mp hmark
    constructor
    · intro hk row hrow hc
      obtain ⟨row', hrow', hc'⟩ := hk mark.key row hrow hc
      rw [get?_markRow, hrow] at hrow'
      simp only [Option.map_some, if_true, Option.some.injEq] at hrow'
      rw [← hrow'] at hc'
      simpa [StepRow.close] using hc'
    · intro hagree key row hrow hc
      refine ⟨_, by rw [get?_markRow, hrow]; rfl, ?_⟩
      split
      · next heq =>
        subst heq
        simp [StepRow.close, hagree row hrow hc]
      · exact hc
  | writes hrecovering hrecover =>
    rcases recoverExecution_ok hrecover with ⟨-, rfl, -⟩ | ⟨read, status, lease, ledger, -, -, hmarks, rfl⟩
    · exact iff_of_true (committedKept_of_get? fun _ _ hrow => hrow) trivial
    · refine iff_of_true (fun key row hrow hc => ⟨_, by rw [markAll_ok hmarks key, hrow]; rfl, ?_⟩) trivial
      split
      · rfl
      · exact hc

/-- **A committed row stays committed.** In every run in which no mark but `committed` lands
on a committed row, the row of a step that has become `committed` stays so; and the condition
is exact, step by step. -/
theorem committed_kept {es : List RecoveryEvent} (hr : ((recovery cfg).guard MarksAgree).Run w es w') :
    CommittedKept w w' ∧ ∀ u e u', (recovery cfg).step u e u' → (CommittedKept u u' ↔ MarksAgree u e) := by
  refine ⟨fun key row hrow hc => ?_, fun _ _ _ h => committedKept_step_iff h⟩
  refine Lts.Run.keeps (P := fun w => ∃ row, w.db.ledger.get? key = some row ∧ row.status = .closed .committed)
    (fun u e u' hu hstep => ?_) hr ⟨row, hrow, hc⟩
  obtain ⟨row, hrow, hc⟩ := hu
  exact (committedKept_step_iff hstep.1).mpr hstep.2 key row hrow hc

end Runs

/-! ### A turn with one durable step -/

/-- A scanner with a settle window of 240 seconds. -/
def scanner : ScanSettings where
  registry := writeRegistry
  settleWindowSeconds := 240

/-- A turn in progress, before its first step. -/
def turnInProgress : World where
  db := {
    executions := ⟨[⟨"exec_1", .inProgress, none, 0, none, 0⟩], by simp⟩
    ledger := .empty
    auditOutbox := []
    userDataChangeFeed := [] }
  threads := []
  marks := []
  claimed := []
  recovering := []

/-- The tables of the turn with its step `s1`. -/
def turnTables (status : ExecutionStatus) (workerId : Option String) (attempt : ℕ) (lease : Option ℤ)
    (step : RowStatus) (updatedAt : ℤ) (auditOutbox : List String) : Database where
  executions := ⟨[⟨"exec_1", status, workerId, attempt, lease, 0⟩], by simp⟩
  ledger := ⟨[⟨"exec_1", "s1", some "add_task", "op_1", step, 0, updatedAt⟩], by simp⟩
  auditOutbox := auditOutbox
  userDataChangeFeed := []

/-- The thread of the step. -/
def taskThread (timedOut : Bool) : ToolThread where
  executionId := "exec_1"
  stepId := "s1"
  operationId := "op_1"
  spec := writeSpec "add_task" "tasks"
  timedOut := timedOut

/-- The turn while its step runs. -/
def turnWorld (db : Database) (timedOut : Bool) (claimed : List String) (recovering : List Recovering) : World where
  db := db
  threads := [taskThread timedOut]
  marks := []
  claimed := claimed
  recovering := recovering

theorem turnInProgress_init : (recovery scanner).init turnInProgress := ⟨rfl, rfl, rfl, rfl⟩

theorem turnInProgress_starts : RecoveryStep scanner turnInProgress (.starts "exec_1" "s1" "add_task" "op_1" 0)
    (turnWorld (turnTables .inProgress none 0 none .started 0 []) false [] []) := .starts rfl rfl

/-- The turn that the second scanner has declared failed. -/
def failedTurn : Database := turnTables .failedNeedsManual (some "recovery:2") 2 none .started 0 []

/-- The lease of the first scanner that claimed the turn has run out; the second scanner
declares the turn failed, the step commits, and the first scanner goes on. -/
theorem two_scanners :
    ¬ ∀ cfg w w' es, (recovery cfg).Reachable w → (recovery cfg).Run w es w' → TerminalKept w w' := by
  intro h
  let claimed := turnTables .inProgress (some "recovery:1") 1 (some (seconds 600)) .started 0 []
  let reclaimed := turnTables .inProgress (some "recovery:2") 2 (some (seconds 901)) .started 0 []
  let landed := turnTables .failedNeedsManual (some "recovery:2") 2 none .started 0 ["op_1"]
  let unserved :=
    turnTables .committedUnservedNeedsManual (some "recovery:2") 2 none (.closed .committed) (seconds 602) ["op_1"]
  have hr : (recovery scanner).Passes turnInProgress
      [(.starts "exec_1" "s1" "add_task" "op_1" 0, turnWorld (turnTables .inProgress none 0 none .started 0 []) false [] []),
       (.claims "recovery:1" (seconds 300) 300 10, turnWorld claimed false ["exec_1"] []),
       (.claims "recovery:2" (seconds 601) 300 10, turnWorld reclaimed false ["exec_1", "exec_1"] []),
       (.reads "exec_1" (seconds 601), turnWorld reclaimed false ["exec_1"] [⟨"exec_1", seconds 601, reclaimed⟩]),
       (.writes ⟨"exec_1", seconds 601, reclaimed⟩, turnWorld failedTurn false ["exec_1"] [])] :=
    ⟨turnInProgress_starts, .claims, .claims, .reads (.refl _), .writes (.refl _) rfl, trivial⟩
  have hlate : (recovery scanner).Passes (turnWorld failedTurn false ["exec_1"] [])
      [(.commits (taskThread false), turnWorld landed false ["exec_1"] []),
       (.reads "exec_1" (seconds 602), turnWorld landed false [] [⟨"exec_1", seconds 602, landed⟩]),
       (.writes ⟨"exec_1", seconds 602, landed⟩, turnWorld unserved false [] [])] :=
    ⟨.commits (List.mem_singleton.mpr rfl) rfl, .reads (.refl _), .writes (.refl _) rfl, trivial⟩
  have hkept := h scanner _ _ _ ⟨_, turnInProgress, turnInProgress_init, .of_passes hr⟩ (.of_passes hlate) "exec_1"
    .failedNeedsManual rfl rfl
  exact absurd hkept (by decide)

/-- Without the late commit the first scanner agrees with the second. -/
theorem terminal_kept_secondScanner :
    TerminalKept (turnWorld failedTurn false ["exec_1"] []) (turnWorld failedTurn false [] []) := by
  have hagrees : TerminalAgrees scanner (turnWorld failedTurn false [] [⟨"exec_1", seconds 602, failedTurn⟩])
      (.writes ⟨"exec_1", seconds 602, failedTurn⟩) := fun status hs _ => by
    cases hs
    exact .inr (.inl (.inr (.inl ⟨rfl, rfl, rfl, rfl⟩)))
  have hr : ((recovery scanner).guard (TerminalAgrees scanner)).Passes (turnWorld failedTurn false ["exec_1"] [])
      [(.reads "exec_1" (seconds 602), turnWorld failedTurn false [] [⟨"exec_1", seconds 602, failedTurn⟩]),
       (.writes ⟨"exec_1", seconds 602, failedTurn⟩, turnWorld failedTurn false [] [])] :=
    ⟨⟨.reads (.refl _), trivial⟩, ⟨.writes (.refl _) rfl, hagrees⟩, trivial⟩
  exact (terminal_kept (.of_passes hr)).1

/-- The step has timed out, its mark is lost, and a scan at second 100 declares a failure
while the thread may commit until second 240. -/
theorem declared_early :
    ¬ ∀ cfg w e w', (recovery cfg).Reachable w → (recovery cfg).step w e w' → NotDeclaredEarly cfg w e := by
  intro h
  let started := turnTables .inProgress none 0 none .started 0 []
  let claimed := turnTables .inProgress (some "recovery:1") 1 (some (seconds 400)) .started 0 []
  let failed := turnTables .failedNeedsManual (some "recovery:1") 1 none .started 0 []
  have hr : (recovery scanner).Passes turnInProgress
      [(.starts "exec_1" "s1" "add_task" "op_1" 0, turnWorld started false [] []),
       (.timesOut (taskThread false), ⟨started, [taskThread true], [⟨("exec_1", "s1"), .unknownPending⟩], [], []⟩),
       (.losesMark ⟨("exec_1", "s1"), .unknownPending⟩, turnWorld started true [] []),
       (.claims "recovery:1" (seconds 100) 300 10, turnWorld claimed true ["exec_1"] []),
       (.reads "exec_1" (seconds 100), turnWorld claimed true [] [⟨"exec_1", seconds 100, claimed⟩])] :=
    ⟨turnInProgress_starts, .timesOut (.refl _), .losesMark (.refl _), .claims, .reads (.refl _), trivial⟩
  have hlast : RecoveryStep scanner (turnWorld claimed true [] [⟨"exec_1", seconds 100, claimed⟩])
      (.writes ⟨"exec_1", seconds 100, claimed⟩) (turnWorld failed true [] []) := .writes (.refl _) rfl
  have hearly := h scanner _ _ _ ⟨_, turnInProgress, turnInProgress_init, .of_passes hr⟩ hlast failed _ rfl (.inr rfl)
    (taskThread true) _ ⟨List.mem_singleton.mpr rfl, rfl, rfl, rfl⟩ rfl rfl
  exact absurd hearly (by decide)

/-- The step has committed, the crashed turn is run again, and the call times out. -/
theorem committed_downgraded :
    ¬ ∀ cfg w w' es, (recovery cfg).Reachable w → (recovery cfg).Run w es w' → CommittedKept w w' := by
  intro h
  let started := turnTables .inProgress none 0 none .started 0 ["op_1"]
  let committed := turnTables .inProgress none 0 none (.closed .committed) (seconds 5) ["op_1"]
  let pending := turnTables .inProgress none 0 none (.closed .unknownPending) (seconds 150) ["op_1"]
  have hr : (recovery scanner).Passes turnInProgress
      [(.starts "exec_1" "s1" "add_task" "op_1" 0, turnWorld (turnTables .inProgress none 0 none .started 0 []) false [] []),
       (.commits (taskThread false), turnWorld started false [] []),
       (.returns (taskThread false) .ok, ⟨started, [], [⟨("exec_1", "s1"), .committed⟩], [], []⟩),
       (.marks ⟨("exec_1", "s1"), .committed⟩ (seconds 5), ⟨committed, [], [], [], []⟩)] :=
    ⟨turnInProgress_starts, .commits (List.mem_singleton.mpr rfl) rfl, .returns (.refl _) rfl (by simp),
      .marks (.refl _) rfl, trivial⟩
  have hagain : (recovery scanner).Passes ⟨committed, [], [], [], []⟩
      [(.starts "exec_1" "s1" "add_task" "op_1" (seconds 60), turnWorld committed false [] []),
       (.timesOut (taskThread false), ⟨committed, [taskThread true], [⟨("exec_1", "s1"), .unknownPending⟩], [], []⟩),
       (.marks ⟨("exec_1", "s1"), .unknownPending⟩ (seconds 150), turnWorld pending true [] [])] :=
    ⟨.starts rfl rfl, .timesOut (.refl _), .marks (.refl _) rfl, trivial⟩
  obtain ⟨row, hrow, hc⟩ := h scanner _ _ _ ⟨_, turnInProgress, turnInProgress_init, .of_passes hr⟩ (.of_passes hagain)
    ("exec_1", "s1") _ rfl rfl
  cases hrow
  cases hc

/-- The crashed turn is run again and the call ends well. -/
theorem committed_kept_resumedTurn :
    let committed := turnTables .inProgress none 0 none (.closed .committed) (seconds 5) ["op_1"]
    let again := turnTables .inProgress none 0 none (.closed .committed) (seconds 65) ["op_1"]
    CommittedKept ⟨committed, [], [], [], []⟩ ⟨again, [], [], [], []⟩ := by
  intro committed again
  have hr : ((recovery scanner).guard MarksAgree).Passes ⟨committed, [], [], [], []⟩
      [(.starts "exec_1" "s1" "add_task" "op_1" (seconds 60), turnWorld committed false [] []),
       (.returns (taskThread false) .ok, ⟨committed, [], [⟨("exec_1", "s1"), .committed⟩], [], []⟩),
       (.marks ⟨("exec_1", "s1"), .committed⟩ (seconds 65), ⟨again, [], [], [], []⟩)] :=
    ⟨⟨.starts rfl rfl, trivial⟩, ⟨.returns (.refl _) rfl (by simp), trivial⟩, ⟨.marks (.refl _) rfl, fun _ _ _ => rfl⟩,
      trivial⟩
  exact (committed_kept (.of_passes hr)).1

end Sreda.Planner
