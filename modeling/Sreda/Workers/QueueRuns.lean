import Sreda.Lib.Transition
import Sreda.Workers.MessageQueue

/-!
# Runs of the message queue

The queue as a labelled transition system: any number of workers and message handlers call
the operations of `Sreda.Workers.MessageQueue` in any order, each call one transaction, on
a clock that does not go back. A label is the call, the time at which it ran and what it
returned, so the labels of a run are its history.

A worker that crashes or stalls makes no call, or makes its next call late; no call is
tied to the worker that claimed the job. `enqueued_at` is arbitrary.

`exec_rows` says once what a call can do to a row (`rowAfter`) and to the table. The
invariants are derived from it.
-/

namespace Sreda.Workers

open JobTable Sreda.Lib

/-- A call of one operation, without its clock. `mark_failed` is called with the default
`max_attempts`, as everywhere in the source. -/
inductive Call where
  | enqueue (id tenantId threadId channel externalUpdateId messagePayload : String) (when : ℤ)
  | claim (workerId : String) (leaseSeconds : ℤ) (tie : ℕ)
  | extend (jobId workerId : String) (attempt : ℕ) (leaseSeconds : ℤ)
  | markDone (jobId workerId : String) (attempt : ℕ)
  | markFailed (jobId workerId : String) (attempt : ℕ) (error : String)
  deriving DecidableEq

/-- What a call returns. -/
inductive Ret where
  | enqueued (r : EnqueueResult)
  | claimed (j : Option MessageJob)
  | landed (b : Bool)
  deriving DecidableEq

/-- One transaction. -/
def exec (t : JobTable) (now : ℤ) : Call → JobTable × Ret
  | .enqueue id tenantId threadId channel externalUpdateId messagePayload when =>
    let r := enqueueMessage t id tenantId threadId channel externalUpdateId messagePayload when
    (r.1, .enqueued r.2)
  | .claim workerId leaseSeconds tie =>
    let r := claimNextJob t workerId now leaseSeconds tie
    (r.1, .claimed r.2)
  | .extend jobId workerId attempt leaseSeconds =>
    let r := extendLease t jobId workerId attempt now leaseSeconds
    (r.1, .landed r.2)
  | .markDone jobId workerId attempt =>
    let r := Workers.markDone t jobId workerId attempt now
    (r.1, .landed r.2)
  | .markFailed jobId workerId attempt error =>
    let r := Workers.markFailed t jobId workerId attempt error now
    (r.1, .landed r.2)

/-- A transaction of a run: the call, its time and its return value. -/
structure Event where
  call : Call
  now : ℤ
  ret : Ret
  deriving DecidableEq

/-- The state of the queue: the table, and the time of the last transaction. -/
structure QueueState where
  table : JobTable
  clock : ℤ

/-- The message queue, started on an empty table. -/
def queue : Lts QueueState Event where
  init s := s.table = .empty
  step s e s' := s.clock ≤ e.now ∧ exec s.table e.now e.call = (s'.table, e.ret) ∧ s'.clock = e.now

/-! ### What a call does to a row -/

/-- The row after a call, from the row before it. -/
def rowAfter (t : JobTable) (now : ℤ) (c : Call) (j : MessageJob) : MessageJob :=
  match c with
  | .enqueue .. => j
  | .claim workerId leaseSeconds tie =>
    if selectNextJob t now tie = some j then (claimSet workerId now leaseSeconds).set j else j
  | .extend jobId workerId attempt leaseSeconds =>
    if fenced jobId workerId attempt j then (extendSet now leaseSeconds).set j else j
  | .markDone jobId workerId attempt => if fenced jobId workerId attempt j then (doneSet now).set j else j
  | .markFailed jobId workerId attempt error =>
    if fenced jobId workerId attempt j then (failedSet attempt error now maxAttempts).set j else j

/-- The row a call adds: that of an enqueue under free keys. -/
def added (t : JobTable) (now : ℤ) (c : Call) : List MessageJob :=
  match (exec t now c).2 with
  | .enqueued (.job j) => [j]
  | _ => []

/-- **What a call does**: it maps the rows, and an enqueue may add one. -/
theorem exec_rows (t : JobTable) (now : ℤ) (c : Call) :
    (exec t now c).1.rows = t.rows.map (rowAfter t now c) ++ added t now c := by
  have hid : (∀ j ∈ t.rows, rowAfter t now c j = j) → t.rows.map (rowAfter t now c) = t.rows := fun h => by
    rw [List.map_congr_left (g := id) h, List.map_id]
  cases c with
  | enqueue id tenantId threadId channel externalUpdateId messagePayload when =>
    rw [hid fun _ _ => rfl]
    rcases enqueueMessage_cases t id tenantId threadId channel externalUpdateId messagePayload when with
      ⟨h1, h2, -⟩ | ⟨h1, h2⟩
    · simp [exec, added, h1, h2]
    · simp only [exec, added, h1]
      split
      · next heq => exact absurd (Ret.enqueued.inj heq) (h2 _)
      · simp
  | claim workerId leaseSeconds tie =>
    rcases claimNextJob_cases t workerId now leaseSeconds tie with ⟨h1, h2⟩ | ⟨j, h1, h2⟩
    · rw [hid fun j _ => by simp [rowAfter, h1]]
      simp [exec, added, h2]
    · simp only [exec, added, h2, List.append_nil, update]
      refine List.map_congr_left fun k hk => ?_
      have : k.id = j.id ↔ j = k := ⟨fun h => eq_of_id (selectNextJob_some h1).1 hk h.symm, fun h => h ▸ rfl⟩
      simp [this, h1, rowAfter]
  | extend | markDone | markFailed =>
    simp only [exec, added, extendLease, Workers.markDone, Workers.markFailed, fencedUpdate, update, List.append_nil]
    exact List.map_congr_left fun _ _ => rfl

/-- The row an enqueue adds is pending, never claimed, and has a fresh key. -/
theorem added_spec {t : JobTable} {now : ℤ} {c : Call} {k : MessageJob} (h : k ∈ added t now c) :
    (∃ id tenantId threadId channel externalUpdateId messagePayload when,
      k = newJob id tenantId threadId channel externalUpdateId messagePayload when) ∧ ∀ j ∈ t.rows, j.id ≠ k.id := by
  cases c with
  | enqueue id tenantId threadId channel externalUpdateId messagePayload when =>
    rcases enqueueMessage_cases t id tenantId threadId channel externalUpdateId messagePayload when with
      ⟨-, h2, h3⟩ | ⟨-, h2⟩
    · simp only [added, exec, h2, List.mem_singleton] at h
      subst h
      exact ⟨⟨_, _, _, _, _, _, _, rfl⟩, h3⟩
    · simp only [added, exec] at h
      split at h
      · next heq => exact absurd (Ret.enqueued.inj heq) (h2 _)
      · simp at h
  | claim | extend | markDone | markFailed => simp [added, exec] at h

theorem mem_exec {t : JobTable} {now : ℤ} {c : Call} {k : MessageJob} :
    k ∈ (exec t now c).1.rows ↔ (∃ j ∈ t.rows, k = rowAfter t now c j) ∨ k ∈ added t now c := by
  rw [exec_rows, List.mem_append, List.mem_map]
  exact or_congr_left ⟨fun ⟨j, hj, h⟩ => ⟨j, hj, h.symm⟩, fun ⟨j, hj, h⟩ => ⟨j, hj, h.symm⟩⟩

/-- **What can happen to a row**: nothing, a claim, a heartbeat, or one of the three outcomes. -/
theorem rowAfter_cases (t : JobTable) (now : ℤ) (c : Call) (j : MessageJob) :
    rowAfter t now c j = j ∨
    (∃ workerId leaseSeconds tie, c = .claim workerId leaseSeconds tie ∧ selectNextJob t now tie = some j ∧
      rowAfter t now c j = (claimSet workerId now leaseSeconds).set j) ∨
    (∃ jobId workerId attempt leaseSeconds, c = .extend jobId workerId attempt leaseSeconds ∧
      fenced jobId workerId attempt j ∧ rowAfter t now c j = (extendSet now leaseSeconds).set j) ∨
    (∃ jobId workerId attempt, c = .markDone jobId workerId attempt ∧ fenced jobId workerId attempt j ∧
      rowAfter t now c j = (doneSet now).set j) ∨
    (∃ jobId workerId attempt error, c = .markFailed jobId workerId attempt error ∧
      fenced jobId workerId attempt j ∧ rowAfter t now c j = (failedSet attempt error now maxAttempts).set j) := by
  cases c with
  | enqueue => exact .inl rfl
  | claim workerId leaseSeconds tie =>
    by_cases h : selectNextJob t now tie = some j
    · exact .inr (.inl ⟨_, _, _, rfl, h, if_pos h⟩)
    · exact .inl (if_neg h)
  | extend jobId workerId attempt leaseSeconds =>
    by_cases h : fenced jobId workerId attempt j
    · exact .inr (.inr (.inl ⟨_, _, _, _, rfl, h, if_pos h⟩))
    · exact .inl (if_neg h)
  | markDone jobId workerId attempt =>
    by_cases h : fenced jobId workerId attempt j
    · exact .inr (.inr (.inr (.inl ⟨_, _, _, rfl, h, if_pos h⟩)))
    · exact .inl (if_neg h)
  | markFailed jobId workerId attempt error =>
    by_cases h : fenced jobId workerId attempt j
    · exact .inr (.inr (.inr (.inr ⟨_, _, _, _, rfl, h, if_pos h⟩)))
    · exact .inl (if_neg h)

section Frame

variable (t : JobTable) (now : ℤ) (c : Call) (j : MessageJob)

/-- The key columns and the columns of the ordering are never assigned. -/
theorem rowAfter_frame : (rowAfter t now c j).id = j.id ∧ (rowAfter t now c j).threadId = j.threadId ∧
    (rowAfter t now c j).enqueuedAt = j.enqueuedAt := by
  rcases rowAfter_cases t now c j with h | ⟨_, _, _, -, -, h⟩ | ⟨_, _, _, _, -, -, h⟩ | ⟨_, _, _, -, -, h⟩ |
    ⟨_, _, _, _, -, -, h⟩ <;> rw [h]
  · exact ⟨rfl, rfl, rfl⟩
  all_goals exact ⟨SetClause.id_set _ _, SetClause.threadId_set _ _, SetClause.enqueuedAt_set _ _⟩

@[simp] theorem rowAfter_id : (rowAfter t now c j).id = j.id := (rowAfter_frame t now c j).1

@[simp] theorem rowAfter_threadId : (rowAfter t now c j).threadId = j.threadId := (rowAfter_frame t now c j).2.1

@[simp] theorem rowAfter_enqueuedAt : (rowAfter t now c j).enqueuedAt = j.enqueuedAt := (rowAfter_frame t now c j).2.2

@[simp] theorem rowAfter_dedupKey : (rowAfter t now c j).dedupKey = j.dedupKey := by
  rcases rowAfter_cases t now c j with h | ⟨_, _, _, -, -, h⟩ | ⟨_, _, _, _, -, -, h⟩ | ⟨_, _, _, -, -, h⟩ |
    ⟨_, _, _, _, -, -, h⟩ <;> rw [h]
  all_goals exact SetClause.dedupKey_set _ _

/-- `done` and `dead_letter` are never left: a call leaves a terminal row as it is. -/
theorem rowAfter_terminal (h : j.status.terminal) : rowAfter t now c j = j := by
  have hp : j.status ≠ .pending ∧ j.status ≠ .processing := by
    constructor <;> intro hs <;> rw [hs] at h <;> cases h
  have hf : ∀ jobId workerId attempt, ¬ fenced jobId workerId attempt j := fun _ _ _ hf => hp.2 (fenced_iff.mp hf).2.2.2
  rcases rowAfter_cases t now c j with h | ⟨_, _, _, -, hs, -⟩ | ⟨_, _, _, _, -, hf', -⟩ | ⟨_, _, _, -, hf', -⟩ |
    ⟨_, _, _, _, -, hf', -⟩
  · exact h
  · rcases (claimable_iff.mp (selectNextJob_some hs).2.1).1 with h' | h'
    · exact absurd h' hp.1
    · simp only [MessageJob.leaseExpired, Bool.and_eq_true, decide_eq_true_eq] at h'
      exact absurd h'.1 hp.2
  all_goals exact absurd hf' (hf _ _ _)

end Frame

/-! ### Steps and runs -/

section Steps

variable {s s' : QueueState} {e : Event}

theorem step_table (h : queue.step s e s') : s'.table = (exec s.table e.now e.call).1 := by rw [h.2.1]

theorem step_ret (h : queue.step s e s') : e.ret = (exec s.table e.now e.call).2 := by rw [h.2.1]

theorem mem_step (h : queue.step s e s') {k : MessageJob} : k ∈ s'.table.rows ↔
    (∃ j ∈ s.table.rows, k = rowAfter s.table e.now e.call j) ∨ k ∈ added s.table e.now e.call := by
  rw [step_table h, mem_exec]

/-- A row is never deleted, and keeps its key, its thread and its place in the order. -/
theorem row_persists {as : List Event} (h : queue.Run s as s') {j : MessageJob} (hj : j ∈ s.table.rows) :
    ∃ k ∈ s'.table.rows, k.id = j.id ∧ k.threadId = j.threadId ∧ k.enqueuedAt = j.enqueuedAt ∧
      (j.status.terminal → k = j) := by
  induction h with
  | nil => exact ⟨j, hj, rfl, rfl, rfl, fun _ => rfl⟩
  | snoc _ hs ih =>
    obtain ⟨k, hk, h1, h2, h3, h4⟩ := ih
    refine ⟨_, (mem_step hs).mpr (.inl ⟨k, hk, rfl⟩), by simp [h1], by simp [h2], by simp [h3], fun ht => ?_⟩
    rw [rowAfter_terminal _ _ _ _ (by rw [h4 ht]; exact ht), h4 ht]

/-- A claim hands out the row it selected, one attempt later. -/
theorem step_claimed (h : queue.step s e s') {k : MessageJob} (hk : e.ret = .claimed (some k)) :
    ∃ workerId leaseSeconds tie j, e.call = .claim workerId leaseSeconds tie ∧
      selectNextJob s.table e.now tie = some j ∧ k = (claimSet workerId e.now leaseSeconds).set j := by
  rw [step_ret h] at hk
  cases hc : e.call with
  | claim workerId leaseSeconds tie =>
    rw [hc] at hk
    rcases claimNextJob_cases s.table workerId e.now leaseSeconds tie with ⟨-, h2⟩ | ⟨j, h1, h2⟩
    · simp [exec, h2] at hk
    · simp only [exec, h2, Ret.claimed.injEq, Option.some.injEq] at hk
      exact ⟨_, _, _, j, rfl, h1, hk.symm⟩
  | enqueue | extend | markDone | markFailed => simp [hc, exec] at hk

end Steps

/-! ### Running a list of calls -/

/-- The state after one call. -/
def runCall (s : QueueState) (c : ℤ × Call) : QueueState := ⟨(exec s.table c.1 c.2).1, c.1⟩

/-- The transaction of one call. -/
def eventOf (s : QueueState) (c : ℤ × Call) : Event := ⟨c.2, c.1, (exec s.table c.1 c.2).2⟩

/-- The state after calls at given times. -/
def runCalls (s : QueueState) : List (ℤ × Call) → QueueState
  | [] => s
  | c :: cs => runCalls (runCall s c) cs

/-- The history of calls at given times. -/
def eventsOf (s : QueueState) : List (ℤ × Call) → List Event
  | [] => []
  | c :: cs => eventOf s c :: eventsOf (runCall s c) cs

/-- The times of the calls do not go back, and every call meets `G`. -/
def CallsOk (G : QueueState → Event → Prop) (s : QueueState) : List (ℤ × Call) → Prop
  | [] => True
  | c :: cs => (s.clock ≤ c.1 ∧ G s (eventOf s c)) ∧ CallsOk G (runCall s c) cs

instance CallsOk.decidable (G : QueueState → Event → Prop) [∀ s e, Decidable (G s e)] (s : QueueState) :
    (cs : List (ℤ × Call)) → Decidable (CallsOk G s cs)
  | [] => inferInstanceAs (Decidable True)
  | c :: cs => @instDecidableAnd _ _ _ (CallsOk.decidable G (runCall s c) cs)

/-- Calls on a clock that does not go back are a run. -/
theorem run_runCalls {G : QueueState → Event → Prop} {s : QueueState} {cs : List (ℤ × Call)} (h : CallsOk G s cs) :
    (queue.guard G).Run s (eventsOf s cs) (runCalls s cs) := by
  induction cs generalizing s with
  | nil => exact .nil s
  | cons c cs ih =>
    have hstep : (queue.guard G).step s (eventOf s c) (runCall s c) := ⟨⟨h.1.1, rfl, rfl⟩, h.1.2⟩
    exact (Lts.Run.single hstep).trans (ih h.2)

/-- The queue before the first message. -/
def emptyQueue : QueueState := ⟨.empty, 0⟩

theorem guard_runCalls {G : QueueState → Event → Prop} (cs : List (ℤ × Call)) (h : CallsOk G emptyQueue cs) :
    (queue.guard G).Hist (eventsOf emptyQueue cs) (runCalls emptyQueue cs) := ⟨emptyQueue, rfl, run_runCalls h⟩

theorem hist_runCalls (cs : List (ℤ × Call)) (h : CallsOk (fun _ _ => True) emptyQueue cs) :
    queue.Hist (eventsOf emptyQueue cs) (runCalls emptyQueue cs) := (guard_runCalls cs h).of_guard

end Sreda.Workers
