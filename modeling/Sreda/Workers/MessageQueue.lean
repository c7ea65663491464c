import Sreda.Workers.MessageJobs

/-!
# The per-thread FIFO queue

The operations of `workers/message_queue.py` on the `message_jobs` table: `enqueue_message`,
`claim_next_job`, `extend_lease`, `mark_done` and `mark_failed`, each a function from the
table before its statement to the table after it and the value it returns.

Each call is one transaction. On PostgreSQL that is what the advisory lock taken by
`claim_next_job` and the row lock of `FOR UPDATE` give; the `SELECT` of a claim and its
`UPDATE` then see one table.

What the code leaves to its surroundings is a parameter: the clock, the fresh primary key
of an enqueued job (`uuid4`), and which of several rows of equal `enqueued_at` the database
returns first (`tie`).
-/

namespace Sreda.Workers

open JobTable

/-- `timedelta(seconds=n)`, in microseconds. -/
def seconds (n : ℤ) : ℤ := n * 1000000

/-- `LEASE_DURATION_SEC`. -/
def leaseDurationSec : ℤ := 300

/-- `MAX_ATTEMPTS`. -/
def maxAttempts : ℕ := 3

/-! ### Enqueue -/

/-- What `enqueue_message` ends with. -/
inductive EnqueueResult where
  /-- The new row. -/
  | job (j : MessageJob)
  /-- `DuplicateMessageJob(existing)`. -/
  | duplicate (existing : MessageJob)
  /-- `IntegrityError` of the flush: the primary key is taken. -/
  | integrityError
  deriving DecidableEq, Repr

/-- The row `enqueue_message` adds. -/
def newJob (id tenantId threadId channel externalUpdateId messagePayload : String) (when : ℤ) : MessageJob where
  id := id
  tenantId := tenantId
  threadId := threadId
  channel := channel
  externalUpdateId := externalUpdateId
  messagePayload := messagePayload
  status := .pending
  enqueuedAt := when
  startedAt := none
  finishedAt := none
  workerId := none
  attempt := 0
  leaseExpiresAt := none
  lastError := none

/-- `enqueue_message`. -/
def enqueueMessage (t : JobTable) (id tenantId threadId channel externalUpdateId messagePayload : String)
    (when : ℤ) : JobTable × EnqueueResult :=
  let j := newJob id tenantId threadId channel externalUpdateId messagePayload when
  if hkey : j.dedupKey ∈ t.rows.map (·.dedupKey) then
    match t.rows.find? (·.dedupKey = j.dedupKey) with
    | some existing => (t, .duplicate existing)
    | none => (t, .integrityError)
  else if hid : j.id ∈ t.rows.map (·.id) then (t, .integrityError)
  else (t.insert j hid hkey, .job j)

/-! ### Claim -/

/-- The WHERE clause of the inner SELECT: the job is pending or its lease has run out, and no
other job of its thread is held under a running lease. -/
def claimable (t : JobTable) (now : ℤ) (j : MessageJob) : Bool :=
  (j.status = .pending || j.leaseExpired now) &&
    !t.rows.any fun j2 => j2.threadId = j.threadId && j2.active now && j2.id ≠ j.id

/-- The rows that may come first under `ORDER BY enqueued_at`. -/
def oldest (js : List MessageJob) : List MessageJob := js.filter fun j => js.all fun k => j.enqueuedAt ≤ k.enqueuedAt

/-- The inner SELECT: `ORDER BY enqueued_at LIMIT 1`, with `tie` choosing among equals. -/
def selectNextJob (t : JobTable) (now : ℤ) (tie : ℕ) : Option MessageJob :=
  let js := oldest (t.rows.filter (claimable t now))
  js[tie % js.length]?

/-- The SET clause of a claim. -/
def claimSet (workerId : String) (now leaseSeconds : ℤ) : SetClause where
  set j := { j with
    status := .processing
    startedAt := j.startedAt.or (some now)
    workerId := some workerId
    attempt := j.attempt + 1
    leaseExpiresAt := some (now + seconds leaseSeconds) }
  id_set _ := rfl
  dedupKey_set _ := rfl
  threadId_set _ := rfl
  enqueuedAt_set _ := rfl

/-- `claim_next_job`. -/
def claimNextJob (t : JobTable) (workerId : String) (now leaseSeconds : ℤ) (tie : ℕ) :
    JobTable × Option MessageJob :=
  match selectNextJob t now tie with
  | none => (t, none)
  | some j =>
    let t' := (t.update (claimSet workerId now leaseSeconds) fun k => k.id = j.id).1
    (t', t'.get j.id)

/-! ### Lease management and outcomes -/

/-- The WHERE clause shared by the conditional updates: the fencing token. -/
def fenced (jobId workerId : String) (attempt : ℕ) (j : MessageJob) : Bool :=
  j.id = jobId && j.workerId = some workerId && j.attempt = attempt && j.status = .processing

/-- The SET clause of `extend_lease`. -/
def extendSet (now leaseSeconds : ℤ) : SetClause where
  set j := { j with leaseExpiresAt := some (now + seconds leaseSeconds) }
  id_set _ := rfl
  dedupKey_set _ := rfl
  threadId_set _ := rfl
  enqueuedAt_set _ := rfl

/-- The SET clause of `mark_done`. -/
def doneSet (now : ℤ) : SetClause where
  set j := { j with status := .done, finishedAt := some now, leaseExpiresAt := none }
  id_set _ := rfl
  dedupKey_set _ := rfl
  threadId_set _ := rfl
  enqueuedAt_set _ := rfl

/-- The SET clause of `mark_failed` on its retry path. -/
def retrySet (error : String) : SetClause where
  set j := { j with
    status := .pending
    startedAt := none
    finishedAt := none
    leaseExpiresAt := none
    workerId := none
    lastError := some error }
  id_set _ := rfl
  dedupKey_set _ := rfl
  threadId_set _ := rfl
  enqueuedAt_set _ := rfl

/-- The SET clause of `mark_failed` on its dead-letter path. -/
def deadLetterSet (error : String) (now : ℤ) : SetClause where
  set j := { j with status := .deadLetter, finishedAt := some now, leaseExpiresAt := none, lastError := some error }
  id_set _ := rfl
  dedupKey_set _ := rfl
  threadId_set _ := rfl
  enqueuedAt_set _ := rfl

/-- The SET clause `mark_failed` chooses. -/
def failedSet (attempt : ℕ) (error : String) (now : ℤ) (max_attempts : ℕ) : SetClause :=
  if attempt < max_attempts then retrySet error else deadLetterSet error now

/-- A conditional update and `bool(result.rowcount)`. -/
def fencedUpdate (t : JobTable) (jobId workerId : String) (attempt : ℕ) (c : SetClause) : JobTable × Bool :=
  let r := t.update c (fenced jobId workerId attempt)
  (r.1, r.2 != 0)

/-- `extend_lease`. -/
def extendLease (t : JobTable) (jobId workerId : String) (attempt : ℕ) (now leaseSeconds : ℤ) : JobTable × Bool :=
  fencedUpdate t jobId workerId attempt (extendSet now leaseSeconds)

/-- `mark_done`. -/
def markDone (t : JobTable) (jobId workerId : String) (attempt : ℕ) (now : ℤ) : JobTable × Bool :=
  fencedUpdate t jobId workerId attempt (doneSet now)

/-- `mark_failed`. -/
def markFailed (t : JobTable) (jobId workerId : String) (attempt : ℕ) (error : String) (now : ℤ)
    (max_attempts : ℕ := maxAttempts) : JobTable × Bool :=
  fencedUpdate t jobId workerId attempt (failedSet attempt error now max_attempts)

/-! ### What each operation does to the table -/

variable {j : MessageJob} {t : JobTable}

theorem fenced_iff {jobId workerId : String} {attempt : ℕ} : fenced jobId workerId attempt j = true ↔
      j.id = jobId ∧ j.workerId = some workerId ∧ j.attempt = attempt ∧ j.status = .processing := by
  simp [fenced, and_assoc]

/-- An enqueue adds one pending row under free keys, or changes nothing. -/
theorem enqueueMessage_cases (t : JobTable) (id tenantId threadId channel externalUpdateId messagePayload : String)
    (when : ℤ) :
    let j := newJob id tenantId threadId channel externalUpdateId messagePayload when
    let r := enqueueMessage t id tenantId threadId channel externalUpdateId messagePayload when
    (r.1.rows = t.rows ++ [j] ∧ r.2 = .job j ∧ ∀ k ∈ t.rows, k.id ≠ id) ∨
      (r.1 = t ∧ ∀ k, r.2 ≠ .job k) := by
  intro j r
  by_cases hkey : j.dedupKey ∈ t.rows.map (·.dedupKey)
  · have hr : r = match t.rows.find? (·.dedupKey = j.dedupKey) with
        | some existing => (t, .duplicate existing)
        | none => (t, .integrityError) := dif_pos hkey
    rw [hr]
    cases t.rows.find? (·.dedupKey = j.dedupKey) <;> exact .inr ⟨rfl, by simp⟩
  · by_cases hid : j.id ∈ t.rows.map (·.id)
    · have hr : r = (t, .integrityError) := (dif_neg hkey).trans (dif_pos hid)
      rw [hr]
      exact .inr ⟨rfl, by simp⟩
    · have hr : r = (t.insert j hid hkey, .job j) := (dif_neg hkey).trans (dif_neg hid)
      rw [hr]
      exact .inl ⟨rfl, rfl, fun k hk h => hid (List.mem_map.mpr ⟨k, hk, h⟩)⟩

/-- An enqueue under a key that is taken returns the row of the key. -/
theorem enqueueMessage_of_key {existing : MessageJob} (hmem : existing ∈ t.rows)
    (id tenantId threadId messagePayload : String) {channel externalUpdateId : String} (when : ℤ)
    (hkey : existing.dedupKey = (channel, externalUpdateId)) :
    enqueueMessage t id tenantId threadId channel externalUpdateId messagePayload when = (t, .duplicate existing) := by
  let j := newJob id tenantId threadId channel externalUpdateId messagePayload when
  have hfind : t.rows.find? (·.dedupKey = j.dedupKey) = some existing := find?_dedupKey hmem hkey
  have htaken : j.dedupKey ∈ t.rows.map (·.dedupKey) := List.mem_map.mpr ⟨existing, hmem, hkey⟩
  exact (dif_pos htaken).trans (by rw [hfind])

theorem enqueueMessage_of_free {id channel externalUpdateId : String} (tenantId threadId messagePayload : String)
    (when : ℤ) (hid : ∀ j ∈ t.rows, j.id ≠ id) (hkey : ∀ j ∈ t.rows, j.dedupKey ≠ (channel, externalUpdateId)) :
    ∃ t' : JobTable, t'.rows = t.rows ++ [newJob id tenantId threadId channel externalUpdateId messagePayload when] ∧
      enqueueMessage t id tenantId threadId channel externalUpdateId messagePayload when =
        (t', .job (newJob id tenantId threadId channel externalUpdateId messagePayload when)) := by
  have hid' : id ∉ t.rows.map (·.id) := fun h => by
    obtain ⟨j, hj, heq⟩ := List.mem_map.mp h
    exact hid j hj heq
  have hkey' : (channel, externalUpdateId) ∉ t.rows.map (·.dedupKey) := fun h => by
    obtain ⟨j, hj, heq⟩ := List.mem_map.mp h
    exact hkey j hj heq
  exact ⟨_, rfl, (dif_neg hkey').trans (dif_neg hid')⟩

theorem mem_oldest {js : List MessageJob} : j ∈ oldest js ↔ j ∈ js ∧ ∀ k ∈ js, j.enqueuedAt ≤ k.enqueuedAt := by
  simp [oldest]

/-- What the SELECT of a claim returns is claimable and no older row is. -/
theorem selectNextJob_some {now : ℤ} {tie : ℕ} (h : selectNextJob t now tie = some j) :
    j ∈ t.rows ∧ claimable t now j ∧ ∀ k ∈ t.rows, claimable t now k → j.enqueuedAt ≤ k.enqueuedAt := by
  have hm := mem_oldest.mp (List.mem_of_getElem? h)
  simp only [List.mem_filter, and_imp] at hm
  exact ⟨hm.1.1, hm.1.2, hm.2⟩

theorem claimable_iff {now : ℤ} : claimable t now j ↔ (j.status = .pending ∨ j.leaseExpired now) ∧
      ∀ k ∈ t.rows, k.threadId = j.threadId → k.active now → k.id = j.id := by
  simp only [claimable, Bool.and_eq_true, Bool.or_eq_true, decide_eq_true_eq, Bool.not_eq_true', List.any_eq_false,
    not_and, Decidable.not_not, ne_eq]
  exact and_congr_right fun _ =>
    ⟨fun h k hk ht ha => h k hk ⟨ht, ha⟩, fun h k hk ha => h k hk ha.1 ha.2⟩

/-- A claimable row is not held under a running lease. -/
theorem not_active_of_claimable {now : ℤ} (h : claimable t now j) : j.active now = false := by
  rcases (claimable_iff.mp h).1 with h | h
  · exact MessageJob.not_active_of_ne_processing (by simp [h])
  · exact MessageJob.not_active_of_leaseExpired h

/-- A claim returns the selected row as it has left it, or finds none and changes nothing. -/
theorem claimNextJob_cases (t : JobTable) (workerId : String) (now leaseSeconds : ℤ) (tie : ℕ) :
    (selectNextJob t now tie = none ∧ claimNextJob t workerId now leaseSeconds tie = (t, none)) ∨
      ∃ j, selectNextJob t now tie = some j ∧
        claimNextJob t workerId now leaseSeconds tie =
          ((t.update (claimSet workerId now leaseSeconds) fun k => k.id = j.id).1,
            some ((claimSet workerId now leaseSeconds).set j)) := by
  unfold claimNextJob
  cases h : selectNextJob t now tie with
  | none => exact .inl ⟨rfl, rfl⟩
  | some j =>
    refine .inr ⟨j, rfl, ?_⟩
    have hm : (claimSet workerId now leaseSeconds).set j ∈
        (t.update (claimSet workerId now leaseSeconds) fun k => k.id = j.id).1.rows :=
      mem_update.mpr ⟨j, (selectNextJob_some h).1, by simp⟩
    exact Prod.ext rfl (get_eq_some hm)

/-- A conditional update reports `True` exactly when it met a row. -/
theorem fencedUpdate_landed {jobId workerId : String} {attempt : ℕ} {c : SetClause} :
    (fencedUpdate t jobId workerId attempt c).2 = true ↔ ∃ j ∈ t.rows, fenced jobId workerId attempt j := by
  simp [fencedUpdate, update_count_pos]

end Sreda.Workers
