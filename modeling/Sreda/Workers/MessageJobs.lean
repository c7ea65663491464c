import Mathlib.Algebra.Order.Ring.Int
import Mathlib.Tactic.Common
import Sreda.Lib.Keyed

/-!
# The `message_jobs` table

The rows of `db/models/message_jobs.py` and the table that holds them. A `JobTable`
carries what the database itself enforces on every statement, the primary key and
`UNIQUE (channel, external_update_id)`, so a table that breaks them cannot be built.
The CHECK constraints are *not* carried: that the queue's statements respect them is
proved, of every run.

A timestamp is the number of microseconds since the epoch. `message_payload` is kept
as the JSON text it is stored as.
-/

namespace Sreda.Workers

/-- The values of the `status` column (`ck_message_jobs_status_enum`). -/
inductive JobStatus where
  | pending
  | processing
  | done
  | failed
  | deadLetter
  deriving DecidableEq, Repr

/-- `done`, `failed` and `dead_letter`: nothing is left to do. -/
def JobStatus.terminal : JobStatus → Bool
  | .done | .failed | .deadLetter => true
  | .pending | .processing => false

/-- One enqueued message awaiting worker processing. -/
structure MessageJob where
  /-- The primary key. -/
  id : String
  tenantId : String
  /-- The FIFO grouping key. -/
  threadId : String
  channel : String
  externalUpdateId : String
  messagePayload : String
  status : JobStatus
  enqueuedAt : ℤ
  startedAt : Option ℤ
  finishedAt : Option ℤ
  workerId : Option String
  /-- How many times the job was claimed: the fencing token. -/
  attempt : ℕ
  leaseExpiresAt : Option ℤ
  lastError : Option String
  deriving DecidableEq, Repr

namespace MessageJob

/-- The columns of the UNIQUE constraint. -/
def dedupKey (j : MessageJob) : String × String := (j.channel, j.externalUpdateId)

/-- `ck_message_jobs_status_timestamps`. -/
def statusTimestampsOk (j : MessageJob) : Bool :=
  (j.status = .pending && j.startedAt.isNone && j.finishedAt.isNone) ||
  (j.status = .processing && j.startedAt.isSome && j.finishedAt.isNone && j.leaseExpiresAt.isSome) ||
  (j.status.terminal && j.finishedAt.isSome)

/-- `status = 'processing' AND lease_expires_at >= :now`; a comparison with NULL is not true. -/
def active (now : ℤ) (j : MessageJob) : Bool :=
  j.status = .processing && j.leaseExpiresAt.any fun lease => now ≤ lease

/-- `status = 'processing' AND lease_expires_at < :now`. -/
def leaseExpired (now : ℤ) (j : MessageJob) : Bool :=
  j.status = .processing && j.leaseExpiresAt.any fun lease => lease < now

/-- A lease that is still running at a later time was running before. -/
theorem active_of_le {now later : ℤ} (h : now ≤ later) {j : MessageJob} (ha : j.active later) : j.active now := by
  cases hl : j.leaseExpiresAt with
  | none => simp [active, hl] at ha
  | some lease =>
    simp only [active, hl, Option.any_some, Bool.and_eq_true, decide_eq_true_eq] at ha ⊢
    exact ⟨ha.1, h.trans ha.2⟩

theorem not_active_of_leaseExpired {now : ℤ} {j : MessageJob} (h : j.leaseExpired now) : j.active now = false := by
  cases hl : j.leaseExpiresAt with
  | none => simp [active, hl]
  | some lease =>
    simp only [leaseExpired, hl, Option.any_some, Bool.and_eq_true, decide_eq_true_eq] at h
    simp [active, hl, h.2]

theorem not_active_of_ne_processing {now : ℤ} {j : MessageJob} (h : j.status ≠ .processing) :
    j.active now = false := by simp [active, h]

/-- A row that passes the CHECK is pending, or processing with a lease that is running or
has run out, or terminal. -/
theorem status_cases (now : ℤ) {j : MessageJob} (h : j.statusTimestampsOk) :
    j.status = .pending ∨ j.active now ∨ j.leaseExpired now ∨ j.status.terminal := by
  cases hs : j.status with
  | pending => exact .inl rfl
  | processing =>
    cases hl : j.leaseExpiresAt with
    | none => simp [statusTimestampsOk, hs, hl, JobStatus.terminal] at h
    | some lease =>
      rcases le_or_gt now lease with h | h <;> simp [active, leaseExpired, hs, hl, h]
  | done | failed | deadLetter => simp [JobStatus.terminal]

end MessageJob

/-- The table, with the constraints the database enforces on the keys. -/
structure JobTable where
  /-- The rows. -/
  rows : List MessageJob
  /-- The primary key. -/
  id_nodup : (rows.map (·.id)).Nodup
  /-- `uq_message_jobs_channel_external_update_id`. -/
  key_nodup : (rows.map (·.dedupKey)).Nodup

namespace JobTable

/-- The table before the first message. -/
def empty : JobTable := ⟨[], .nil, .nil⟩

/-- The row of a key. -/
def get (t : JobTable) (id : String) : Option MessageJob := t.rows.find? (·.id = id)

@[simp] theorem rows_empty : empty.rows = [] := rfl
variable {t : JobTable} {k : MessageJob} {c : SetClause} {p : MessageJob → Bool}

theorem eq_of_id {j : MessageJob} (hj : j ∈ t.rows) (hk : k ∈ t.rows) (h : j.id = k.id) :
    j = k := List.inj_on_of_nodup_map t.id_nodup hj hk h

theorem get_eq_some {j : MessageJob} (hj : j ∈ t.rows) : t.get j.id = some j := by
  have hs : (t.get j.id).isSome := by
    simp only [get, List.find?_isSome, decide_eq_true_eq]
    exact ⟨j, hj, rfl⟩
  obtain ⟨k, hk⟩ := Option.isSome_iff_exists.mp hs
  have hid : k.id = j.id := by simpa using List.find?_some hk
  rw [hk, eq_of_id (List.mem_of_find?_eq_some hk) hj hid]

theorem eq_of_key {j : MessageJob} (hj : j ∈ t.rows) (hk : k ∈ t.rows) (h : j.dedupKey = k.dedupKey) :
    j = k := List.inj_on_of_nodup_map t.key_nodup hj hk h

/-- The row of a pair of the UNIQUE constraint. -/
theorem find?_dedupKey {j : MessageJob} {key : String × String} (hj : j ∈ t.rows) (h : j.dedupKey = key) :
    t.rows.find? (·.dedupKey = key) = some j := by
  have hs : (t.rows.find? (·.dedupKey = key)).isSome := by
    simp only [List.find?_isSome, decide_eq_true_eq]
    exact ⟨j, hj, h⟩
  obtain ⟨k, hk⟩ := Option.isSome_iff_exists.mp hs
  have hkey : k.dedupKey = key := by simpa using List.find?_some hk
  rw [hk, eq_of_key (List.mem_of_find?_eq_some hk) hj (hkey.trans h.symm)]

/-- What the SET clause of an UPDATE may do here: it leaves the columns of the keys, and
the columns no statement of the queue assigns, as they were. -/
structure SetClause where
  /-- The row after the assignments. -/
  set : MessageJob → MessageJob
  id_set : ∀ j, (set j).id = j.id
  dedupKey_set : ∀ j, (set j).dedupKey = j.dedupKey
  threadId_set : ∀ j, (set j).threadId = j.threadId
  enqueuedAt_set : ∀ j, (set j).enqueuedAt = j.enqueuedAt

/-- `UPDATE message_jobs SET … WHERE …`: the new table and the row count. -/
def update (t : JobTable) (c : SetClause) (p : MessageJob → Bool) : JobTable × ℕ :=
  (⟨t.rows.map fun j => if p j then c.set j else j, by
      rw [List.map_map]
      convert t.id_nodup using 2
      funext j
      by_cases h : p j <;> simp [h, c.id_set], by
      rw [List.map_map]
      convert t.key_nodup using 2
      funext j
      by_cases h : p j <;> simp [h, c.dedupKey_set]⟩,
    t.rows.countP p)

theorem mem_update : k ∈ (t.update c p).1.rows ↔ ∃ j ∈ t.rows, k = if p j then c.set j else j := by
  simp only [update, List.mem_map]
  exact ⟨fun ⟨j, hj, h⟩ => ⟨j, hj, h.symm⟩, fun ⟨j, hj, h⟩ => ⟨j, hj, h.symm⟩⟩

theorem update_count_pos : (t.update c p).2 ≠ 0 ↔ ∃ j ∈ t.rows, p j = true := by
  simp [update]

/-- `INSERT`, after the keys were found free. -/
def insert (t : JobTable) (j : MessageJob) (hid : j.id ∉ t.rows.map (·.id))
    (hkey : j.dedupKey ∉ t.rows.map (·.dedupKey)) : JobTable :=
  ⟨t.rows ++ [j], by simpa [List.nodup_append] using ⟨t.id_nodup, by simpa [eq_comm] using hid⟩, by
    simpa [List.nodup_append] using ⟨t.key_nodup, by simpa [eq_comm] using hkey⟩⟩

end JobTable

end Sreda.Workers
