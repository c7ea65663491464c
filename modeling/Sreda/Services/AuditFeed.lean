import Mathlib.Data.List.Sort
import Mathlib.Logic.Function.Basic
import Sreda.Lib.Keyed
import Sreda.Lib.Transition

/-!
# The audit outbox and the change feed

`services/audit_feed.py`: `emit_event` writes an event to the table `audit_outbox`, unless its
operation id is in that table or in `user_data_change_feed` already; `relay_outbox` moves a batch of
rows, the oldest first, from the outbox to the feed. Both tables are unique in the operation
id. `probe_operation` of the crash recovery looks for an operation id in the outbox, then in
the feed.

Any number of emits, relays and probes run at the same time. Each `SELECT` is a step and sees
what is committed; an emit inserts its row with the commit of its transaction, and a relay
writes all its rows with the commit of its own, or none. The canonical JSON and the digest of a
payload are given.

## What is proved

* an operation id that is in one of the tables stays in one of them (`present_run`);
* what a step makes of a relay and of an emit (`relays_step`, `emits_step`);
* the guarantees of emits, relays and probes (`audit_guarantees`).
-/

namespace Sreda.Services

open Sreda.Lib

universe u

/-! ### The tables -/

/-- The columns that both tables have; the feed has no others. -/
structure AuditEvent (J : Type u) where
  operationId : String
  tenantId : String
  userId : Option String
  source : String
  entityType : String
  entityId : Option String
  action : String
  payload : Option J
  payloadHash : Option String
  causedBy : Option J
  occurredAt : ℤ

/-- `AuditOutboxEvent`. -/
structure AuditOutboxEvent (J : Type u) where
  id : ℕ
  event : AuditEvent J
  enqueuedAt : ℤ
  attempts : ℕ
  lastAttemptAt : Option ℤ
  lastError : Option String

variable {J : Type u}

def AuditOutboxEvent.operationId (row : AuditOutboxEvent J) : String := row.event.operationId

/-- The two tables. The outbox has a primary key that counts up. -/
structure AuditDb (J : Type u) where
  outbox : Keyed (AuditOutboxEvent.operationId (J := J))
  feed : Keyed (AuditEvent.operationId (J := J))
  nextId : ℕ
  id_nodup : (outbox.rows.map (·.id)).Nodup
  id_lt : ∀ row ∈ outbox.rows, row.id < nextId

/-- `_compute_payload_hash`; `hash` is the SHA-256 of the canonical JSON. -/
def computePayloadHash (hash : J → String) : Option J → String
  | none => ""
  | some payload => hash payload

/-- `_effective_hash`. -/
def effectiveHash (hash : J → String) (e : AuditEvent J) : String :=
  match e.payloadHash with
  | none | some "" => computePayloadHash hash e.payload
  | some stored => stored

/-! ### `emit_event` -/

def auditSources : List String := ["среда", "mini-app", "api", "system"]
def auditActions : List String := ["created", "updated", "deleted", "skipped"]
def auditEntityTypes : List String :=
  ["shopping_list_item", "family_reminder", "task", "recipe", "checklist", "checklist_item", "menu_plan",
    "menu_plan_item", "family_member"]

inductive EmitError where
  /-- `ValueError`: the value is not in the list. -/
  | badSource (source : String)
  | badAction (action : String)
  | badEntityType (entityType : String)
  /-- `PayloadHashConflict`. -/
  | payloadHashConflict (operationId existingHash newHash location : String)
  | integrityError
  /-- The transaction of the caller was taken back. -/
  | rolledBack

/-- The arguments of `emit_event`; `occurredAt` is the time of the call when none is given. -/
structure EmitCall (J : Type u) where
  operationId : String
  tenantId : String
  userId : Option String
  source : String
  entityType : String
  entityId : Option String
  action : String
  payload : Option J
  causedBy : Option J
  occurredAt : ℤ

/-- The checks of the arguments. -/
def EmitCall.check (c : EmitCall J) : Option EmitError :=
  if c.source ∉ auditSources then some (.badSource c.source)
  else if c.action ∉ auditActions then some (.badAction c.action)
  else if c.entityType ∉ auditEntityTypes then some (.badEntityType c.entityType)
  else none

/-- The event of a call. -/
def EmitCall.event (hash : J → String) (c : EmitCall J) : AuditEvent J where
  operationId := c.operationId
  tenantId := c.tenantId
  userId := c.userId
  source := c.source
  entityType := c.entityType
  entityId := c.entityId
  action := c.action
  payload := c.payload
  payloadHash := some (computePayloadHash hash c.payload)
  causedBy := c.causedBy
  occurredAt := c.occurredAt

/-- What a call makes of a row with its operation id: a conflict, or the event `result`. -/
def EmitCall.existing (hash : J → String) (c : EmitCall J) (location : String) (stored result : AuditEvent J) :
    Except EmitError (AuditEvent J) :=
  if effectiveHash hash stored ≠ computePayloadHash hash c.payload then
    .error (.payloadHashConflict c.operationId (effectiveHash hash stored) (computePayloadHash hash c.payload) location)
  else .ok result

/-- Where a call of `emit_event` is. -/
inductive EmitPhase (J : Type u) where
  | start
  /-- The outbox had no row. -/
  | outboxMissed
  /-- Nor had the feed: the row is about to be inserted. -/
  | feedMissed
  | ended (result : Except EmitError (AuditEvent J))

/-- The checks and the first `SELECT`. -/
def EmitCall.begin (hash : J → String) (c : EmitCall J) (db : AuditDb J) : EmitPhase J :=
  match c.check with
  | some e => .ended (.error e)
  | none =>
    match db.outbox.get? c.operationId with
    | some row => .ended (c.existing hash "outbox" row.event row.event)
    | none => .outboxMissed

/-- The second `SELECT`; an event in the feed is returned as a row that is not inserted. -/
def EmitCall.selectFeed (hash : J → String) (c : EmitCall J) (db : AuditDb J) : EmitPhase J :=
  match db.feed.get? c.operationId with
  | some stored => .ended (c.existing hash "feed" stored (c.event hash))
  | none => .feedMissed

/-- The row that is inserted at a time. -/
def EmitCall.row (hash : J → String) (c : EmitCall J) (id : ℕ) (enqueuedAt : ℤ) : AuditOutboxEvent J where
  id := id
  event := c.event hash
  enqueuedAt := enqueuedAt
  attempts := 0
  lastAttemptAt := none
  lastError := none

/-- `INSERT` of a row with the next id; nothing when the operation id is taken. -/
def AuditDb.insertRow? (db : AuditDb J) (row : AuditOutboxEvent J) (hid : row.id = db.nextId) : Option (AuditDb J) :=
  match h : db.outbox.insert? row with
  | none => none
  | some outbox => some
      { db with
        outbox := outbox
        nextId := db.nextId + 1
        id_nodup := by
          rw [Keyed.rows_insert? h, List.map_append, List.nodup_append]
          refine ⟨db.id_nodup, List.nodup_singleton _, fun a ha b hb => ?_⟩
          obtain ⟨r, hr, rfl⟩ := List.mem_map.mp ha
          obtain rfl : b = row.id := by simpa using hb
          exact Nat.ne_of_lt (hid ▸ db.id_lt r hr)
        id_lt := by
          intro r hr
          rw [Keyed.rows_insert? h] at hr
          rcases List.mem_append.mp hr with hr | hr
          · exact Nat.lt_succ_of_lt (db.id_lt r hr)
          · rw [List.mem_singleton.mp hr, hid]
            exact Nat.lt_succ_self _ }

/-- The insertion. -/
def EmitCall.insert (hash : J → String) (c : EmitCall J) (db : AuditDb J) (enqueuedAt : ℤ) : AuditDb J × EmitPhase J :=
  match db.insertRow? (c.row hash db.nextId enqueuedAt) rfl with
  | some db' => (db', .ended (.ok (c.event hash)))
  | none => (db, .ended (.error .integrityError))

/-! ### `relay_outbox` -/

/-- What a relay does with a row. -/
inductive RowFate where
  /-- The feed has other content. -/
  | conflict (feedHash outboxHash : String)
  /-- The feed has it: the row is deleted. -/
  | drop
  /-- The event is inserted into the feed and the row is deleted. -/
  | move
  /-- The insertion raised something else than an `IntegrityError`. -/
  | failed (error : String)

/-- The check before the move, and what it leads to. -/
def rowFate (hash : J → String) (feed : Keyed (AuditEvent.operationId (J := J))) (row : AuditOutboxEvent J) : RowFate :=
  match feed.get? row.operationId with
  | some existing =>
    if effectiveHash hash existing ≠ effectiveHash hash row.event then
      .conflict (effectiveHash hash existing) (effectiveHash hash row.event)
    else .drop
  | none => .move

/-- `last_error` of a row in conflict. -/
def mismatchText (feedHash outboxHash : String) : String :=
  "payload_hash mismatch: feed='" ++ feedHash ++ "' outbox='" ++ outboxHash ++ "'"

/-- The row is tried again later. -/
def AuditOutboxEvent.markAttempt (row : AuditOutboxEvent J) (now : ℤ) (error : String) : AuditOutboxEvent J :=
  { row with attempts := row.attempts + 1, lastAttemptAt := some now, lastError := some error }

theorem operationId_markAttempt (row : AuditOutboxEvent J) (now : ℤ) (error : String) :
    (row.markAttempt now error).operationId = row.operationId := rfl

/-- `UPDATE` of the row with this id; it raises when the row is gone. -/
def AuditDb.markAttempt? (db : AuditDb J) (id : ℕ) (now : ℤ) (error : String) : Option (AuditDb J) :=
  if db.outbox.rows.any (·.id = id) then
    some
      { db with
        outbox := db.outbox.update (·.id = id) (·.markAttempt now error) (operationId_markAttempt · now error)
        id_nodup := by
          have hids : (fun r : AuditOutboxEvent J => (if r.id = id then r.markAttempt now error else r).id) =
              (·.id) := by
            funext r
            split <;> rfl
          simpa [List.map_map, Function.comp_def, hids] using db.id_nodup
        id_lt := by
          intro r hr
          obtain ⟨r', hr', rfl⟩ := List.mem_map.mp hr
          have := db.id_lt r' hr'
          split
          · exact this
          · exact this }
  else none

theorem markAttempt?_of_mem {db : AuditDb J} {w : AuditOutboxEvent J} (hw : w ∈ db.outbox.rows) (now : ℤ)
    (error : String) :
    ∃ db', db.markAttempt? w.id now error = some db' ∧ db'.feed = db.feed ∧
      db'.outbox.rows = db.outbox.rows.map fun r => if r.id = w.id then r.markAttempt now error else r := by
  have hany : db.outbox.rows.any (·.id = w.id) = true := List.any_eq_true.mpr ⟨w, hw, by simp⟩
  rw [AuditDb.markAttempt?, if_pos hany]
  exact ⟨_, rfl, rfl, by simp⟩

/-- `DELETE` of the row with this id. -/
def AuditDb.deleteRow (db : AuditDb J) (id : ℕ) : AuditDb J :=
  { db with
    outbox := db.outbox.delete (·.id = id)
    id_nodup := db.id_nodup.sublist (List.filter_sublist.map _)
    id_lt := fun r hr => db.id_lt r (List.mem_of_mem_filter hr) }

/-- What a relay writes for a row; nothing when it raises. -/
def applyFate (now : ℤ) (db : AuditDb J) : AuditOutboxEvent J × RowFate → Option (AuditDb J)
  | (row, .conflict feedHash outboxHash) => db.markAttempt? row.id now (mismatchText feedHash outboxHash)
  | (row, .drop) => some (db.deleteRow row.id)
  | (row, .move) => (db.feed.insert? row.event).map fun feed => { db with feed := feed }.deleteRow row.id
  | (row, .failed error) => db.markAttempt? row.id now (error.take 1000).toString

/-- The row counts as relayed. -/
def RowFate.relayed : RowFate → Bool
  | .drop | .move => true
  | _ => false

/-- The number of rows that count as relayed. -/
def relayedCount (writes : List (AuditOutboxEvent J × RowFate)) : ℕ := writes.countP fun w => w.2.relayed

/-- What a relay writes. -/
def applyFates (now : ℤ) (db : AuditDb J) (writes : List (AuditOutboxEvent J × RowFate)) : Option (AuditDb J) :=
  writes.foldlM (applyFate now) db

/-- `SELECT … ORDER BY enqueued_at LIMIT batch_size`: the database chooses among rows of one time. -/
structure IsBatch (outbox : Keyed (AuditOutboxEvent.operationId (J := J))) (batchSize : ℕ)
    (batch : List (AuditOutboxEvent J)) : Prop where
  nodup : batch.Nodup
  subset : ∀ row ∈ batch, row ∈ outbox.rows
  length : batch.length = min batchSize outbox.rows.length
  sorted : batch.Pairwise fun a b => a.enqueuedAt ≤ b.enqueuedAt
  oldest : ∀ row ∈ outbox.rows, row ∉ batch → ∀ b ∈ batch, b.enqueuedAt ≤ row.enqueuedAt

/-- `relay_outbox`, when nothing comes between, on a batch that was selected. The rows of a
batch have different operation ids, so what is inserted for one is no matter to the check of
the next. -/
def relayOutbox (hash : J → String) (now : ℤ) (db : AuditDb J) (batch : List (AuditOutboxEvent J)) :
    Option (AuditDb J × ℕ) :=
  let writes := batch.map fun row => (row, rowFate hash db.feed row)
  (applyFates now db writes).map fun db => (db, relayedCount writes)

/-! ### Any number of calls -/

/-- Where a call of `relay_outbox` is. -/
inductive RelayPhase (J : Type u) where
  | start
  /-- The rows of the batch that are still to be checked, and what is written so far. -/
  | running (todo : List (AuditOutboxEvent J)) (writes : List (AuditOutboxEvent J × RowFate))
  /-- The number of rows that were relayed, unless it raised. -/
  | ended (relayed : Option ℕ)

/-- Where a call of `probe_operation` is. -/
inductive ProbePhase where
  | start
  | outboxMissed
  | ended (found : Bool)

structure AuditState (J : Type u) where
  db : AuditDb J
  emits : ℕ → EmitPhase J
  relays : ℕ → RelayPhase J
  probes : ℕ → ProbePhase

/-- The calls, by number. -/
structure AuditSystem (J : Type u) where
  hash : J → String
  emit : ℕ → EmitCall J
  batchSize : ℕ → ℕ
  relayNow : ℕ → ℤ
  probe : ℕ → String

inductive AuditAction (J : Type u) where
  | emitBegin (i : ℕ)
  | emitSelectFeed (i : ℕ)
  | emitInsert (i : ℕ) (enqueuedAt : ℤ)
  | emitRollback (i : ℕ)
  | relaySelect (j : ℕ) (batch : List (AuditOutboxEvent J))
  | relayRow (j : ℕ) (failure : Option String)
  | relayCommit (j : ℕ)
  | relayRollback (j : ℕ)
  | probeOutbox (k : ℕ)
  | probeFeed (k : ℕ)

def AuditState.setEmit (s : AuditState J) (i : ℕ) (phase : EmitPhase J) : AuditState J :=
  { s with emits := Function.update s.emits i phase }

def AuditState.setRelay (s : AuditState J) (j : ℕ) (phase : RelayPhase J) : AuditState J :=
  { s with relays := Function.update s.relays j phase }

def AuditState.setProbe (s : AuditState J) (k : ℕ) (phase : ProbePhase) : AuditState J :=
  { s with probes := Function.update s.probes k phase }

theorem AuditState.setEmit_self (s : AuditState J) (i : ℕ) (phase : EmitPhase J) :
    (s.setEmit i phase).emits i = phase :=
  Function.update_self ..

variable {i k : ℕ} {db' : AuditDb J} {row : AuditOutboxEvent J} {e : AuditEvent J} {hash : J → String}
variable {a : AuditAction J} {S : AuditSystem J} {s t : AuditState J} {c : EmitCall J}

theorem AuditState.setEmit_ne (s : AuditState J) (phase : EmitPhase J) (h : k ≠ i) :
    (s.setEmit i phase).emits k = s.emits k := Function.update_of_ne h ..

theorem AuditState.setRelay_self (s : AuditState J) (j : ℕ) (phase : RelayPhase J) :
    (s.setRelay j phase).relays j = phase := Function.update_self ..

theorem AuditState.setRelay_ne (s : AuditState J) {j : ℕ} (phase : RelayPhase J) (h : k ≠ j) :
    (s.setRelay j phase).relays k = s.relays k := Function.update_of_ne h ..

theorem AuditState.setProbe_self (s : AuditState J) (k : ℕ) (phase : ProbePhase) :
    (s.setProbe k phase).probes k = phase := Function.update_self ..

theorem AuditState.setProbe_ne (s : AuditState J) {l : ℕ} (phase : ProbePhase) (h : l ≠ k) :
    (s.setProbe k phase).probes l = s.probes l := Function.update_of_ne h ..

/-- A row whose move fails for another reason. -/
def RowFate.orFailed (fate : RowFate) : Option String → RowFate
  | some error => match fate with
    | .move => .failed error
    | fate => fate
  | none => fate

/-- What a step does. -/
def AuditSystem.Step (S : AuditSystem J) (s : AuditState J) : AuditAction J → AuditState J → Prop
  | .emitBegin i, t => s.emits i = .start ∧ t = s.setEmit i ((S.emit i).begin S.hash s.db)
  | .emitSelectFeed i, t => s.emits i = .outboxMissed ∧ t = s.setEmit i ((S.emit i).selectFeed S.hash s.db)
  | .emitInsert i enqueuedAt, t => s.emits i = .feedMissed ∧
      t = { s with db := ((S.emit i).insert S.hash s.db enqueuedAt).1 }.setEmit i
        ((S.emit i).insert S.hash s.db enqueuedAt).2
  | .emitRollback i, t => s.emits i = .feedMissed ∧ t = s.setEmit i (.ended (.error .rolledBack))
  | .relaySelect j batch, t => s.relays j = .start ∧ IsBatch s.db.outbox (S.batchSize j) batch ∧
      t = s.setRelay j (.running batch [])
  | .relayRow j failure, t => ∃ row todo writes, s.relays j = .running (row :: todo) writes ∧
      t = s.setRelay j (.running todo (writes ++ [(row, (rowFate S.hash s.db.feed row).orFailed failure)]))
  | .relayCommit j, t => ∃ writes db, s.relays j = .running [] writes ∧
      applyFates (S.relayNow j) s.db writes = some db ∧
      t = { s with db := db }.setRelay j (.ended (some (relayedCount writes)))
  | .relayRollback j, t => (∃ todo writes, s.relays j = .running todo writes) ∧ t = s.setRelay j (.ended none)
  | .probeOutbox k, t => s.probes k = .start ∧
      t = s.setProbe k (if (s.db.outbox.get? (S.probe k)).isSome then .ended true else .outboxMissed)
  | .probeFeed k, t => s.probes k = .outboxMissed ∧
      t = s.setProbe k (.ended (s.db.feed.get? (S.probe k)).isSome)

/-- The calls, from any two tables. -/
def AuditSystem.lts (S : AuditSystem J) : Lts (AuditState J) (AuditAction J) where
  init s := (∀ i, s.emits i = .start) ∧ (∀ j, s.relays j = .start) ∧ ∀ k, s.probes k = .start
  step := S.Step

/-! ### What stays -/

/-- The operation id is in one of the tables. -/
def AuditDb.Present (db : AuditDb J) (o : String) : Prop :=
  (db.outbox.get? o).isSome ∨ (db.feed.get? o).isSome

/-- A change that loses no operation id and no event of the feed, and gives no old id to
another row. -/
structure AuditDb.Keeps (db db' : AuditDb J) : Prop where
  present : ∀ o, db.Present o → db'.Present o
  feed : ∀ o, (db.feed.get? o).isSome → (db'.feed.get? o).isSome
  nextId : db.nextId ≤ db'.nextId
  rows : ∀ r' ∈ db'.outbox.rows, r'.id < db.nextId →
    ∃ r ∈ db.outbox.rows, r.id = r'.id ∧ r.operationId = r'.operationId

theorem AuditDb.Keeps.refl (db : AuditDb J) : db.Keeps db :=
  ⟨fun _ h => h, fun _ h => h, Nat.le_refl _, fun r hr _ => ⟨r, hr, rfl, rfl⟩⟩

theorem AuditDb.Keeps.trans {a b c : AuditDb J} (h : a.Keeps b) (h' : b.Keeps c) : a.Keeps c where
  present o ho := h'.present o (h.present o ho)
  feed o ho := h'.feed o (h.feed o ho)
  nextId := h.nextId.trans h'.nextId
  rows r hr hlt := by
    obtain ⟨r₁, hr₁, hid₁, ho₁⟩ := h'.rows r hr (hlt.trans_le h.nextId)
    obtain ⟨r₂, hr₂, hid₂, ho₂⟩ := h.rows r₁ hr₁ (hid₁ ▸ hlt)
    exact ⟨r₂, hr₂, hid₂.trans hid₁, ho₂.trans ho₁⟩

theorem insertRow?_keeps {db : AuditDb J} {hid : row.id = db.nextId} (h : db.insertRow? row hid = some db') :
    db.Keeps db' ∧ db'.outbox.get? row.operationId = some row ∧ db'.feed = db.feed := by
  unfold AuditDb.insertRow? at h
  split at h
  · cases h
  · next outbox hinsert =>
    cases h
    have hrows := Keyed.rows_insert? hinsert
    refine ⟨⟨fun o ho => ?_, fun o ho => ho, Nat.le_succ _, fun r hr hlt => ?_⟩, ?_, rfl⟩
    · rcases ho with ho | ho
      · obtain ⟨r, hr⟩ := Option.isSome_iff_exists.mp ho
        exact .inl (Option.isSome_iff_exists.mpr ⟨r, Keyed.get?_insert? hinsert hr⟩)
      · exact .inr ho
    · rw [hrows] at hr
      rcases List.mem_append.mp hr with hr | hr
      · exact ⟨r, hr, rfl, rfl⟩
      · rw [List.mem_singleton.mp hr, hid] at hlt
        exact absurd hlt (Nat.lt_irrefl _)
    · exact Keyed.get?_key (by rw [hrows]; simp)

theorem markAttempt?_keeps {db : AuditDb J} {id : ℕ} {now : ℤ} {error : String}
    (h : db.markAttempt? id now error = some db') : db.Keeps db' := by
  unfold AuditDb.markAttempt? at h
  split at h
  · cases h
    refine ⟨fun o ho => ?_, fun o ho => ho, Nat.le_refl _, fun r hr _ => ?_⟩
    · rcases ho with ho | ho
      · refine .inl ?_
        rw [Keyed.get?_update (operationId_markAttempt · now error)]
        simpa using ho
      · exact .inr ho
    · obtain ⟨r', hr', rfl⟩ := List.mem_map.mp hr
      refine ⟨r', hr', ?_⟩
      split <;> exact ⟨rfl, rfl⟩
  · cases h

/-- The row with the id of `row`, if there is one, has its operation id; no later row gets the id. -/
structure AuditDb.Knows (db : AuditDb J) (row : AuditOutboxEvent J) : Prop where
  lt : row.id < db.nextId
  operationId : ∀ r ∈ db.outbox.rows, r.id = row.id → r.operationId = row.operationId

theorem AuditDb.Keeps.knows {db : AuditDb J} (h : db.Keeps db') (hr : db.Knows row) : db'.Knows row where
  lt := hr.lt.trans_le h.nextId
  operationId r' hr' hid := by
    obtain ⟨r, hmem, hid', ho⟩ := h.rows r' hr' (hid ▸ hr.lt)
    rw [← ho]
    exact hr.operationId r hmem (hid'.trans hid)

theorem AuditDb.knows_of_mem {db : AuditDb J} (h : row ∈ db.outbox.rows) : db.Knows row where
  lt := db.id_lt row h
  operationId r hr hid := by rw [List.inj_on_of_nodup_map db.id_nodup hr h hid]

/-- A row may be deleted when the feed has its operation id. -/
theorem deleteRow_keeps {db : AuditDb J} (hknows : db.Knows row)
    (hfeed : (db.feed.get? row.operationId).isSome) : db.Keeps (db.deleteRow row.id) := by
  refine ⟨fun o ho => ?_, fun o ho => ho, Nat.le_refl _, fun r hr _ => ⟨r, List.mem_of_mem_filter hr, rfl, rfl⟩⟩
  rcases ho with ho | ho
  · obtain ⟨r, hr⟩ := Option.isSome_iff_exists.mp ho
    by_cases hid : r.id = row.id
    · obtain ⟨hmem, rfl⟩ := Keyed.get?_eq_some.mp hr
      exact .inr (hknows.operationId r hmem hid ▸ hfeed)
    · exact .inl (Option.isSome_iff_exists.mpr ⟨r, Keyed.get?_delete hr (by simp [hid])⟩)
  · exact .inr ho

theorem insertFeed_keeps {db : AuditDb J} {feed : Keyed (AuditEvent.operationId (J := J))}
    (h : db.feed.insert? e = some feed) : db.Keeps { db with feed := feed } := by
  have hkept : ∀ o, (db.feed.get? o).isSome → (feed.get? o).isSome := by
    intro o ho
    obtain ⟨e', he'⟩ := Option.isSome_iff_exists.mp ho
    exact Option.isSome_iff_exists.mpr ⟨e', Keyed.get?_insert? h he'⟩
  exact ⟨fun o ho => ho.imp_right (hkept o), hkept, Nat.le_refl _, fun r hr _ => ⟨r, hr, rfl, rfl⟩⟩

/-! ### What a relay writes -/

/-- What a relay may write of a row: one that it drops is in the feed. -/
structure Sound (db : AuditDb J) (w : AuditOutboxEvent J × RowFate) : Prop where
  knows : db.Knows w.1
  drop : w.2 = .drop → (db.feed.get? w.1.operationId).isSome

theorem AuditDb.Keeps.sound {db : AuditDb J} (h : db.Keeps db') {w : AuditOutboxEvent J × RowFate}
    (hw : Sound db w) : Sound db' w :=
  ⟨h.knows hw.knows, fun hdrop => h.feed _ (hw.drop hdrop)⟩

theorem applyFate_keeps {now : ℤ} {db : AuditDb J} {w : AuditOutboxEvent J × RowFate} (hw : Sound db w)
    (h : applyFate now db w = some db') : db.Keeps db' := by
  obtain ⟨row, fate⟩ := w
  cases fate with
  | conflict feedHash outboxHash => exact markAttempt?_keeps h
  | drop =>
    obtain rfl := Option.some.inj h
    exact deleteRow_keeps hw.knows (hw.drop rfl)
  | move =>
    obtain ⟨feed, hinsert, rfl⟩ := Option.map_eq_some_iff.mp h
    have hkeeps := insertFeed_keeps hinsert
    refine hkeeps.trans (deleteRow_keeps (hkeeps.knows hw.knows) ?_)
    have hmem : row.event ∈ feed.rows := by
      rw [Keyed.rows_insert? hinsert]
      simp
    exact Option.isSome_iff_exists.mpr ⟨row.event, Keyed.get?_key hmem⟩
  | failed error => exact markAttempt?_keeps h

/-- **A relay loses nothing.** -/
theorem applyFates_keeps {now : ℤ} {db : AuditDb J} {writes : List (AuditOutboxEvent J × RowFate)}
    (hw : ∀ w ∈ writes, Sound db w) (h : applyFates now db writes = some db') : db.Keeps db' := by
  induction writes generalizing db with
  | nil =>
    obtain rfl := Option.some.inj h
    exact .refl db
  | cons w writes ih =>
    simp only [applyFates, List.foldlM_cons, Option.bind_eq_bind, Option.bind_eq_some_iff] at h
    obtain ⟨db₁, h₁, h⟩ := h
    have hkeeps := applyFate_keeps (hw w (by simp)) h₁
    exact hkeeps.trans (ih (fun w' hw' => hkeeps.sound (hw w' (by simp [hw']))) h)

theorem rowFate_drop {feed : Keyed (AuditEvent.operationId (J := J))}
    {failure : Option String} (h : (rowFate hash feed row).orFailed failure = .drop) :
    (feed.get? row.operationId).isSome := by
  cases hget : feed.get? row.operationId with
  | some e => rfl
  | none =>
    have hmove : rowFate hash feed row = .move := by simp [rowFate, hget]
    rw [hmove] at h
    cases failure <;> cases h

/-! ### What every state keeps -/

/-- The invariant of the calls. -/
structure AuditInv (S : AuditSystem J) (s : AuditState J) : Prop where
  todo : ∀ j todo writes, s.relays j = .running todo writes → ∀ row ∈ todo, s.db.Knows row
  writes : ∀ j todo writes, s.relays j = .running todo writes → ∀ w ∈ writes, Sound s.db w
  emitted : ∀ i e, s.emits i = .ended (.ok e) → s.db.Present (S.emit i).operationId

/-- **A step loses no operation id.** -/
theorem step_keeps (hinv : AuditInv S s) (h : S.Step s a t) : s.db.Keeps t.db := by
  cases a with
  | emitInsert i enqueuedAt =>
    obtain ⟨-, rfl⟩ := h
    unfold EmitCall.insert
    split
    · next db' hinsert => exact (insertRow?_keeps hinsert).1
    · exact .refl _
  | relayCommit j =>
    obtain ⟨writes, db, hrun, happly, rfl⟩ := h
    exact applyFates_keeps (hinv.writes j [] writes hrun) happly
  | relayRow j failure =>
    obtain ⟨row, todo, writes, -, rfl⟩ := h
    exact .refl _
  | relaySelect j batch =>
    obtain ⟨-, -, rfl⟩ := h
    exact .refl _
  | _ =>
    obtain ⟨-, rfl⟩ := h
    exact .refl _

theorem begin_ok {db : AuditDb J} (h : c.begin hash db = .ended (.ok e)) : db.Present c.operationId := by
  unfold EmitCall.begin at h
  split at h
  · cases h
  · split at h
    · next row hrow => exact .inl (by rw [hrow]; rfl)
    · cases h

theorem selectFeed_ok {db : AuditDb J} (h : c.selectFeed hash db = .ended (.ok e)) : db.Present c.operationId := by
  unfold EmitCall.selectFeed at h
  split at h
  · next stored hstored => exact .inr (by rw [hstored]; rfl)
  · cases h

theorem insert_ok {db : AuditDb J} {enqueuedAt : ℤ}
    (h : (c.insert hash db enqueuedAt).2 = .ended (.ok e)) : (c.insert hash db enqueuedAt).1.Present c.operationId := by
  unfold EmitCall.insert at h ⊢
  split at h
  · next db' hinsert => exact .inl (Option.isSome_iff_exists.mpr ⟨_, (insertRow?_keeps hinsert).2.1⟩)
  · cases h

/-- What a step makes of a relay that is running afterwards: it selects, it checks a row, or it
is another call's step. -/
theorem relays_step (h : S.Step s a t) {j : ℕ}
    {todo : List (AuditOutboxEvent J)} {writes : List (AuditOutboxEvent J × RowFate)}
    (hj : t.relays j = .running todo writes) :
    s.relays j = .running todo writes ∨ (writes = [] ∧ ∀ row ∈ todo, row ∈ s.db.outbox.rows) ∨
      ∃ row before failure, s.relays j = .running (row :: todo) before ∧
        writes = before ++ [(row, (rowFate S.hash s.db.feed row).orFailed failure)] := by
  cases a with
  | relaySelect k batch =>
    obtain ⟨-, hbatch, rfl⟩ := h
    by_cases hjk : j = k
    · subst hjk
      rw [AuditState.setRelay_self] at hj
      cases hj
      exact .inr (.inl ⟨rfl, hbatch.subset⟩)
    · rw [AuditState.setRelay_ne _ _ hjk] at hj
      exact .inl hj
  | relayRow k failure =>
    obtain ⟨row, todo', before, hk, rfl⟩ := h
    by_cases hjk : j = k
    · subst hjk
      rw [AuditState.setRelay_self] at hj
      cases hj
      exact .inr (.inr ⟨row, before, failure, hk, rfl⟩)
    · rw [AuditState.setRelay_ne _ _ hjk] at hj
      exact .inl hj
  | relayCommit k =>
    obtain ⟨before, db, -, -, rfl⟩ := h
    by_cases hjk : j = k
    · subst hjk
      rw [AuditState.setRelay_self] at hj
      cases hj
    · rw [AuditState.setRelay_ne _ _ hjk] at hj
      exact .inl hj
  | relayRollback k =>
    obtain ⟨-, rfl⟩ := h
    by_cases hjk : j = k
    · subst hjk
      rw [AuditState.setRelay_self] at hj
      cases hj
    · rw [AuditState.setRelay_ne _ _ hjk] at hj
      exact .inl hj
  | _ =>
    obtain ⟨-, rfl⟩ := h
    exact .inl hj

/-- An emit that has returned after a step returned before it, or its operation id is there. -/
theorem emits_step (h : S.Step s a t) (hi : t.emits i = .ended (.ok e)) :
    s.emits i = .ended (.ok e) ∨ t.db.Present (S.emit i).operationId := by
  cases a with
  | emitBegin k =>
    obtain ⟨-, rfl⟩ := h
    by_cases hik : i = k
    · subst hik
      rw [AuditState.setEmit_self] at hi
      exact .inr (begin_ok hi)
    · rw [AuditState.setEmit_ne _ _ hik] at hi
      exact .inl hi
  | emitSelectFeed k =>
    obtain ⟨-, rfl⟩ := h
    by_cases hik : i = k
    · subst hik
      rw [AuditState.setEmit_self] at hi
      exact .inr (selectFeed_ok hi)
    · rw [AuditState.setEmit_ne _ _ hik] at hi
      exact .inl hi
  | emitInsert k enqueuedAt =>
    obtain ⟨-, rfl⟩ := h
    by_cases hik : i = k
    · subst hik
      rw [AuditState.setEmit_self] at hi
      exact .inr (insert_ok hi)
    · rw [AuditState.setEmit_ne _ _ hik] at hi
      exact .inl hi
  | emitRollback k =>
    obtain ⟨-, rfl⟩ := h
    by_cases hik : i = k
    · subst hik
      rw [AuditState.setEmit_self] at hi
      cases hi
    · rw [AuditState.setEmit_ne _ _ hik] at hi
      exact .inl hi
  | relayRow j failure =>
    obtain ⟨row, todo, writes, -, rfl⟩ := h
    exact .inl hi
  | relayCommit j =>
    obtain ⟨writes, db, -, -, rfl⟩ := h
    exact .inl hi
  | relaySelect j batch =>
    obtain ⟨-, -, rfl⟩ := h
    exact .inl hi
  | _ =>
    obtain ⟨-, rfl⟩ := h
    exact .inl hi

theorem AuditInv.step (hinv : AuditInv S s) (h : S.Step s a t) : AuditInv S t := by
  have hkeeps := step_keeps hinv h
  refine ⟨fun j todo writes hj row hrow => ?_, fun j todo writes hj w hw => ?_, fun i e hi => ?_⟩
  · refine hkeeps.knows ?_
    obtain hs | ⟨-, hmem⟩ | ⟨row', before, failure, hs, -⟩ := relays_step h hj
    · exact hinv.todo j todo writes hs row hrow
    · exact AuditDb.knows_of_mem (hmem row hrow)
    · exact hinv.todo j (row' :: todo) before hs row (by simp [hrow])
  · refine hkeeps.sound ?_
    obtain hs | ⟨rfl, -⟩ | ⟨row, before, failure, hs, rfl⟩ := relays_step h hj
    · exact hinv.writes j todo writes hs w hw
    · cases hw
    · rcases List.mem_append.mp hw with hw | hw
      · exact hinv.writes j (row :: todo) before hs w hw
      · rw [List.mem_singleton.mp hw]
        exact ⟨hinv.todo j (row :: todo) before hs row (by simp), rowFate_drop⟩
  · rcases emits_step h hi with hs | hp
    · exact hkeeps.present _ (hinv.emitted i e hs)
    · exact hp

/-- **Every state keeps the invariant.** -/
theorem auditInv (h : S.lts.Reachable s) : AuditInv S s := by
  refine h.induct (P := AuditInv S) (fun s₀ h₀ => ?_) fun s a t _ hinv hstep => hinv.step hstep
  obtain ⟨hemits, hrelays, -⟩ := h₀
  refine ⟨fun j todo writes hj => ?_, fun j todo writes hj => ?_, fun i e hi => ?_⟩
  · rw [hrelays] at hj
    cases hj
  · rw [hrelays] at hj
    cases hj
  · rw [hemits] at hi
    cases hi

/-- **A run loses no operation id.** -/
theorem keeps_run {S : AuditSystem J} {s t : AuditState J} {as : List (AuditAction J)} (hinv : AuditInv S s)
    (h : S.lts.Run s as t) : s.db.Keeps t.db := by
  have hboth : AuditInv S t ∧ s.db.Keeps t.db :=
    h.keeps (P := fun u => AuditInv S u ∧ s.db.Keeps u.db)
      (fun _ _ _ hu hstep => ⟨hu.1.step hstep, hu.2.trans (step_keeps hu.1 hstep)⟩) ⟨hinv, .refl _⟩
  exact hboth.2

/-! ### Emits and probes that begin late -/

/-- The emit an action belongs to. -/
def AuditAction.emitter : AuditAction J → Option ℕ
  | .emitBegin i | .emitSelectFeed i | .emitInsert i _ | .emitRollback i => some i
  | _ => none

/-- An emit that writes no more: it is over, or the feed has its event. -/
def Late (S : AuditSystem J) (i : ℕ) (s : AuditState J) : Prop :=
  (s.emits i = .outboxMissed ∧ (s.db.feed.get? (S.emit i).operationId).isSome) ∨ ∃ r, s.emits i = .ended r

/-- A probe that will not miss: it has found the id, or the feed has it. -/
def WillFind (S : AuditSystem J) (k : ℕ) (s : AuditState J) : Prop :=
  (s.probes k = .outboxMissed ∧ (s.db.feed.get? (S.probe k)).isSome) ∨ s.probes k = .ended true

theorem late_begin (hp : s.db.Present (S.emit i).operationId) (h : S.Step s (.emitBegin i) t) : Late S i t := by
  obtain ⟨-, rfl⟩ := h
  simp only [Late, AuditState.setEmit_self]
  unfold EmitCall.begin
  split
  · exact .inr ⟨_, rfl⟩
  · split
    · exact .inr ⟨_, rfl⟩
    · next hnone => exact .inl ⟨rfl, hp.resolve_left (by simp [hnone])⟩

theorem willFind_begin (hp : s.db.Present (S.probe k)) (h : S.Step s (.probeOutbox k) t) : WillFind S k t := by
  obtain ⟨-, rfl⟩ := h
  simp only [WillFind, AuditState.setProbe_self]
  split
  · exact .inr rfl
  · next hnone => exact .inl ⟨rfl, hp.resolve_left hnone⟩

theorem Late.of_eq (h : Late S i s) (hkeeps : s.db.Keeps t.db) (heq : t.emits i = s.emits i) : Late S i t := by
  rcases h with ⟨hi, hfeed⟩ | ⟨r, hi⟩
  · exact .inl ⟨heq.trans hi, hkeeps.feed _ hfeed⟩
  · exact .inr ⟨r, heq.trans hi⟩

/-- A late emit stays late, and its steps write nothing. -/
theorem Late.step (h : Late S i s)
    (hinv : AuditInv S s) (hstep : S.Step s a t) : Late S i t ∧ (a.emitter = some i → t.db = s.db) := by
  have hkeeps := step_keeps hinv hstep
  by_cases ha : a.emitter = some i
  · cases a with
    | emitBegin k =>
      obtain rfl : k = i := Option.some.inj ha
      obtain ⟨hstart, -⟩ := hstep
      rcases h with ⟨hi, -⟩ | ⟨r, hi⟩ <;> rw [hstart] at hi <;> cases hi
    | emitSelectFeed k =>
      obtain rfl : k = i := Option.some.inj ha
      obtain ⟨hmissed, rfl⟩ := hstep
      refine ⟨.inr ?_, fun _ => rfl⟩
      rw [AuditState.setEmit_self]
      rcases h with ⟨-, hfeed⟩ | ⟨r, hi⟩
      · obtain ⟨stored, hstored⟩ := Option.isSome_iff_exists.mp hfeed
        exact ⟨(S.emit k).existing S.hash "feed" stored ((S.emit k).event S.hash), by
          simp [EmitCall.selectFeed, hstored]⟩
      · rw [hmissed] at hi
        cases hi
    | emitInsert k enqueuedAt =>
      obtain rfl : k = i := Option.some.inj ha
      obtain ⟨hready, -⟩ := hstep
      rcases h with ⟨hi, -⟩ | ⟨r, hi⟩ <;> rw [hready] at hi <;> cases hi
    | emitRollback k =>
      obtain rfl : k = i := Option.some.inj ha
      obtain ⟨hready, -⟩ := hstep
      rcases h with ⟨hi, -⟩ | ⟨r, hi⟩ <;> rw [hready] at hi <;> cases hi
    | _ => cases ha
  · refine ⟨h.of_eq hkeeps ?_, fun hi => absurd hi ha⟩
    cases a with
    | emitBegin k | emitSelectFeed k | emitInsert k enqueuedAt | emitRollback k =>
      have hik : i ≠ k := fun hik => ha (by rw [hik]; rfl)
      obtain ⟨-, rfl⟩ := hstep
      exact AuditState.setEmit_ne _ _ hik
    | relayRow j failure =>
      obtain ⟨row, todo, writes, -, rfl⟩ := hstep
      rfl
    | relayCommit j =>
      obtain ⟨writes, db, -, -, rfl⟩ := hstep
      rfl
    | relaySelect j batch =>
      obtain ⟨-, -, rfl⟩ := hstep
      rfl
    | relayRollback j | probeOutbox k | probeFeed k =>
      obtain ⟨-, rfl⟩ := hstep
      rfl

theorem WillFind.step (h : WillFind S k s) (hinv : AuditInv S s) (hstep : S.Step s a t) : WillFind S k t := by
  have hkeeps := step_keeps hinv hstep
  have hsame : t.probes k = s.probes k → WillFind S k t := by
    intro heq
    rcases h with ⟨hk, hfeed⟩ | hk
    · exact .inl ⟨heq.trans hk, hkeeps.feed _ hfeed⟩
    · exact .inr (heq.trans hk)
  cases a with
  | probeOutbox l =>
    obtain ⟨hstart, rfl⟩ := hstep
    refine hsame (AuditState.setProbe_ne _ _ ?_)
    rintro rfl
    rcases h with ⟨hk, -⟩ | hk <;> rw [hstart] at hk <;> cases hk
  | probeFeed l =>
    obtain ⟨hmissed, rfl⟩ := hstep
    by_cases hkl : k = l
    · subst hkl
      rcases h with ⟨-, hfeed⟩ | hk
      · exact .inr (by rw [AuditState.setProbe_self, hfeed])
      · rw [hmissed] at hk
        cases hk
    · exact hsame (AuditState.setProbe_ne _ _ hkl)
  | relayRow j failure =>
    obtain ⟨row, todo, writes, -, rfl⟩ := hstep
    exact hsame rfl
  | relayCommit j =>
    obtain ⟨writes, db, -, -, rfl⟩ := hstep
    exact hsame rfl
  | relaySelect j batch =>
    obtain ⟨-, -, rfl⟩ := hstep
    exact hsame rfl
  | _ =>
    obtain ⟨-, rfl⟩ := hstep
    exact hsame rfl

/-- **The guarantees of emits, relays and probes**, in any interleaving of their statements.
An operation id is at most once in each table. It is in one of them from the first emit that
returns on, through every run. An emit that begins later writes nothing, whatever comes
between its steps, and a probe that begins later finds it. -/
theorem audit_guarantees (S : AuditSystem J) (s : AuditState J) (h : S.lts.Reachable s) :
    ((s.db.outbox.rows.map (·.operationId)).Nodup ∧ (s.db.feed.rows.map (·.operationId)).Nodup) ∧
    (∀ i e, s.emits i = .ended (.ok e) → s.db.Present (S.emit i).operationId) ∧
    (∀ o, s.db.Present o → ∀ as t, S.lts.Run s as t → t.db.Present o) ∧
    (∀ i t, s.db.Present (S.emit i).operationId → S.Step s (.emitBegin i) t →
      t.db = s.db ∧ ∀ as u, S.lts.Run t as u → ∀ a v, a.emitter = some i → S.Step u a v → v.db = u.db) ∧
    (∀ k t, s.db.Present (S.probe k) → S.Step s (.probeOutbox k) t →
      ∀ as u, S.lts.Run t as u → u.probes k ≠ .ended false) := by
  have hinv := auditInv h
  refine ⟨⟨s.db.outbox.nodup, s.db.feed.nodup⟩, hinv.emitted, fun o ho as t hrun => (keeps_run hinv hrun).present o ho,
    fun i t hp hstep => ⟨?_, fun as u hrun a v ha hv => ?_⟩, fun k t hp hstep as u hrun hfalse => ?_⟩
  · obtain ⟨-, rfl⟩ := hstep
    rfl
  · have hu := hrun.keeps (P := fun w => AuditInv S w ∧ Late S i w)
      (fun _ _ _ hw hs => ⟨hw.1.step hs, (hw.2.step hw.1 hs).1⟩) ⟨hinv.step hstep, late_begin hp hstep⟩
    exact (hu.2.step hu.1 hv).2 ha
  · have hu := hrun.keeps (P := fun w => AuditInv S w ∧ WillFind S k w)
      (fun _ _ _ hw hs => ⟨hw.1.step hs, hw.2.step hw.1 hs⟩) ⟨hinv.step hstep, willFind_begin hp hstep⟩
    rcases hu.2 with ⟨hk, -⟩ | hk <;> rw [hfalse] at hk <;> cases hk

/-! ### An emit and a relay -/

def exampleEmit : EmitCall String where
  operationId := "op"
  tenantId := "t"
  userId := none
  source := "среда"
  entityType := "task"
  entityId := none
  action := "created"
  payload := none
  causedBy := none
  occurredAt := 0

/-- Calls with the same operation id, and relays of one row. -/
def exampleAudit : AuditSystem String where
  hash := id
  emit _ := exampleEmit
  batchSize _ := 1
  relayNow _ := 2
  probe _ := "op"

def emptyAudit : AuditState String where
  db := ⟨.empty, .empty, 0, .nil, by simp⟩
  emits _ := .start
  relays _ := .start
  probes _ := .start

/-- The first emit is about to insert. -/
def readyAudit : AuditState String := (emptyAudit.setEmit 0 .outboxMissed).setEmit 0 .feedMissed

/-- It has returned. -/
def emittedAudit : AuditState String :=
  { readyAudit with db := (exampleEmit.insert id readyAudit.db 1).1 }.setEmit 0
    (exampleEmit.insert id readyAudit.db 1).2

theorem emittedAudit_reachable : exampleAudit.lts.Reachable emittedAudit := by
  have h₀ : exampleAudit.lts.init emptyAudit := ⟨fun _ => rfl, fun _ => rfl, fun _ => rfl⟩
  have h₁ : exampleAudit.lts.step emptyAudit (.emitBegin 0) (emptyAudit.setEmit 0 .outboxMissed) := ⟨rfl, rfl⟩
  have h₂ : exampleAudit.lts.step (emptyAudit.setEmit 0 .outboxMissed) (.emitSelectFeed 0) readyAudit := ⟨rfl, rfl⟩
  have h₃ : exampleAudit.lts.step readyAudit (.emitInsert 0 1) emittedAudit := ⟨rfl, rfl⟩
  exact ((((Lts.Hist.init h₀).snoc h₁).snoc h₂).snoc h₃).reachable

/-- A relay has taken the row, and has found that it may move it. -/
def relayingAudit : AuditState String :=
  (emittedAudit.setRelay 0 (.running emittedAudit.db.outbox.rows [])).setRelay 0
    (.running [] (emittedAudit.db.outbox.rows.map fun row => (row, .move)))

/-- It has moved it. -/
def movedAudit : AuditState String :=
  { relayingAudit with
    db := (applyFates 2 relayingAudit.db (emittedAudit.db.outbox.rows.map fun row => (row, .move))).getD
      relayingAudit.db }.setRelay 0 (.ended (some 1))

theorem emittedAudit_run : ∃ as, exampleAudit.lts.Run emittedAudit as movedAudit := by
  have hbatch : IsBatch emittedAudit.db.outbox 1 emittedAudit.db.outbox.rows :=
    ⟨emittedAudit.db.outbox.nodup.of_map, fun _ h => h, rfl, List.pairwise_singleton .., fun _ h hnot => absurd h hnot⟩
  have h₁ : exampleAudit.lts.step emittedAudit (.relaySelect 0 emittedAudit.db.outbox.rows)
      (emittedAudit.setRelay 0 (.running emittedAudit.db.outbox.rows [])) := ⟨rfl, hbatch, rfl⟩
  have h₂ : exampleAudit.lts.step (emittedAudit.setRelay 0 (.running emittedAudit.db.outbox.rows []))
      (.relayRow 0 none) relayingAudit := ⟨_, _, _, rfl, rfl⟩
  have h₃ : exampleAudit.lts.step relayingAudit (.relayCommit 0) movedAudit := ⟨_, _, rfl, rfl, rfl⟩
  exact ⟨_, ((Lts.Run.single h₁).snoc h₂).snoc h₃⟩

theorem audit_guarantees_movedAudit :
    movedAudit.db.outbox.rows.length = 0 ∧ movedAudit.db.feed.rows.map (·.operationId) = ["op"] ∧
      movedAudit.db.Present "op" := by
  obtain ⟨as, hrun⟩ := emittedAudit_run
  exact ⟨rfl, rfl, (audit_guarantees exampleAudit emittedAudit emittedAudit_reachable).2.2.1 "op" (.inl rfl) as movedAudit hrun⟩

end Sreda.Services
