import Mathlib.Data.List.MinMax
import Mathlib.Data.String.Basic
import Sreda.Lib.Keyed

/-!
# The checkpoint saver

`EncryptedSqlCheckpointSaver` (`runtime/react_checkpoint_saver.py`): checkpoints with their pending writes, each value as the
type and the blob that `serde.dumps_typed` has made of it. What `dumps_typed` and the clock give is given to a call, and
`loads_typed` is a parameter that gives nothing when it raises. Each call is one transaction; row-level security is left out.

## What is proved

* over any sequence of calls a write with a non-negative index keeps the first row that was written, and one with a negative
  index the last value that was written since `clear_pending`; a repeated `put_writes` changes no value; and `get_tuple` does
  not raise if and only if every pending write of the checkpoint that it finds can be loaded, or the checkpoint cannot
  (`checkpoint_saver`). `unreadable_write` is a write that cannot be loaded.
-/

namespace Sreda.React

open Sreda.Lib

/-! ### The tables -/

/-- `ReactCheckpoint`. -/
structure CheckpointRow (β : Type) where
  threadId : String
  checkpointNs : String
  checkpointId : String
  parentCheckpointId : Option String
  checkpointType : String
  blob : β
  metadataType : String
  metadata : β
  tenantId : Option String
  createdAt : ℤ

def CheckpointRow.key {β : Type} (row : CheckpointRow β) : String × String × String :=
  (row.threadId, row.checkpointNs, row.checkpointId)

/-- The key of a `ReactCheckpointWrite`. -/
structure WriteKey where
  threadId : String
  checkpointNs : String
  checkpointId : String
  taskId : String
  idx : ℤ
  deriving DecidableEq

/-- A write of a checkpoint. -/
def WriteKey.isOf (key : WriteKey) (threadId checkpointNs checkpointId : String) : Bool :=
  key.threadId = threadId ∧ key.checkpointNs = checkpointNs ∧ key.checkpointId = checkpointId

/-- `ReactCheckpointWrite`. -/
structure WriteRow (β : Type) where
  key : WriteKey
  channel : String
  writeType : String
  blob : β
  taskPath : String
  tenantId : Option String
  createdAt : ℤ

structure SaverTables (β : Type) where
  checkpoints : Keyed (CheckpointRow.key (β := β))
  writes : Keyed (WriteRow.key (β := β))

/-- What `put_writes` stores under a key. -/
def WriteRow.value {β : Type} (row : WriteRow β) : String × String × β × String :=
  (row.channel, row.writeType, row.blob, row.taskPath)

/-- The `configurable` of a config. -/
structure CheckpointConfig where
  threadId : String
  checkpointNs : String
  checkpointId : Option String
  deriving DecidableEq

/-- A value of `put_writes`, dumped. -/
structure DumpedWrite (β : Type) where
  channel : String
  writeType : String
  blob : β
  createdAt : ℤ

/-- `CheckpointTuple`. -/
structure CheckpointTuple (ν : Type) where
  config : CheckpointConfig
  checkpoint : ν
  metadata : ν
  parentConfig : Option CheckpointConfig
  pendingWrites : List (String × String × ν)

/-- The errors of the saver. -/
inductive SaverError where
  | tenantMismatch (threadId existing tenant : String)
  | notLoaded

/-! ### The calls -/

/-- The text of an identifier that there is. -/
def truthyId (id : Option String) : Option String := id.filter (· ≠ "")

namespace SaverTables

variable {β ν : Type} (t : SaverTables β)

/-- `_existing_thread_owner`. -/
def existingThreadOwner (threadId : String) : Option String :=
  t.checkpoints.rows.findSome? fun row => if row.threadId = threadId then row.tenantId else none

/-- `_tenant_for_write`. -/
def tenantForWrite (ctx : Option String) (threadId : String) : Except SaverError (Option String) :=
  match ctx with
  | none => .ok none
  | some tenant =>
    match t.existingThreadOwner threadId with
    | none => .ok (some tenant)
    | some existing => if existing ≠ tenant then .error (.tenantMismatch threadId existing tenant) else .ok (some tenant)

/-- `put`. -/
def put (ctx : Option String) (config : CheckpointConfig) (checkpointId : String) (checkpoint metadata : String × β) (now : ℤ) :
    Except SaverError (SaverTables β × CheckpointConfig) := do
  let tenantId ← t.tenantForWrite ctx config.threadId
  let row : CheckpointRow β :=
    ⟨config.threadId, config.checkpointNs, checkpointId, config.checkpointId, checkpoint.1, checkpoint.2, metadata.1,
      metadata.2, tenantId, now⟩
  return ({ t with
    checkpoints := t.checkpoints.insertOnConflict row
      (fun old => { old with
        parentCheckpointId := row.parentCheckpointId, checkpointType := row.checkpointType, blob := row.blob,
        metadataType := row.metadataType, metadata := row.metadata, tenantId := tenantId.or old.tenantId })
      fun _ => rfl },
    ⟨config.threadId, config.checkpointNs, some checkpointId⟩)

/-- A write: one with a non-negative index is not overwritten. -/
def putWrite (row : WriteRow β) : SaverTables β :=
  { t with
    writes :=
      if 0 ≤ row.key.idx then t.writes.insertOnConflict row id fun _ => rfl
      else
        t.writes.insertOnConflict row
          (fun old => { old with
            channel := row.channel, writeType := row.writeType, blob := row.blob, taskPath := row.taskPath,
            tenantId := row.tenantId.or old.tenantId })
          fun _ => rfl }

/-- The rows of `put_writes`. -/
def writeRows (writesIdxMap : String → Option ℤ) (tenantId : Option String) (threadId checkpointNs checkpointId taskId taskPath : String)
    (writes : List (DumpedWrite β)) : List (WriteRow β) :=
  writes.zipIdx.map fun (write, i) =>
    ⟨⟨threadId, checkpointNs, checkpointId, taskId, (writesIdxMap write.channel).getD i⟩, write.channel, write.writeType,
      write.blob, taskPath, tenantId, write.createdAt⟩

/-- The last checkpoint of a thread: `ORDER BY checkpoint_id DESC LIMIT 1`. -/
def lastCheckpoint (threadId checkpointNs : String) : Option (CheckpointRow β) :=
  (t.checkpoints.rows.filter fun row => row.threadId = threadId ∧ row.checkpointNs = checkpointNs).argmax (·.checkpointId)

/-- The deletion of `clear_pending`. -/
def clearWrites (threadId checkpointNs checkpointId : String) : SaverTables β :=
  { t with writes := t.writes.delete fun row => row.key.isOf threadId checkpointNs checkpointId && row.key.idx < 0 }

/-- The row that `get_tuple` finds. -/
def findCheckpoint (config : CheckpointConfig) : Option (CheckpointRow β) :=
  match truthyId config.checkpointId with
  | some checkpointId => t.checkpoints.get? (config.threadId, config.checkpointNs, checkpointId)
  | none => t.lastCheckpoint config.threadId config.checkpointNs

/-- The pending writes of a checkpoint: `ORDER BY task_id, idx`. -/
def pendingRows (row : CheckpointRow β) : List (WriteRow β) :=
  (t.writes.rows.filter (·.key.isOf row.threadId row.checkpointNs row.checkpointId)).mergeSort fun a b =>
    a.key.taskId < b.key.taskId || a.key.taskId = b.key.taskId && a.key.idx ≤ b.key.idx

/-- `_row_to_tuple`. -/
def rowToTuple (loadsTyped : String → β → Option ν) (row : CheckpointRow β) : Except SaverError (Option (CheckpointTuple ν)) :=
  match loadsTyped row.checkpointType row.blob, loadsTyped row.metadataType row.metadata with
  | some checkpoint, some metadata =>
    -- behind the `try`
    match (t.pendingRows row).mapM fun write =>
      (loadsTyped write.writeType write.blob).map fun value => (write.key.taskId, write.channel, value) with
    | none => .error .notLoaded
    | some pendingWrites =>
      .ok (some {
        config := ⟨row.threadId, row.checkpointNs, some row.checkpointId⟩
        checkpoint, metadata
        parentConfig := (truthyId row.parentCheckpointId).map fun parent => ⟨row.threadId, row.checkpointNs, some parent⟩
        pendingWrites })
  | _, _ => .ok none

/-- `get_tuple`. -/
def getTuple (loadsTyped : String → β → Option ν) (config : CheckpointConfig) : Except SaverError (Option (CheckpointTuple ν)) :=
  match t.findCheckpoint config with
  | none => .ok none
  | some row => t.rowToTuple loadsTyped row

end SaverTables

/-- A call; `ctx` is the tenant of its context. -/
inductive SaverCall (β : Type) where
  | put (ctx : Option String) (config : CheckpointConfig) (checkpointId : String) (checkpoint metadata : String × β) (now : ℤ)
  | putWrites (ctx : Option String) (threadId checkpointNs checkpointId : String) (writes : List (DumpedWrite β))
      (taskId taskPath : String)
  | getTuple (config : CheckpointConfig)
  | clearPending (threadId checkpointNs : String)

namespace SaverTables

variable {β : Type} (writesIdxMap : String → Option ℤ) (t : SaverTables β)

/-- The tables after a call; a call that raises leaves them. -/
def call : SaverCall β → SaverTables β
  | .put ctx config checkpointId checkpoint metadata now =>
    match t.put ctx config checkpointId checkpoint metadata now with
    | .ok (t', _) => t'
    | .error _ => t
  | .putWrites ctx threadId checkpointNs checkpointId writes taskId taskPath =>
    match t.tenantForWrite ctx threadId with
    | .ok tenantId =>
      (writeRows writesIdxMap tenantId threadId checkpointNs checkpointId taskId taskPath writes).foldl putWrite t
    | .error _ => t
  | .getTuple _ => t
  | .clearPending threadId checkpointNs =>
    match t.lastCheckpoint threadId checkpointNs with
    | none => t
    | some row => t.clearWrites threadId checkpointNs row.checkpointId

/-- A sequence of calls. -/
def run (calls : List (SaverCall β)) : SaverTables β := calls.foldl (call writesIdxMap) t

end SaverTables

/-! ### What happens to the writes -/

/-- What a call does to the writes, row by row. -/
inductive SaverEvent (β : Type) where
  | written (row : WriteRow β)
  | cleared (threadId checkpointNs checkpointId : String)

namespace SaverEvent

variable {β : Type}

/-- The row that an event writes under a key. -/
def writtenAt (key : WriteKey) : SaverEvent β → Option (WriteRow β)
  | .written row => if row.key = key then some row else none
  | .cleared .. => none

/-- What an event says about a key with a negative index: it is written, or cleared, or neither. -/
def saysAt (key : WriteKey) : SaverEvent β → Option (Option (WriteRow β))
  | .written row => if row.key = key then some (some row) else none
  | .cleared threadId checkpointNs checkpointId => if key.isOf threadId checkpointNs checkpointId then some none else none

/-- The writes after an event. -/
def apply (writes : Keyed (WriteRow.key (β := β))) : SaverEvent β → Keyed (WriteRow.key (β := β))
  | .written row => (SaverTables.putWrite ⟨.empty, writes⟩ row).writes
  | .cleared threadId checkpointNs checkpointId =>
    (SaverTables.clearWrites ⟨.empty, writes⟩ threadId checkpointNs checkpointId).writes

/-- **The first row stays** under a non-negative index. -/
theorem get?_apply_of_nonneg {key : WriteKey} (hidx : 0 ≤ key.idx) (writes : Keyed (WriteRow.key (β := β))) (event : SaverEvent β) :
    (event.apply writes).get? key = (writes.get? key).or (event.writtenAt key) := by
  cases event with
  | written row =>
    simp only [apply, SaverTables.putWrite, writtenAt]
    by_cases hrow : 0 ≤ row.key.idx
    · rw [if_pos hrow, Keyed.get?_insertOnConflict]
      by_cases hkey : row.key = key
      · rw [if_pos hkey.symm, if_pos hkey]
        cases writes.get? key <;> rfl
      · rw [if_neg (Ne.symm hkey), if_neg hkey, Option.or_none]
    · have hkey : row.key ≠ key := fun heq => hrow (heq ▸ hidx)
      rw [if_neg hrow, Keyed.get?_insertOnConflict, if_neg (Ne.symm hkey), if_neg hkey, Option.or_none]
  | cleared threadId checkpointNs checkpointId =>
    simp only [apply, SaverTables.clearWrites, writtenAt]
    rw [Keyed.get?_delete_eq, Option.or_none]
    cases hget : writes.get? key with
    | none => rfl
    | some row =>
      obtain ⟨-, rfl⟩ := Keyed.get?_eq_some.mp hget
      simp [not_lt.mpr hidx]

/-- **The last value stands** under a negative index. -/
theorem get?_apply_of_neg {key : WriteKey} (hidx : key.idx < 0) (writes : Keyed (WriteRow.key (β := β))) (event : SaverEvent β) :
    ((event.apply writes).get? key).map WriteRow.value =
      ((event.saysAt key).getD (writes.get? key)).map WriteRow.value := by
  cases event with
  | written row =>
    simp only [apply, SaverTables.putWrite, saysAt]
    by_cases hkey : row.key = key
    · have hrow : ¬ 0 ≤ row.key.idx := by
        rw [hkey]
        omega
      rw [if_neg hrow, if_pos hkey, Keyed.get?_insertOnConflict, if_pos hkey.symm]
      cases writes.get? key <;> rfl
    · rw [if_neg hkey]
      split
      · rw [Keyed.get?_insertOnConflict, if_neg (Ne.symm hkey)]
        rfl
      · rw [Keyed.get?_insertOnConflict, if_neg (Ne.symm hkey)]
        rfl
  | cleared threadId checkpointNs checkpointId =>
    simp only [apply, SaverTables.clearWrites, saysAt]
    rw [Keyed.get?_delete_eq]
    cases hget : writes.get? key with
    | none => split <;> rfl
    | some row =>
      obtain ⟨-, rfl⟩ := Keyed.get?_eq_some.mp hget
      split
      · next hof => simp [hof, hidx]
      · next hof => simp [hof]

/-- The first row under a key, over a list of events. -/
theorem get?_foldl_of_nonneg {key : WriteKey} (hidx : 0 ≤ key.idx) (writes : Keyed (WriteRow.key (β := β)))
    (events : List (SaverEvent β)) :
    (events.foldl apply writes).get? key = (writes.get? key).or (events.findSome? (writtenAt key)) := by
  induction events generalizing writes with
  | nil => rw [List.foldl_nil, List.findSome?_nil, Option.or_none]
  | cons event events ih =>
    rw [List.foldl_cons, ih, get?_apply_of_nonneg hidx, Option.or_assoc, List.findSome?_cons]
    cases event.writtenAt key <;> rfl

/-- The last value under a key, over a list of events. -/
theorem get?_foldl_of_neg {key : WriteKey} (hidx : key.idx < 0) (writes : Keyed (WriteRow.key (β := β)))
    (events : List (SaverEvent β)) :
    ((events.foldl apply writes).get? key).map WriteRow.value =
      ((events.reverse.findSome? (saysAt key)).getD (writes.get? key)).map WriteRow.value := by
  induction events using List.reverseRecOn with
  | nil => rfl
  | append_singleton events event ih =>
    rw [List.foldl_append, List.foldl_cons, List.foldl_nil, get?_apply_of_neg hidx, List.reverse_append, List.reverse_singleton,
      List.singleton_append, List.findSome?_cons]
    cases event.saysAt key with
    | none => exact ih
    | some said => rfl

end SaverEvent

namespace SaverTables

variable {β : Type} (writesIdxMap : String → Option ℤ) (t : SaverTables β)

/-- The events of a call. -/
def events : SaverCall β → List (SaverEvent β)
  | .put .. | .getTuple _ => []
  | .putWrites ctx threadId checkpointNs checkpointId writes taskId taskPath =>
    match t.tenantForWrite ctx threadId with
    | .ok tenantId =>
      (writeRows writesIdxMap tenantId threadId checkpointNs checkpointId taskId taskPath writes).map .written
    | .error _ => []
  | .clearPending threadId checkpointNs =>
    match t.lastCheckpoint threadId checkpointNs with
    | none => []
    | some row => [.cleared threadId checkpointNs row.checkpointId]

/-- The events of a sequence of calls. -/
def log : SaverTables β → List (SaverCall β) → List (SaverEvent β)
  | _, [] => []
  | t, c :: calls => t.events writesIdxMap c ++ log (t.call writesIdxMap c) calls

variable {writesIdxMap t}

theorem writes_foldl_putWrite (rows : List (WriteRow β)) :
    (rows.foldl putWrite t).writes = (rows.map SaverEvent.written).foldl SaverEvent.apply t.writes ∧
      (rows.foldl putWrite t).checkpoints = t.checkpoints := by
  induction rows generalizing t with
  | nil => exact ⟨rfl, rfl⟩
  | cons row rows ih =>
    obtain ⟨hwrites, hcheckpoints⟩ := ih (t := t.putWrite row)
    exact ⟨hwrites, hcheckpoints⟩

/-- **A call** does its events to the writes. -/
theorem writes_call (c : SaverCall β) :
    (t.call writesIdxMap c).writes = (t.events writesIdxMap c).foldl SaverEvent.apply t.writes := by
  cases c with
  | put ctx config checkpointId checkpoint metadata now =>
    simp only [call, events, List.foldl_nil]
    unfold put
    cases t.tenantForWrite ctx config.threadId <;> rfl
  | putWrites ctx threadId checkpointNs checkpointId writes taskId taskPath =>
    simp only [call, events]
    cases t.tenantForWrite ctx threadId with
    | ok tenantId => exact (writes_foldl_putWrite _).1
    | error e => rfl
  | getTuple config => rfl
  | clearPending threadId checkpointNs =>
    simp only [call, events]
    cases t.lastCheckpoint threadId checkpointNs <;> rfl

/-- **A sequence of calls**. -/
theorem writes_run (calls : List (SaverCall β)) :
    (t.run writesIdxMap calls).writes = (t.log writesIdxMap calls).foldl SaverEvent.apply t.writes := by
  induction calls generalizing t with
  | nil => rfl
  | cons c calls ih =>
    rw [log, List.foldl_append, ← writes_call]
    exact ih

/-- A repeated `put_writes` has the same events. -/
theorem events_call_putWrites (ctx : Option String) (threadId checkpointNs checkpointId : String)
    (writes : List (DumpedWrite β)) (taskId taskPath : String) :
    (t.call writesIdxMap (.putWrites ctx threadId checkpointNs checkpointId writes taskId taskPath)).events writesIdxMap
        (.putWrites ctx threadId checkpointNs checkpointId writes taskId taskPath) =
      t.events writesIdxMap (.putWrites ctx threadId checkpointNs checkpointId writes taskId taskPath) := by
  have htenant : (t.call writesIdxMap (.putWrites ctx threadId checkpointNs checkpointId writes taskId taskPath)).tenantForWrite
      ctx threadId = t.tenantForWrite ctx threadId := by
    have hcheckpoints : (t.call writesIdxMap
        (.putWrites ctx threadId checkpointNs checkpointId writes taskId taskPath)).checkpoints = t.checkpoints := by
      simp only [call]
      cases t.tenantForWrite ctx threadId with
      | ok tenantId => exact (writes_foldl_putWrite _).2
      | error e => rfl
    unfold tenantForWrite existingThreadOwner
    rw [hcheckpoints]
  simp only [events, htenant]

/-! ### What `get_tuple` can load -/

variable {ν : Type} {loadsTyped : String → β → Option ν}

/-- The pending writes of the checkpoint that is found can be loaded, or it cannot. -/
def Readable (t : SaverTables β) (loadsTyped : String → β → Option ν) (config : CheckpointConfig) : Prop :=
  ∀ row ∈ t.findCheckpoint config, (loadsTyped row.checkpointType row.blob).isSome →
    (loadsTyped row.metadataType row.metadata).isSome →
    ∀ write ∈ t.writes.rows, write.key.isOf row.threadId row.checkpointNs row.checkpointId →
      (loadsTyped write.writeType write.blob).isSome

theorem mapM_isSome_iff {α γ : Type} {f : α → Option γ} {l : List α} : (l.mapM f).isSome ↔ ∀ a ∈ l, (f a).isSome := by
  induction l with
  | nil => simp
  | cons a l ih =>
    rw [List.mapM_cons, List.forall_mem_cons, ← ih]
    cases f a with
    | none => simp
    | some b => cases l.mapM f <;> simp

theorem rowToTuple_ok_iff {row : CheckpointRow β} :
    (∃ found, t.rowToTuple loadsTyped row = .ok found) ↔
      ((loadsTyped row.checkpointType row.blob).isSome → (loadsTyped row.metadataType row.metadata).isSome →
        ∀ write ∈ t.writes.rows, write.key.isOf row.threadId row.checkpointNs row.checkpointId →
          (loadsTyped write.writeType write.blob).isSome) := by
  unfold rowToTuple
  cases loadsTyped row.checkpointType row.blob with
  | none => exact ⟨(fun _ h => by cases h), fun _ => ⟨none, rfl⟩⟩
  | some checkpoint =>
    cases loadsTyped row.metadataType row.metadata with
    | none => exact ⟨(fun _ _ h => by cases h), fun _ => ⟨none, rfl⟩⟩
    | some metadata =>
      have hpending : ((t.pendingRows row).mapM fun write =>
          (loadsTyped write.writeType write.blob).map fun value => (write.key.taskId, write.channel, value)).isSome ↔
          ∀ write ∈ t.writes.rows, write.key.isOf row.threadId row.checkpointNs row.checkpointId →
            (loadsTyped write.writeType write.blob).isSome := by
        rw [mapM_isSome_iff]
        simp only [pendingRows, List.mem_mergeSort, List.mem_filter, Option.isSome_map, and_imp]
      simp only [Option.isSome_some, forall_const, ← hpending]
      cases (t.pendingRows row).mapM fun write =>
          (loadsTyped write.writeType write.blob).map fun value => (write.key.taskId, write.channel, value) with
      | none => exact ⟨(fun ⟨_, h⟩ => by cases h), fun h => by cases h⟩
      | some pendingWrites => exact ⟨fun _ => rfl, fun _ => ⟨_, rfl⟩⟩

theorem getTuple_ok_iff {config : CheckpointConfig} :
    (∃ found, t.getTuple loadsTyped config = .ok found) ↔ t.Readable loadsTyped config := by
  unfold getTuple Readable
  cases t.findCheckpoint config with
  | none => exact ⟨(fun _ _ h => by cases h), fun _ => ⟨none, rfl⟩⟩
  | some row =>
    simp only [Option.mem_def, Option.some.injEq, forall_eq']
    exact rowToTuple_ok_iff

end SaverTables

/-- **The checkpoint saver**: what the writes keep over any sequence of calls, and when `get_tuple` does not raise. -/
theorem checkpoint_saver {β ν : Type} (writesIdxMap : String → Option ℤ) (loadsTyped : String → β → Option ν) (t : SaverTables β) :
    (∀ calls (key : WriteKey), 0 ≤ key.idx →
      (t.run writesIdxMap calls).writes.get? key =
        (t.writes.get? key).or ((t.log writesIdxMap calls).findSome? (SaverEvent.writtenAt key))) ∧
    (∀ calls (key : WriteKey), key.idx < 0 →
      ((t.run writesIdxMap calls).writes.get? key).map WriteRow.value =
        (((t.log writesIdxMap calls).reverse.findSome? (SaverEvent.saysAt key)).getD (t.writes.get? key)).map WriteRow.value) ∧
    (∀ ctx threadId checkpointNs checkpointId writes taskId taskPath (key : WriteKey),
      ((t.run writesIdxMap (List.replicate 2
          (.putWrites ctx threadId checkpointNs checkpointId writes taskId taskPath))).writes.get? key).map WriteRow.value =
        ((t.run writesIdxMap [.putWrites ctx threadId checkpointNs checkpointId writes taskId taskPath]).writes.get? key).map
          WriteRow.value) ∧
    (∀ calls config, (∃ found, (t.run writesIdxMap calls).getTuple loadsTyped config = .ok found) ↔
      (t.run writesIdxMap calls).Readable loadsTyped config) := by
  refine ⟨fun calls key hidx => ?_, fun calls key hidx => ?_, ?_, fun calls config => SaverTables.getTuple_ok_iff⟩
  · rw [SaverTables.writes_run, SaverEvent.get?_foldl_of_nonneg hidx]
  · rw [SaverTables.writes_run, SaverEvent.get?_foldl_of_neg hidx]
  · intro ctx threadId checkpointNs checkpointId writes taskId taskPath key
    rw [SaverTables.writes_run, SaverTables.writes_run]
    simp only [List.replicate, SaverTables.log, List.append_nil, SaverTables.events_call_putWrites]
    generalize t.events writesIdxMap _ = events
    rcases le_or_gt 0 key.idx with hidx | hidx
    · rw [SaverEvent.get?_foldl_of_nonneg hidx, SaverEvent.get?_foldl_of_nonneg hidx, List.findSome?_append, Option.or_self]
    · rw [SaverEvent.get?_foldl_of_neg hidx, SaverEvent.get?_foldl_of_neg hidx, List.reverse_append, List.findSome?_append,
        Option.or_self]

/-- A checkpoint that can be loaded, with a write that cannot. -/
def brokenWrite : SaverTables (Option ℕ) where
  checkpoints := ⟨[⟨"t", "", "1", none, "msgpack", some 1, "msgpack", some 2, none, 0⟩], by decide⟩
  writes := ⟨[⟨⟨"t", "", "1", "task", 0⟩, "messages", "msgpack", none, "", none, 0⟩], by decide⟩

/-- **A write that cannot be loaded**: `get_tuple` raises. -/
theorem unreadable_write :
    ¬ ∃ found, (brokenWrite.run (fun _ => none) []).getTuple (fun _ blob => blob) ⟨"t", "", none⟩ = .ok found := by
  rw [SaverTables.getTuple_ok_iff]
  intro hreadable
  have hrow : brokenWrite.findCheckpoint ⟨"t", "", none⟩ =
      some ⟨"t", "", "1", none, "msgpack", some 1, "msgpack", some 2, none, 0⟩ := rfl
  have hload := hreadable _ hrow rfl rfl _ List.mem_cons_self (by decide)
  cases hload

end Sreda.React
