import Mathlib.Data.String.Basic
import Sreda.Lib.Latest
import Sreda.Services.AuditRelay

/-!
# The recent events of a tenant

`read_recent_events` of `services/audit_feed.py` reads the feed and the outbox, so that an event is found whether the relay has
moved it or not. Each `SELECT` takes the last `limit` rows of its table by `(occurred_at, id)`; the rows of both are merged, a row
of the feed before one of the outbox with its operation id, and the last `limit` by `(occurred_at, operation_id)` are returned.

Among events of one time the two orders differ: the cut of a table may drop an event that is among the last of the union.

## What is proved

* a relay pass keeps the union of the tables, the feed before the outbox (`union_relay`);
* what is read before and after a relay pass is the same list, the last events of the union, iff neither table cuts an event that
  is among these, before the pass and after it (`read_recent_events`).
-/

namespace Sreda.Services

open Sreda.Lib

universe u

variable {J : Type u}

/-! ### The read -/

/-- The dict of an event. -/
structure RecentEvent (J : Type u) where
  operationId : String
  tenantId : String
  userId : Option String
  source : String
  entityType : String
  entityId : Option String
  action : String
  payload : Option J
  causedBy : Option J
  occurredAt : ℤ

def AuditEvent.recent (e : AuditEvent J) : RecentEvent J :=
  ⟨e.operationId, e.tenantId, e.userId, e.source, e.entityType, e.entityId, e.action, e.payload, e.causedBy, e.occurredAt⟩

/-- The key of the final sort. -/
def RecentEvent.key (e : RecentEvent J) : ℤ ×ₗ String := toLex (e.occurredAt, e.operationId)

/-- The rows of the feed with their ids, which count up. -/
def AuditDb.feedRows (db : AuditDb J) : List (AuditEvent J × ℕ) := db.feed.rows.zipIdx

/-- The rows of the outbox with their ids. -/
def AuditDb.outboxRows (db : AuditDb J) : List (AuditEvent J × ℕ) := db.outbox.rows.map fun row => (row.event, row.id)

/-- What `ORDER BY` of the `SELECT`s compares. -/
def rowKey (row : AuditEvent J × ℕ) : ℤ ×ₗ ℕ := toLex (row.1.occurredAt, row.2)

/-- `WHERE tenant_id = … AND occurred_at >= …`. -/
def window (tenantId : String) (since : ℤ) (rows : List (AuditEvent J × ℕ)) : List (AuditEvent J × ℕ) :=
  rows.filter fun row => row.1.tenantId = tenantId ∧ since ≤ row.1.occurredAt

/-- The `SELECT` of a table: the last rows, the newest first. -/
def selectRecent (tenantId : String) (since : ℤ) (limit : ℕ) (rows : List (AuditEvent J × ℕ)) : List (AuditEvent J) :=
  ((lastOf rowKey limit (window tenantId since rows)).map (·.1)).reverse

/-- The loop over the rows of both tables; `seen` are the operation ids so far. -/
def mergeRows (seen : List String) : List (AuditEvent J) → List (RecentEvent J)
  | [] => []
  | row :: rows =>
    if row.operationId ∈ seen then mergeRows seen rows
    else row.recent :: mergeRows (row.operationId :: seen) rows

/-- `merged[-limit:]`, where `-0` is `0`. -/
def lastSlice {α : Type u} (limit : ℕ) (l : List α) : List α := if limit = 0 then l else l.drop (l.length - limit)

/-- `read_recent_events`. -/
def readRecentEvents (tenantId : String) (since : ℤ) (limit : ℕ) (db : AuditDb J) : List (RecentEvent J) :=
  lastSlice limit
    ((mergeRows [] (selectRecent tenantId since limit db.feedRows ++ selectRecent tenantId since limit db.outboxRows)).insertionSort
      fun a b => a.key ≤ b.key)

/-! ### The union of the tables -/

/-- The rows of both tables; a row of the feed stands for that of the outbox with its operation id. -/
def unionRows (feed outbox : List (AuditEvent J × ℕ)) : List (AuditEvent J × ℕ) :=
  feed ++ outbox.filter fun row => ∀ other ∈ feed, other.1.operationId ≠ row.1.operationId

/-- The events of the union in the window. -/
def unionEvents (tenantId : String) (since : ℤ) (feed outbox : List (AuditEvent J × ℕ)) : List (RecentEvent J) :=
  (window tenantId since (unionRows feed outbox)).map (·.1.recent)

/-- The last events of the union, whatever table they are in. -/
def lastEvents (tenantId : String) (since : ℤ) (limit : ℕ) (db : AuditDb J) : List (RecentEvent J) :=
  lastOf RecentEvent.key limit (unionEvents tenantId since db.feedRows db.outboxRows)

/-- The table does not cut the row: fewer than `limit` rows of its window come after it. -/
def Selected (tenantId : String) (since : ℤ) (limit : ℕ) (rows : List (AuditEvent J × ℕ)) (row : AuditEvent J × ℕ) : Prop :=
  row ∈ window tenantId since rows ∧ (window tenantId since rows).countP (fun other => rowKey row < rowKey other) < limit

/-- The event gets into the merged list. -/
def Merged (tenantId : String) (since : ℤ) (limit : ℕ) (feed outbox : List (AuditEvent J × ℕ)) (e : RecentEvent J) : Prop :=
  (∃ row, Selected tenantId since limit feed row ∧ row.1.recent = e) ∨
  ∃ row, Selected tenantId since limit outbox row ∧ row.1.recent = e ∧
    ∀ other, Selected tenantId since limit feed other → other.1.operationId ≠ row.1.operationId

/-- The number of events of the union that come after an event. -/
def later (tenantId : String) (since : ℤ) (feed outbox : List (AuditEvent J × ℕ)) (e : RecentEvent J) : ℕ :=
  (unionEvents tenantId since feed outbox).countP fun other => e.key < other.key

/-- **No table cuts an event that counts**: an event of the union with fewer than `limit` after it gets into the merged list, and
what gets there in the place of an event of the feed has `limit` after it. -/
structure Uncut (tenantId : String) (since : ℤ) (limit : ℕ) (feed outbox : List (AuditEvent J × ℕ)) : Prop where
  last : ∀ e ∈ unionEvents tenantId since feed outbox, later tenantId since feed outbox e < limit →
    Merged tenantId since limit feed outbox e
  stale : ∀ e, Merged tenantId since limit feed outbox e → e ∉ unionEvents tenantId since feed outbox →
    limit ≤ later tenantId since feed outbox e

/-! ### A relay pass -/

/-- What a relay pass makes of its batch; the insertion of a row may raise. -/
def relayWrites (hash : J → String) (db : AuditDb J) (batch : List (AuditOutboxEvent J)) (failure : AuditOutboxEvent J → Option String) :
    List (AuditOutboxEvent J × RowFate) :=
  batch.map fun row => (row, (rowFate hash db.feed row).orFailed (failure row))

/-- A pass of `relay_outbox` and its commit. -/
def RelayPass (hash : J → String) (batchSize : ℕ) (now : ℤ) (batch : List (AuditOutboxEvent J))
    (failure : AuditOutboxEvent J → Option String) (db db' : AuditDb J) : Prop :=
  IsBatch db.outbox batchSize batch ∧ applyFates now db (relayWrites hash db batch failure) = some db'

/-- The row is inserted into the feed. -/
def RowFate.moves : RowFate → Bool
  | .move => true
  | _ => false

theorem RowFate.relayed_of_moves : ∀ {fate : RowFate}, fate.moves → fate.relayed
  | .move, _ => rfl

/-- The events that the writes insert into the feed. -/
def movedEvents (writes : List (AuditOutboxEvent J × RowFate)) : List (AuditEvent J) :=
  (writes.filter (·.2.moves)).map (·.1.event)

/-- The feed after the writes. -/
def feedAfter (writes : List (AuditOutboxEvent J × RowFate)) (db : AuditDb J) : List (AuditEvent J × ℕ) :=
  (db.feed.rows ++ movedEvents writes).zipIdx

/-- The outbox after the writes. -/
def outboxAfter (writes : List (AuditOutboxEvent J × RowFate)) (db : AuditDb J) : List (AuditEvent J × ℕ) :=
  db.outboxRows.filter fun row => ∀ write ∈ writes, write.2.relayed → write.1.id ≠ row.2

/-! ### What is read -/

theorem nodup_map_key {l : List (RecentEvent J)} (h : (l.map (·.operationId)).Nodup) : (l.map RecentEvent.key).Nodup := by
  refine List.pairwise_map.mpr ((List.pairwise_map.mp h).imp fun hne heq => hne ?_)
  exact congrArg (fun key : ℤ ×ₗ String => (ofLex key).2) heq

theorem nodup_map_rowKey {rows : List (AuditEvent J × ℕ)} (h : (rows.map (·.2)).Nodup) : (rows.map rowKey).Nodup := by
  refine List.pairwise_map.mpr ((List.pairwise_map.mp h).imp fun hne heq => hne ?_)
  exact congrArg (fun key : ℤ ×ₗ ℕ => (ofLex key).2) heq

theorem ids_feedRows (db : AuditDb J) : (db.feedRows.map (·.2)).Nodup := by
  rw [AuditDb.feedRows, List.zipIdx_map_snd]
  exact List.nodup_range' _

theorem ids_outboxRows (db : AuditDb J) : (db.outboxRows.map (·.2)).Nodup := by
  rw [AuditDb.outboxRows, List.map_map]
  exact db.id_nodup

theorem operationIds_feedRows (db : AuditDb J) : (db.feedRows.map (·.1.operationId)).Nodup := by
  have hrows : db.feedRows.map (·.1) = db.feed.rows := List.zipIdx_map_fst ..
  have hmap : db.feedRows.map (·.1.operationId) = (db.feedRows.map (·.1)).map (·.operationId) := List.map_map.symm
  rw [hmap, hrows]
  exact db.feed.nodup

theorem operationIds_outboxRows (db : AuditDb J) : (db.outboxRows.map (·.1.operationId)).Nodup := by
  rw [AuditDb.outboxRows, List.map_map]
  exact db.outbox.nodup

section Read

variable {tenantId : String} {since : ℤ} {limit : ℕ} {feed outbox rows : List (AuditEvent J × ℕ)}

theorem nodup_window {β : Type*} {g : AuditEvent J × ℕ → β} (h : (rows.map g).Nodup) :
    ((window tenantId since rows).map g).Nodup := h.sublist (List.filter_sublist.map _)

/-- **The rows of a `SELECT`.** -/
theorem mem_selectRecent (h : (rows.map (·.2)).Nodup) {e : AuditEvent J} :
    e ∈ selectRecent tenantId since limit rows ↔ ∃ row, Selected tenantId since limit rows row ∧ row.1 = e := by
  rw [selectRecent, List.mem_reverse, List.mem_map]
  refine exists_congr fun row => and_congr_left fun _ => ?_
  exact mem_lastOf (nodup_map_rowKey (nodup_window h))

theorem nodup_selectRecent (h : (rows.map (·.1.operationId)).Nodup) :
    ((selectRecent tenantId since limit rows).map (·.operationId)).Nodup := by
  rw [selectRecent, List.map_reverse, List.nodup_reverse, List.map_map]
  have hsorted := ((List.perm_insertionSort (fun a b => rowKey a ≤ rowKey b) (window tenantId since rows)).map
    (·.1.operationId)).nodup_iff.mpr (nodup_window h)
  exact hsorted.sublist ((lastOf_sublist _ _ _).map _)

/-- Rows that were not seen before are all kept. -/
theorem mergeRows_append {seen : List String} {l l' : List (AuditEvent J)} (hnodup : (l.map (·.operationId)).Nodup)
    (hfresh : ∀ e ∈ l, e.operationId ∉ seen) :
    ∃ seen', (∀ o, o ∈ seen' ↔ o ∈ l.map (·.operationId) ∨ o ∈ seen) ∧
      mergeRows seen (l ++ l') = l.map (·.recent) ++ mergeRows seen' l' := by
  induction l generalizing seen with
  | nil => exact ⟨seen, by simp, rfl⟩
  | cons e l ih =>
    obtain ⟨hnot, hnodup'⟩ := List.nodup_cons.mp hnodup
    obtain ⟨hhead, htail⟩ := List.forall_mem_cons.mp hfresh
    have hfresh' : ∀ other ∈ l, other.operationId ∉ e.operationId :: seen := by
      intro other hother hmem
      rcases List.mem_cons.mp hmem with heq | hmem
      · exact hnot (List.mem_map.mpr ⟨other, hother, heq⟩)
      · exact htail other hother hmem
    obtain ⟨seen', hseen', hmerge⟩ := ih hnodup' hfresh'
    refine ⟨seen', fun o => ?_, ?_⟩
    · rw [hseen', List.map_cons, List.mem_cons, List.mem_cons]
      tauto
    · rw [List.cons_append, mergeRows, if_neg hhead, hmerge]
      rfl

/-- Of other rows those stay whose operation id was not seen. -/
theorem mergeRows_filter {seen : List String} {l : List (AuditEvent J)} (hnodup : (l.map (·.operationId)).Nodup) :
    mergeRows seen l = (l.filter fun e => e.operationId ∉ seen).map (·.recent) := by
  induction l generalizing seen with
  | nil => rfl
  | cons e l ih =>
    obtain ⟨hnot, hnodup'⟩ := List.nodup_cons.mp hnodup
    rw [mergeRows]
    by_cases hseen : e.operationId ∈ seen
    · rw [if_pos hseen, ih hnodup', List.filter_cons_of_neg (by simpa using hseen)]
    · rw [if_neg hseen, ih hnodup', List.filter_cons_of_pos (by simpa using hseen), List.map_cons]
      refine congrArg (_ :: ·) (congrArg _ (List.filter_congr fun other hother => ?_))
      have hne : other.operationId ≠ e.operationId := fun heq => hnot (List.mem_map.mpr ⟨other, hother, heq⟩)
      simp [hne]

/-- The merged list: the rows of the feed, and those of the outbox with other operation ids. -/
theorem mergeRows_eq {l l' : List (AuditEvent J)} (hnodup : (l.map (·.operationId)).Nodup)
    (hnodup' : (l'.map (·.operationId)).Nodup) :
    mergeRows [] (l ++ l') =
      (l ++ l'.filter fun e => ∀ other ∈ l, other.operationId ≠ e.operationId).map (·.recent) := by
  have hfresh : ∀ e ∈ l, e.operationId ∉ ([] : List String) := fun _ _ => List.not_mem_nil
  obtain ⟨seen, hseen, hmerge⟩ := @mergeRows_append _ _ l l' hnodup hfresh
  rw [hmerge, mergeRows_filter hnodup', List.map_append]
  refine congrArg (_ ++ ·) (congrArg _ (List.filter_congr fun e _ => ?_))
  rw [decide_eq_decide, hseen, List.mem_map]
  constructor
  · intro hnot other hother heq
    exact hnot (.inl ⟨other, hother, heq⟩)
  · rintro hall (⟨other, hother, heq⟩ | hnil)
    · exact hall other hother heq
    · cases hnil

theorem mem_unionEvents {e : RecentEvent J} :
    e ∈ unionEvents tenantId since feed outbox ↔ ∃ row ∈ window tenantId since (unionRows feed outbox), row.1.recent = e :=
  List.mem_map

/-- The operation ids of the union are distinct. -/
theorem nodup_unionEvents (hfeed : (feed.map (·.1.operationId)).Nodup) (houtbox : (outbox.map (·.1.operationId)).Nodup) :
    ((unionEvents tenantId since feed outbox).map (·.operationId)).Nodup := by
  have hunion : ((unionRows feed outbox).map (·.1.operationId)).Nodup := by
    rw [unionRows, List.map_append, List.nodup_append]
    refine ⟨hfeed, houtbox.sublist (List.filter_sublist.map _), fun o ho o' ho' heq => ?_⟩
    obtain ⟨row, hrow, rfl⟩ := List.mem_map.mp ho
    obtain ⟨row', hrow', rfl⟩ := List.mem_map.mp ho'
    exact of_decide_eq_true (List.mem_filter.mp hrow').2 row hrow heq
  rw [unionEvents, List.map_map]
  exact nodup_window hunion

end Read

/-- **What gets into the merged list.** -/
theorem mem_mergeRows (tenantId : String) (since : ℤ) (limit : ℕ) (db : AuditDb J) (e : RecentEvent J) :
    e ∈ mergeRows [] (selectRecent tenantId since limit db.feedRows ++ selectRecent tenantId since limit db.outboxRows) ↔
      Merged tenantId since limit db.feedRows db.outboxRows e := by
  rw [mergeRows_eq (nodup_selectRecent (operationIds_feedRows db)) (nodup_selectRecent (operationIds_outboxRows db)), List.mem_map]
  simp only [List.mem_append, List.mem_filter, decide_eq_true_eq, mem_selectRecent (ids_feedRows db),
    mem_selectRecent (ids_outboxRows db)]
  constructor
  · rintro ⟨_, ⟨row, hrow, rfl⟩ | ⟨⟨row, hrow, rfl⟩, hfresh⟩, rfl⟩
    · exact .inl ⟨row, hrow, rfl⟩
    · exact .inr ⟨row, hrow, rfl, fun other hother => hfresh _ ⟨other, hother, rfl⟩⟩
  · rintro (⟨row, hrow, rfl⟩ | ⟨row, hrow, rfl, hfresh⟩)
    · exact ⟨_, .inl ⟨row, hrow, rfl⟩, rfl⟩
    · refine ⟨_, .inr ⟨⟨row, hrow, rfl⟩, ?_⟩, rfl⟩
      rintro _ ⟨other, hother, rfl⟩
      exact hfresh other hother

theorem nodup_mergeRows (tenantId : String) (since : ℤ) (limit : ℕ) (db : AuditDb J) :
    ((mergeRows [] (selectRecent tenantId since limit db.feedRows ++ selectRecent tenantId since limit db.outboxRows)).map
      RecentEvent.key).Nodup := by
  have hfeed : ((selectRecent tenantId since limit db.feedRows).map (·.operationId)).Nodup :=
    nodup_selectRecent (operationIds_feedRows db)
  have houtbox : ((selectRecent tenantId since limit db.outboxRows).map (·.operationId)).Nodup :=
    nodup_selectRecent (operationIds_outboxRows db)
  refine nodup_map_key ?_
  rw [mergeRows_eq hfeed houtbox, List.map_map]
  change List.Nodup (List.map AuditEvent.operationId _)
  rw [List.map_append, List.nodup_append]
  refine ⟨hfeed, houtbox.sublist (List.filter_sublist.map _), fun o ho o' ho' heq => ?_⟩
  obtain ⟨e, he, rfl⟩ := List.mem_map.mp ho
  obtain ⟨e', he', rfl⟩ := List.mem_map.mp ho'
  exact of_decide_eq_true (List.mem_filter.mp he').2 e he heq

/-- The slice is what the last events of the merged list are: with a limit of 0 the list is empty. -/
theorem readRecentEvents_eq (tenantId : String) (since : ℤ) (limit : ℕ) (db : AuditDb J) :
    readRecentEvents tenantId since limit db = lastOf RecentEvent.key limit
      (mergeRows [] (selectRecent tenantId since limit db.feedRows ++ selectRecent tenantId since limit db.outboxRows)) := by
  rw [readRecentEvents, lastSlice]
  split
  · next hzero =>
    subst hzero
    have hempty : ∀ rows : List (AuditEvent J × ℕ), selectRecent tenantId since 0 rows = [] := by
      intro rows
      rw [selectRecent, List.reverse_eq_nil_iff, List.map_eq_nil_iff, ← List.length_eq_zero_iff, length_lastOf, Nat.zero_min]
    rw [hempty, hempty]
    rfl
  · rw [lastOf, List.length_insertionSort]

/-- **A read returns the last events of the union** iff neither table cuts an event that counts. -/
theorem readRecentEvents_eq_lastEvents_iff (tenantId : String) (since : ℤ) (limit : ℕ) (db : AuditDb J) :
    readRecentEvents tenantId since limit db = lastEvents tenantId since limit db ↔
      Uncut tenantId since limit db.feedRows db.outboxRows := by
  have hunion : ((unionEvents tenantId since db.feedRows db.outboxRows).map RecentEvent.key).Nodup :=
    nodup_map_key (nodup_unionEvents (operationIds_feedRows db) (operationIds_outboxRows db))
  rw [readRecentEvents_eq, lastEvents, lastOf_eq_lastOf_iff (nodup_mergeRows ..) hunion]
  simp only [mem_lastOf hunion, mem_mergeRows]
  exact ⟨fun ⟨hlast, hstale⟩ => ⟨fun e he hfew => hlast e ⟨he, hfew⟩, hstale⟩,
    fun h => ⟨fun e he => h.last e he.1 he.2, h.stale⟩⟩

/-! ### What a relay pass keeps -/

theorem outboxRows_deleteRow (db : AuditDb J) (id : ℕ) :
    (db.deleteRow id).outboxRows = db.outboxRows.filter fun row => id ≠ row.2 := by
  have hrows : (db.deleteRow id).outbox.rows = db.outbox.rows.filter fun row => !decide (row.id = id) := rfl
  rw [AuditDb.outboxRows, hrows, AuditDb.outboxRows, List.filter_map]
  refine congrArg _ (List.filter_congr fun row _ => ?_)
  simp [eq_comm]

variable {db db' : AuditDb J} {now : ℤ}

theorem outboxRows_markAttempt? {id : ℕ} {error : String}
    (h : db.markAttempt? id now error = some db') : db'.outboxRows = db.outboxRows := by
  unfold AuditDb.markAttempt? at h
  split at h
  · cases h
    exact Keyed.map_update (operationId_markAttempt · now error) fun _ => rfl
  · cases h

theorem feed_markAttempt? {id : ℕ} {error : String}
    (h : db.markAttempt? id now error = some db') : db'.feed = db.feed := by
  unfold AuditDb.markAttempt? at h
  split at h
  · cases h
    rfl
  · cases h

/-- **One write**: a row that is moved is at the end of the feed, and a row that is relayed is gone from the outbox. -/
theorem applyFate_rows {write : AuditOutboxEvent J × RowFate} (h : applyFate now db write = some db') :
    db'.feed.rows = db.feed.rows ++ movedEvents [write] ∧
      db'.outboxRows = db.outboxRows.filter fun row => write.2.relayed → write.1.id ≠ row.2 := by
  obtain ⟨row, fate⟩ := write
  cases fate with
  | conflict feedHash outboxHash =>
    refine ⟨?_, (outboxRows_markAttempt? h).trans ?_⟩
    · rw [feed_markAttempt? h]
      exact (List.append_nil _).symm
    · simp [RowFate.relayed]
  | failed error =>
    refine ⟨?_, (outboxRows_markAttempt? h).trans ?_⟩
    · rw [feed_markAttempt? h]
      exact (List.append_nil _).symm
    · simp [RowFate.relayed]
  | drop =>
    obtain rfl := Option.some.inj h
    refine ⟨(List.append_nil _).symm, ?_⟩
    rw [outboxRows_deleteRow]
    simp [RowFate.relayed]
  | move =>
    obtain ⟨feed, hinsert, rfl⟩ := Option.map_eq_some_iff.mp h
    refine ⟨Keyed.rows_insert? hinsert, ?_⟩
    rw [outboxRows_deleteRow]
    simp [RowFate.relayed, AuditDb.outboxRows]

/-- **All writes.** -/
theorem applyFates_rows {writes : List (AuditOutboxEvent J × RowFate)} (h : applyFates now db writes = some db') :
    db'.feedRows = feedAfter writes db ∧ db'.outboxRows = outboxAfter writes db := by
  have hrows : db'.feed.rows = db.feed.rows ++ movedEvents writes ∧ db'.outboxRows = outboxAfter writes db := by
    induction writes generalizing db with
    | nil =>
      cases h
      exact ⟨(List.append_nil _).symm, (List.filter_eq_self.mpr fun _ _ => by simp).symm⟩
    | cons write writes ih =>
      obtain ⟨db₁, hfirst, hrest⟩ := Option.bind_eq_some_iff.mp h
      obtain ⟨hfeed₁, houtbox₁⟩ := applyFate_rows hfirst
      obtain ⟨hfeed, houtbox⟩ := ih hrest
      refine ⟨?_, ?_⟩
      · have hmoved : movedEvents (write :: writes) = movedEvents [write] ++ movedEvents writes := by
          rw [movedEvents, movedEvents, movedEvents, ← List.map_append, ← List.filter_append]
          rfl
        rw [hfeed, hfeed₁, hmoved, List.append_assoc]
      · rw [houtbox, outboxAfter, houtbox₁, List.filter_filter, outboxAfter]
        refine List.filter_congr fun row _ => ?_
        rw [← Bool.decide_and, decide_eq_decide, List.forall_mem_cons]
        exact and_comm
  exact ⟨congrArg List.zipIdx hrows.1, hrows.2⟩

theorem relayWrites_spec {hash : J → String} {batch : List (AuditOutboxEvent J)}
    {failure : AuditOutboxEvent J → Option String} {write : AuditOutboxEvent J × RowFate}
    (h : write ∈ relayWrites hash db batch failure) :
    write.1 ∈ batch ∧
      (write.2.moves → ∀ e ∈ db.feed.rows, e.operationId ≠ write.1.operationId) ∧
      (write.2.relayed → write.2.moves ∨ ∃ e ∈ db.feed.rows, e.operationId = write.1.operationId) := by
  obtain ⟨row, hrow, rfl⟩ := List.mem_map.mp h
  refine ⟨hrow, ?_⟩
  cases hget : db.feed.get? row.operationId with
  | none =>
    have hfate : rowFate hash db.feed row = .move := by rw [rowFate, hget]
    rw [hfate]
    refine ⟨fun _ => Keyed.get?_eq_none.mp hget, fun hrelayed => .inl ?_⟩
    cases hfail : failure row with
    | none => rfl
    | some error =>
      rw [hfail] at hrelayed
      cases hrelayed
  | some existing =>
    obtain ⟨hmem, hkey⟩ := Keyed.get?_eq_some.mp hget
    refine ⟨fun hmoves => ?_, fun _ => .inr ⟨existing, hmem, hkey⟩⟩
    rw [rowFate, hget] at hmoves
    dsimp only at hmoves
    split at hmoves
    all_goals
      cases hfail : failure row with
      | none =>
        rw [hfail] at hmoves
        cases hmoves
      | some error =>
        rw [hfail] at hmoves
        cases hmoves

/-- An event of the union: one of the feed, or one of the outbox whose operation id the feed has not. -/
theorem mem_unionRows {feed : List (AuditEvent J)} {outbox : List (AuditEvent J × ℕ)} {e : AuditEvent J} :
    (∃ row ∈ unionRows feed.zipIdx outbox, row.1 = e) ↔
      e ∈ feed ∨ ∃ id, (e, id) ∈ outbox ∧ ∀ other ∈ feed, other.operationId ≠ e.operationId := by
  have hfeed : ∀ other, (∃ row ∈ feed.zipIdx, row.1 = other) ↔ other ∈ feed := by
    intro other
    rw [← List.mem_map, List.zipIdx_map_fst]
  constructor
  · rintro ⟨row, hrow, rfl⟩
    rcases List.mem_append.mp hrow with hrow | hrow
    · exact .inl ((hfeed _).mp ⟨row, hrow, rfl⟩)
    · obtain ⟨hmem, hfresh⟩ := List.mem_filter.mp hrow
      refine .inr ⟨row.2, hmem, fun other hother => ?_⟩
      obtain ⟨row', hrow', rfl⟩ := (hfeed other).mpr hother
      exact of_decide_eq_true hfresh row' hrow'
  · rintro (hmem | ⟨id, hmem, hfresh⟩)
    · obtain ⟨row, hrow, rfl⟩ := (hfeed e).mpr hmem
      exact ⟨row, List.mem_append_left _ hrow, rfl⟩
    · refine ⟨(e, id), List.mem_append_right _ (List.mem_filter.mpr ⟨hmem, decide_eq_true fun row hrow => ?_⟩), rfl⟩
      exact hfresh row.1 ((hfeed _).mp ⟨row, hrow, rfl⟩)

theorem mem_unionEvents_iff {tenantId : String} {since : ℤ} {feed outbox : List (AuditEvent J × ℕ)} {e : RecentEvent J} :
    e ∈ unionEvents tenantId since feed outbox ↔
      ∃ event, (∃ row ∈ unionRows feed outbox, row.1 = event) ∧ (event.tenantId = tenantId ∧ since ≤ event.occurredAt) ∧
        event.recent = e := by
  rw [mem_unionEvents]
  simp only [window, List.mem_filter, decide_eq_true_eq]
  constructor
  · rintro ⟨row, ⟨hmem, hin⟩, rfl⟩
    exact ⟨row.1, ⟨row, hmem, rfl⟩, hin, rfl⟩
  · rintro ⟨_, ⟨row, hmem, rfl⟩, hin, rfl⟩
    exact ⟨row, ⟨hmem, hin⟩, rfl⟩

/-- **A relay pass keeps the union of the tables.** -/
theorem union_relay {hash : J → String} {batchSize : ℕ} {batch : List (AuditOutboxEvent J)}
    {failure : AuditOutboxEvent J → Option String} (h : RelayPass hash batchSize now batch failure db db')
    (tenantId : String) (since : ℤ) :
    (unionEvents tenantId since db'.feedRows db'.outboxRows).Perm (unionEvents tenantId since db.feedRows db.outboxRows) := by
  obtain ⟨hbatch, happly⟩ := h
  have hspec : ∀ write ∈ relayWrites hash db batch failure, _ := fun write hwrite => relayWrites_spec hwrite
  generalize relayWrites hash db batch failure = writes at happly hspec
  obtain ⟨hfeed, houtbox⟩ := applyFates_rows happly
  have hnodup : ∀ db : AuditDb J, (unionEvents tenantId since db.feedRows db.outboxRows).Nodup := fun db =>
    (nodup_unionEvents (operationIds_feedRows db) (operationIds_outboxRows db)).of_map
  refine (List.perm_ext_iff_of_nodup (hnodup db') (hnodup db)).mpr fun e => ?_
  rw [mem_unionEvents_iff, mem_unionEvents_iff, hfeed, houtbox]
  refine exists_congr fun event => and_congr_left fun _ => ?_
  rw [feedAfter, AuditDb.feedRows, mem_unionRows, mem_unionRows]
  -- a row of the outbox with its write
  have hrow : ∀ write ∈ writes, (write.1.event, write.1.id) ∈ db.outboxRows := fun write hwrite =>
    List.mem_map_of_mem (hbatch.subset _ (hspec write hwrite).1)
  have hmoved : ∀ other, other ∈ movedEvents writes ↔ ∃ write ∈ writes, write.2.moves ∧ write.1.event = other := by
    intro other
    simp only [movedEvents, List.mem_map, List.mem_filter, and_assoc]
  constructor
  · rintro (hmem | ⟨id, hmem, hfresh⟩)
    · rcases List.mem_append.mp hmem with hold | hnew
      · exact .inl hold
      · obtain ⟨write, hwrite, hmoves, rfl⟩ := (hmoved _).mp hnew
        exact .inr ⟨write.1.id, hrow write hwrite, (hspec write hwrite).2.1 hmoves⟩
    · exact .inr ⟨id, List.mem_of_mem_filter hmem, fun other hother => hfresh other (List.mem_append_left _ hother)⟩
  · rintro (hold | ⟨id, hmem, hfresh⟩)
    · exact .inl (List.mem_append_left _ hold)
    · obtain ⟨row, hin, heq⟩ := List.mem_map.mp hmem
      cases heq
      -- a write of the row moves it
      by_cases hwritten : ∃ write ∈ writes, write.2.relayed ∧ write.1.operationId = row.operationId
      · obtain ⟨write, hwrite, hrelayed, hkey⟩ := hwritten
        obtain ⟨hbatched, -, hwhy⟩ := hspec write hwrite
        obtain rfl : write.1 = row := Keyed.eq_of_key (hbatch.subset _ hbatched) hin hkey
        rcases hwhy hrelayed with hmoves | ⟨other, hother, hsame⟩
        · exact .inl (List.mem_append_right _ ((hmoved _).mpr ⟨write, hwrite, hmoves, rfl⟩))
        · exact absurd hsame (hfresh other hother)
      · have hleft : ∀ write ∈ writes, write.2.relayed → write.1.operationId ≠ row.operationId :=
          fun write hwrite hrelayed hkey => hwritten ⟨write, hwrite, hrelayed, hkey⟩
        refine .inr ⟨row.id, List.mem_filter.mpr ⟨hmem, decide_eq_true fun write hwrite hrelayed hid => ?_⟩,
          fun other hother => ?_⟩
        · have heq := row_id_inj (hbatch.subset _ (hspec write hwrite).1) hin hid
          exact hleft write hwrite hrelayed (congrArg _ heq)
        · rcases List.mem_append.mp hother with hold | hnew
          · exact hfresh other hold
          · obtain ⟨write, hwrite, hmoves, rfl⟩ := (hmoved _).mp hnew
            exact hleft write hwrite (RowFate.relayed_of_moves hmoves)

/-- **The reads around a relay pass**: they return one list, the last events of the union, iff neither table cuts an event that
counts, before the pass and after it. -/
theorem read_recent_events {hash : J → String} {batchSize : ℕ} {now : ℤ} {batch : List (AuditOutboxEvent J)}
    {failure : AuditOutboxEvent J → Option String} {db db' : AuditDb J} (h : RelayPass hash batchSize now batch failure db db')
    (tenantId : String) (since : ℤ) (limit : ℕ) :
    (readRecentEvents tenantId since limit db' = readRecentEvents tenantId since limit db ∧
        readRecentEvents tenantId since limit db = lastEvents tenantId since limit db) ↔
      Uncut tenantId since limit db.feedRows db.outboxRows ∧
        Uncut tenantId since limit (feedAfter (relayWrites hash db batch failure) db)
          (outboxAfter (relayWrites hash db batch failure) db) := by
  obtain ⟨hfeed, houtbox⟩ := applyFates_rows h.2
  have hsame : lastEvents tenantId since limit db' = lastEvents tenantId since limit db :=
    lastOf_perm (nodup_map_key (nodup_unionEvents (operationIds_feedRows db') (operationIds_outboxRows db')))
      (union_relay h tenantId since)
  rw [← hfeed, ← houtbox, ← readRecentEvents_eq_lastEvents_iff, ← readRecentEvents_eq_lastEvents_iff, hsame]
  constructor
  · rintro ⟨hread, hlast⟩
    exact ⟨hlast, hread.trans hlast⟩
  · rintro ⟨hlast, hlast'⟩
    exact ⟨hlast'.trans hlast.symm, hlast⟩

/-- Two events of one time wait in the outbox; the row with the lower id has the higher operation id. -/
def tiedDb : AuditDb String where
  outbox := ⟨[exampleRow 0 "b" "" 0, exampleRow 1 "a" "" 1], by decide⟩
  feed := .empty
  nextId := 2
  id_nodup := by decide
  id_lt := by decide

/-- The older row is relayed. -/
def relayedDb : AuditDb String where
  outbox := ⟨[exampleRow 1 "a" "" 1], by decide⟩
  feed := ⟨[exampleEvent "b" ""], by decide⟩
  nextId := 2
  id_nodup := by decide
  id_lt := by decide

theorem tiedDb_relay : RelayPass id 1 0 [exampleRow 0 "b" "" 0] (fun _ => none) tiedDb relayedDb := by
  refine ⟨⟨List.nodup_singleton _, ?_, rfl, List.pairwise_singleton _ _, ?_⟩, rfl⟩
  · intro row hrow
    rw [List.mem_singleton.mp hrow]
    exact List.mem_cons_self
  · intro row hrow hnot b hb
    rw [List.mem_singleton.mp hb]
    rcases List.mem_cons.mp hrow with rfl | hrow
    · exact absurd List.mem_cons_self hnot
    · rw [List.mem_singleton.mp hrow]
      decide

theorem read_recent_events_tied :
    (readRecentEvents "t" 0 1 relayedDb = readRecentEvents "t" 0 1 tiedDb ∧
        readRecentEvents "t" 0 1 tiedDb = lastEvents "t" 0 1 tiedDb) ↔
      Uncut "t" 0 1 tiedDb.feedRows tiedDb.outboxRows ∧
        Uncut "t" 0 1 (feedAfter (relayWrites id tiedDb [exampleRow 0 "b" "" 0] fun _ => none) tiedDb)
          (outboxAfter (relayWrites id tiedDb [exampleRow 0 "b" "" 0] fun _ => none) tiedDb) :=
  read_recent_events tiedDb_relay "t" 0 1

/-- **A tie**: the outbox cuts the event that is the last of the union, and the relay of its row brings it back. -/
theorem tied_events :
    RelayPass id 1 0 [exampleRow 0 "b" "" 0] (fun _ => none) tiedDb relayedDb ∧
      (readRecentEvents "t" 0 1 tiedDb).map (·.operationId) = ["a"] ∧
      (readRecentEvents "t" 0 1 relayedDb).map (·.operationId) = ["b"] :=
  ⟨tiedDb_relay, by decide +kernel, by decide +kernel⟩

end Sreda.Services
