import Mathlib.Logic.Function.Basic
import Sreda.Lib.Keyed
import Sreda.Lib.Transition

/-!
# Durable operations that run once

`services/idempotent_ops.py`: a durable operation has an id, and the table
`tool_operation_results`, unique in that id, keeps the payload of an operation that was
committed. `execute_idempotent_durable_op` looks for the row, else inserts one (the claim),
runs the mutation, stores its payload and commits; the claim, the mutation and the payload
are one transaction. `peek_committed_replay` only looks.

Any number of calls run at the same time. A call looks, then claims, then runs the rest: three
steps, between which other calls may come. An insertion waits for another call that holds the
same id in an open transaction, and fails when a row is there; the call then looks again. The
mutation and the audit of a call are functions of the data, which may raise.

## What is proved

* a row that is there stays as it is (`table_kept`), over every run (`run_kept`);
* what every state keeps (`OpInv`);
* the guarantees of the operations, as long as no committed payload is null or changed by its
  way through the database (`replay_guarantees`), and what happens to a null one
  (`null_payload`).
-/

namespace Sreda.Services

open Sreda.Lib

universe u

/-! ### The table -/

/-- `TOOL_OP_STATUSES`. -/
inductive ToolOpStatus where
  | pending | committed | failedTransient | failedPermanent
  deriving DecidableEq

/-- `ToolOperationResult`. The `uuid4` in the id of a row is the call that wrote it. -/
structure ToolOperationResult (P : Type u) where
  id : ℕ
  tenantId : String
  userId : Option String
  operationFamily : String
  operationId : String
  argsHmac : String
  status : ToolOpStatus
  stableReturnPayload : P

/-- The table, unique in `operation_id`. -/
abbrev ToolOperationResults (P : Type u) := Keyed (ToolOperationResult.operationId (P := P))

/-- The payloads, and what the column `JSONEncryptedString` makes of them. -/
structure PayloadColumn (P : Type u) where
  /-- `None`. -/
  null : P
  /-- What is read back of a payload that is stored; nothing when `json.dumps` refuses it. -/
  reload : P → Option P
  reload_null : reload null = some null

/-- What a call raises; `E` are the exceptions of the mutation and of the audit. -/
inductive OpError (E : Type u) where
  /-- `IdempotencyScopeMismatch`. -/
  | scopeMismatch (operationId : String)
  /-- `IdempotencyInFlight`. -/
  | inFlight (operationId : String)
  /-- `IdempotencyArgsMismatch`. -/
  | argsMismatch (operationId : String)
  /-- `IntegrityError` of the claim: the id is taken. -/
  | uniqueViolation (operationId : String)
  /-- `TypeError` of `json.dumps`. -/
  | notSerializable
  | raised (error : E)
  /-- The transaction was given up: the connection or the process died. -/
  | aborted

/-- The arguments of `execute_idempotent_durable_op`, over the data `D`. -/
structure OpCall (D P E : Type u) where
  operationId : String
  tenantId : String
  userId : Option String
  operationFamily : String
  argsHmac : String
  mutateFn : D → Except E (D × P)
  /-- `emit_tool_audit`; nothing changes when the call asks for no audit. -/
  audit : D → Except E D

variable {D P E : Type u}

/-- `user_id or None`. -/
def orNone : Option String → Option String
  | some "" => none
  | user => user

/-- The row is of the tenant, the user and the family of the call. -/
def OpCall.inScope (c : OpCall D P E) (row : ToolOperationResult P) : Bool :=
  row.tenantId = c.tenantId ∧ orNone row.userId = orNone c.userId ∧ row.operationFamily = c.operationFamily

/-- `_resolve`. -/
def OpCall.resolve (c : OpCall D P E) (row : ToolOperationResult P) : Except (OpError E) P :=
  if ¬ c.inScope row then .error (.scopeMismatch c.operationId)
  else if row.status ≠ .committed then .error (.inFlight c.operationId)
  else if row.argsHmac ≠ c.argsHmac then .error (.argsMismatch c.operationId)
  else .ok row.stableReturnPayload

/-- `peek_committed_replay`. -/
def peekCommittedReplay (column : PayloadColumn P) (t : ToolOperationResults P) (c : OpCall D P E) : P :=
  match t.get? c.operationId with
  | some row =>
    if row.status = .committed ∧ c.inScope row ∧ row.argsHmac = c.argsHmac then row.stableReturnPayload
    else column.null
  | none => column.null

/-- The row that call `i` writes. -/
def OpCall.row (c : OpCall D P E) (i : ℕ) (stored : P) : ToolOperationResult P where
  id := i
  tenantId := c.tenantId
  userId := c.userId
  operationFamily := c.operationFamily
  operationId := c.operationId
  argsHmac := c.argsHmac
  status := .committed
  stableReturnPayload := stored

/-- What runs in the savepoint after the claim: the mutation, its payload, the audit. It makes
the new data, the payload that is returned and the one that is stored. -/
def OpCall.body (column : PayloadColumn P) (c : OpCall D P E) (data : D) : Except (OpError E) (D × P × P) :=
  match c.mutateFn data with
  | .error e => .error (.raised e)
  | .ok (data, payload) =>
    match column.reload payload with
    | none => .error .notSerializable
    | some stored =>
      match c.audit data with
      | .error e => .error (.raised e)
      | .ok data => .ok (data, payload, stored)

/-! ### The calls -/

/-- Where a call is. -/
inductive OpPhase (P E : Type u) where
  | start
  /-- It saw no row. -/
  | claiming
  /-- It has inserted the row, in an open transaction. -/
  | holding
  /-- An `IntegrityError` took the transaction back, and it will look again. -/
  | conflicted (error : OpError E)
  | returned (payload : P)
  | raised (error : OpError E)

/-- The end of a call. -/
def OpPhase.ended : Except (OpError E) P → OpPhase P E
  | .ok payload => .returned payload
  | .error e => .raised e

/-- The first look of a call. -/
def OpCall.look (c : OpCall D P E) (t : ToolOperationResults P) : OpPhase P E :=
  match t.get? c.operationId with
  | some row => .ended (c.resolve row)
  | none => .claiming

/-- The look after an `IntegrityError`. -/
def OpCall.relook (c : OpCall D P E) (t : ToolOperationResults P) (error : OpError E) : OpPhase P E :=
  match t.get? c.operationId with
  | some row => .ended (c.resolve row)
  | none => .raised error

/-- The exception is an `IntegrityError`. -/
def OpError.isIntegrityError (integrity : E → Bool) : OpError E → Bool
  | .uniqueViolation _ => true
  | .raised e => integrity e
  | _ => false

/-- What leaves a transaction that was taken back. -/
def OpPhase.rolledBack (integrity : E → Bool) (e : OpError E) : OpPhase P E :=
  if e.isIntegrityError integrity then .conflicted e else .raised e

/-- The database and the calls. -/
structure OpState (D P E : Type u) where
  table : ToolOperationResults P
  data : D
  /-- The call that holds an id in an open transaction. -/
  claims : String → Option ℕ
  phase : ℕ → OpPhase P E
  /-- The calls that were committed, oldest first. -/
  committed : List ℕ

/-- A step of a call. -/
inductive OpAction where
  | look (i : ℕ)
  | claim (i : ℕ)
  | body (i : ℕ)
  | relook (i : ℕ)
  | abort (i : ℕ)

/-- What the calls share. -/
structure OpSystem (D P E : Type u) where
  column : PayloadColumn P
  /-- The exceptions that are an `IntegrityError`. -/
  integrity : E → Bool
  calls : ℕ → OpCall D P E
  /-- The data at the start. -/
  data : D

def OpState.setPhase (s : OpState D P E) (i : ℕ) (phase : OpPhase P E) : OpState D P E :=
  { s with phase := Function.update s.phase i phase }

def OpState.setClaim (s : OpState D P E) (operationId : String) (holder : Option ℕ) : OpState D P E :=
  { s with claims := Function.update s.claims operationId holder }

/-- The second step: the insertion waits while another call holds the id. -/
def OpSystem.claim (S : OpSystem D P E) (s : OpState D P E) (i : ℕ) : Option (OpState D P E) :=
  match s.claims (S.calls i).operationId with
  | some _ => none
  | none =>
    match s.table.get? (S.calls i).operationId with
    | some _ => some (s.setPhase i (.conflicted (.uniqueViolation (S.calls i).operationId)))
    | none => some ((s.setClaim (S.calls i).operationId (some i)).setPhase i .holding)

/-- The third step: the rest of the transaction, and its commit. -/
def OpSystem.body (S : OpSystem D P E) (s : OpState D P E) (i : ℕ) : OpState D P E :=
  let freed := s.setClaim (S.calls i).operationId none
  match (S.calls i).body S.column s.data with
  | .error e => freed.setPhase i (.rolledBack S.integrity e)
  | .ok (data, payload, stored) =>
    match s.table.insert? ((S.calls i).row i stored) with
    | none => freed.setPhase i (.conflicted (.uniqueViolation (S.calls i).operationId))
    | some table =>
      { freed with table := table, data := data, committed := s.committed ++ [i] }.setPhase i (.returned payload)

/-- What an action does; nothing when it cannot be taken. -/
def OpSystem.exec (S : OpSystem D P E) (s : OpState D P E) : OpAction → Option (OpState D P E)
  | .look i =>
    match s.phase i with
    | .start => some (s.setPhase i ((S.calls i).look s.table))
    | _ => none
  | .claim i =>
    match s.phase i with
    | .claiming => S.claim s i
    | _ => none
  | .body i =>
    match s.phase i with
    | .holding => some (S.body s i)
    | _ => none
  | .relook i =>
    match s.phase i with
    | .conflicted e => some (s.setPhase i ((S.calls i).relook s.table e))
    | _ => none
  | .abort i =>
    match s.phase i with
    | .holding => some ((s.setClaim (S.calls i).operationId none).setPhase i (.raised .aborted))
    | .start | .claiming | .conflicted _ => some (s.setPhase i (.raised .aborted))
    | .returned _ | .raised _ => none

/-- The calls, from an empty table. -/
def OpSystem.lts (S : OpSystem D P E) : Lts (OpState D P E) OpAction where
  init s := s.table = .empty ∧ s.data = S.data ∧ s.committed = [] ∧ (∀ o, s.claims o = none) ∧
    ∀ i, s.phase i = .start
  step s a t := S.exec s a = some t

/-! ### What a step does -/

variable {c : OpCall D P E} {row : ToolOperationResult P} {payload : P} {t s : OpState D P E} {S : OpSystem D P E}
variable {i : ℕ}

theorem resolve_eq_ok : c.resolve row = .ok payload ↔
      (row.status = .committed ∧ c.inScope row = true ∧ row.argsHmac = c.argsHmac) ∧
        row.stableReturnPayload = payload := by
  unfold OpCall.resolve
  by_cases hscope : c.inScope row = true
  · by_cases hstatus : row.status = .committed
    · by_cases hargs : row.argsHmac = c.argsHmac
      · simp [hscope, hstatus, hargs]
      · simp [hscope, hstatus, hargs]
    · simp [hscope, hstatus]
  · simp [hscope]

theorem ended_eq_returned {r : Except (OpError E) P} : OpPhase.ended r = .returned payload ↔ r = .ok payload := by
  cases r with
  | error e => simp [OpPhase.ended]
  | ok p => simp [OpPhase.ended]

/-- A first look returns what it resolves a row to. -/
theorem look_eq_returned {t : ToolOperationResults P} :
    c.look t = .returned payload ↔ ∃ row, t.get? c.operationId = some row ∧ c.resolve row = .ok payload := by
  unfold OpCall.look
  cases h : t.get? c.operationId with
  | none => simp
  | some row => simp [ended_eq_returned]

theorem relook_eq_returned {t : ToolOperationResults P} {e : OpError E} :
    c.relook t e = .returned payload ↔ c.look t = .returned payload := by
  unfold OpCall.relook OpCall.look
  cases h : t.get? c.operationId with
  | none => simp
  | some row => simp

/-- **Looking and peeking read the same row**: a peek is the payload that a look returns, and
null when the look returns none. -/
theorem peek_eq (column : PayloadColumn P) (t : ToolOperationResults P) (c : OpCall D P E) :
    (∃ payload, c.look t = .returned payload ∧ peekCommittedReplay column t c = payload) ∨
      ((∀ payload, c.look t ≠ .returned payload) ∧ peekCommittedReplay column t c = column.null) := by
  unfold peekCommittedReplay
  cases h : t.get? c.operationId with
  | none => exact .inr ⟨by simp [look_eq_returned, h], rfl⟩
  | some row =>
    by_cases hok : row.status = .committed ∧ c.inScope row = true ∧ row.argsHmac = c.argsHmac
    · refine .inl ⟨row.stableReturnPayload, look_eq_returned.mpr ⟨row, h, resolve_eq_ok.mpr ⟨hok, rfl⟩⟩, ?_⟩
      simp [hok]
    · refine .inr ⟨fun payload hlook => ?_, by simp [hok]⟩
      obtain ⟨row', hrow', hresolve⟩ := look_eq_returned.mp hlook
      rw [h, Option.some.injEq] at hrow'
      exact hok (hrow' ▸ (resolve_eq_ok.mp hresolve).1)

theorem body_ok {column : PayloadColumn P} {d d' : D} {stored : P} (h : c.body column d = .ok (d', payload, stored)) :
    ∃ d₁, c.mutateFn d = .ok (d₁, payload) ∧ column.reload payload = some stored ∧ c.audit d₁ = .ok d' := by
  unfold OpCall.body at h
  split at h
  · cases h
  · next d₁ p hmutate =>
    split at h
    · cases h
    · next st hreload =>
      split at h
      · cases h
      · next d₂ haudit =>
        cases h
        exact ⟨d₁, hmutate, hreload, haudit⟩

/-- The call is still under way. -/
def OpPhase.Open : OpPhase P E → Prop
  | .returned _ | .raised _ => False
  | _ => True

/-- A step of call `i` that changes no row and no data; when it ends the call normally, a look
returns the same. -/
structure OpSystem.Quiet (S : OpSystem D P E) (s t : OpState D P E) (i : ℕ) (phase : OpPhase P E) : Prop where
  open_ : (s.phase i).Open
  table : t.table = s.table
  data : t.data = s.data
  committed : t.committed = s.committed
  phases : t.phase = Function.update s.phase i phase
  returned : ∀ payload, phase = .returned payload → (S.calls i).look s.table = .returned payload

/-- The step that commits call `i`. -/
structure OpSystem.Commit (S : OpSystem D P E) (s t : OpState D P E) (i : ℕ) (payload stored : P) : Prop where
  open_ : (s.phase i).Open
  body : (S.calls i).body S.column s.data = .ok (t.data, payload, stored)
  table : s.table.insert? ((S.calls i).row i stored) = some t.table
  committed : t.committed = s.committed ++ [i]
  phases : t.phase = Function.update s.phase i (.returned payload)

/-- **What a step does**: it is quiet, or it commits a call. -/
theorem exec_cases {a : OpAction} (h : S.exec s a = some t) :
    (∃ i phase, S.Quiet s t i phase) ∨ ∃ i payload stored, a = .body i ∧ S.Commit s t i payload stored := by
  cases a with
  | look i =>
    simp only [OpSystem.exec] at h
    split at h
    · next hp =>
      cases h
      exact .inl ⟨i, _, by rw [hp]; trivial, rfl, rfl, rfl, rfl, fun _ hr => hr⟩
    · cases h
  | claim i =>
    simp only [OpSystem.exec] at h
    split at h
    · next hp =>
      unfold OpSystem.claim at h
      split at h
      · cases h
      · split at h
        · cases h
          exact .inl ⟨i, _, by rw [hp]; trivial, rfl, rfl, rfl, rfl, fun _ hr => by cases hr⟩
        · cases h
          exact .inl ⟨i, _, by rw [hp]; trivial, rfl, rfl, rfl, rfl, fun _ hr => by cases hr⟩
    · cases h
  | body i =>
    simp only [OpSystem.exec] at h
    split at h
    · next hp =>
      cases h
      have hopen : (s.phase i).Open := by rw [hp]; trivial
      unfold OpSystem.body
      dsimp only
      split
      · next e _ =>
        refine .inl ⟨i, _, hopen, rfl, rfl, rfl, rfl, fun payload hr => ?_⟩
        unfold OpPhase.rolledBack at hr
        split at hr <;> cases hr
      · next data payload stored hbody =>
        split
        · exact .inl ⟨i, _, hopen, rfl, rfl, rfl, rfl, fun _ hr => by cases hr⟩
        · next table hinsert => exact .inr ⟨i, payload, stored, rfl, hopen, hbody, hinsert, rfl, rfl⟩
    · cases h
  | relook i =>
    simp only [OpSystem.exec] at h
    split at h
    · next e hp =>
      cases h
      exact .inl ⟨i, _, by rw [hp]; trivial, rfl, rfl, rfl, rfl, fun _ hr => relook_eq_returned.mp hr⟩
    · cases h
  | abort i =>
    simp only [OpSystem.exec] at h
    split at h
    all_goals first
      | cases h; done
      | next hp => cases h; exact .inl ⟨i, _, by rw [hp]; trivial, rfl, rfl, rfl, rfl, fun _ hr => by cases hr⟩

/-! ### What every state keeps -/

/-- What the committed calls made of the data, one after the other. -/
inductive OpSystem.Applied (S : OpSystem D P E) : List ℕ → D → Prop where
  | nil : S.Applied [] S.data
  | snoc {is : List ℕ} {i : ℕ} {d d₁ d₂ : D} {payload : P} (h : S.Applied is d)
      (hmutate : (S.calls i).mutateFn d = .ok (d₁, payload)) (haudit : (S.calls i).audit d₁ = .ok d₂) :
      S.Applied (is ++ [i]) d₂

/-- Row `row` was written by its call, which returned `payload`. -/
structure OpSystem.Written (S : OpSystem D P E) (s : OpState D P E) (row : ToolOperationResult P) (payload : P) :
    Prop where
  shape : row = (S.calls row.id).row row.id row.stableReturnPayload
  reload : S.column.reload payload = some row.stableReturnPayload
  phase : s.phase row.id = .returned payload

/-- The invariant of the calls. -/
structure OpInv (S : OpSystem D P E) (s : OpState D P E) : Prop where
  ids : s.table.rows.map (·.id) = s.committed
  written : ∀ row ∈ s.table.rows, ∃ payload, S.Written s row payload
  /-- A call that returned wrote the row or replays it. -/
  returned : ∀ i payload, s.phase i = .returned payload →
    (∃ row ∈ s.table.rows, row.id = i ∧ S.Written s row payload) ∨ (S.calls i).look s.table = .returned payload
  data : S.Applied s.committed s.data

/-- **A row that is there stays as it is.** -/
theorem table_kept {a : OpAction} (h : S.exec s a = some t) {o : String}
    (hrow : s.table.get? o = some row) : t.table.get? o = some row := by
  obtain ⟨i, phase, hq⟩ | ⟨i, payload, stored, -, hc⟩ := exec_cases h
  · rwa [hq.table]
  · exact Keyed.get?_insert? hc.table hrow

/-- What a look returns once, it returns ever after. -/
theorem run_kept {as : List OpAction} (h : S.lts.Run s as t) (hlook : c.look s.table = .returned payload) :
    c.look t.table = .returned payload := by
  obtain ⟨row, hrow, hresolve⟩ := look_eq_returned.mp hlook
  refine look_eq_returned.mpr ⟨row, ?_, hresolve⟩
  exact h.keeps (P := fun u => u.table.get? c.operationId = some row) (fun _ _ _ hu hstep => table_kept hstep hu) hrow

/-- A written row stays written while its call does not move. -/
theorem OpSystem.Written.of_phase
    (h : S.Written s row payload) (hphase : t.phase row.id = s.phase row.id) : S.Written t row payload :=
  ⟨h.shape, h.reload, hphase.trans h.phase⟩

theorem OpInv.open_ne (h : OpInv S s) (hopen : (s.phase i).Open) (hrow : row ∈ s.table.rows) : row.id ≠ i := by
  rintro rfl
  obtain ⟨payload, hw⟩ := h.written row hrow
  rw [hw.phase] at hopen
  exact hopen

theorem OpInv.quiet {phase : OpPhase P E} (h : OpInv S s) (hq : S.Quiet s t i phase) : OpInv S t := by
  have hother : ∀ {j : ℕ}, j ≠ i → t.phase j = s.phase j := fun hj => by rw [hq.phases, Function.update_of_ne hj]
  have hwritten : ∀ {row payload}, row ∈ s.table.rows → S.Written s row payload → S.Written t row payload :=
    fun hrow hw => hw.of_phase (hother (h.open_ne hq.open_ hrow))
  refine ⟨by rw [hq.table, hq.committed]; exact h.ids, fun row hrow => ?_, fun j payload hj => ?_, ?_⟩
  · rw [hq.table] at hrow
    obtain ⟨payload, hw⟩ := h.written row hrow
    exact ⟨payload, hwritten hrow hw⟩
  · rw [hq.table]
    by_cases hji : j = i
    · subst hji
      rw [hq.phases, Function.update_self] at hj
      exact .inr (hq.returned payload hj)
    · rw [hother hji] at hj
      rcases h.returned j payload hj with ⟨row, hrow, hid, hw⟩ | hlook
      · exact .inl ⟨row, hrow, hid, hwritten hrow hw⟩
      · exact .inr hlook
  · rw [hq.committed, hq.data]
    exact h.data

theorem OpInv.commit {stored : P} (h : OpInv S s) (hc : S.Commit s t i payload stored) : OpInv S t := by
  obtain ⟨d₁, hmutate, hreload, haudit⟩ := body_ok hc.body
  have hrows := Keyed.rows_insert? hc.table
  have hother : ∀ {j : ℕ}, j ≠ i → t.phase j = s.phase j := fun hj => by rw [hc.phases, Function.update_of_ne hj]
  have hself : t.phase i = .returned payload := by rw [hc.phases, Function.update_self]
  have hold : ∀ {row payload}, row ∈ s.table.rows → S.Written s row payload → S.Written t row payload :=
    fun hrow hw => hw.of_phase (hother (h.open_ne hc.open_ hrow))
  have hnew : S.Written t ((S.calls i).row i stored) payload := ⟨rfl, hreload, hself⟩
  refine ⟨?_, fun row hrow => ?_, fun j q hj => ?_, ?_⟩
  · rw [hrows, List.map_append, h.ids, hc.committed]
    rfl
  · rw [hrows] at hrow
    rcases List.mem_append.mp hrow with hrow | hrow
    · obtain ⟨q, hw⟩ := h.written row hrow
      exact ⟨q, hold hrow hw⟩
    · rw [List.mem_singleton.mp hrow]
      exact ⟨payload, hnew⟩
  · by_cases hji : j = i
    · subst hji
      obtain rfl := OpPhase.returned.inj (hself.symm.trans hj)
      exact .inl ⟨_, by rw [hrows]; simp, rfl, hnew⟩
    · rw [hother hji] at hj
      rcases h.returned j q hj with ⟨row, hrow, hid, hw⟩ | hlook
      · exact .inl ⟨row, by rw [hrows]; exact List.mem_append_left _ hrow, hid, hold hrow hw⟩
      · obtain ⟨row, hrow, hresolve⟩ := look_eq_returned.mp hlook
        exact .inr (look_eq_returned.mpr ⟨row, Keyed.get?_insert? hc.table hrow, hresolve⟩)
  · rw [hc.committed]
    exact .snoc h.data hmutate haudit

/-- **Every state keeps the invariant.** -/
theorem opInv (h : S.lts.Reachable s) : OpInv S s := by
  refine h.induct (P := OpInv S) (fun s₀ h₀ => ?_) fun s a t _ hinv hstep => ?_
  · obtain ⟨htable, hdata, hcommitted, -, hphase⟩ := h₀
    refine ⟨by rw [htable, hcommitted]; rfl, fun row hrow => ?_, fun i payload hi => ?_, ?_⟩
    · rw [htable] at hrow
      cases hrow
    · rw [hphase] at hi
      cases hi
    · rw [hcommitted, hdata]
      exact .nil
  · obtain ⟨i, phase, hq⟩ | ⟨i, payload, stored, -, hc⟩ := exec_cases hstep
    · exact hinv.quiet hq
    · exact hinv.commit hc

theorem OpInv.committed_nodup (h : OpInv S s) : (s.committed.map fun i => (S.calls i).operationId).Nodup := by
  have hkeys : s.table.rows.map (fun row => (S.calls row.id).operationId) = s.table.rows.map (·.operationId) := by
    refine List.map_congr_left fun row hrow => ?_
    obtain ⟨payload, hw⟩ := h.written row hrow
    exact (congrArg ToolOperationResult.operationId hw.shape).symm
  rw [← h.ids, List.map_map]
  exact hkeys ▸ s.table.nodup

theorem OpInv.mem_committed (h : OpInv S s) (hi : i ∈ s.committed) : ∃ payload, s.phase i = .returned payload := by
  rw [← h.ids] at hi
  obtain ⟨row, hrow, rfl⟩ := List.mem_map.mp hi
  obtain ⟨payload, hw⟩ := h.written row hrow
  exact ⟨payload, hw.phase⟩

/-! ### The guarantees -/

/-- When the step commits a call, its payload is not null, and is read back as it is. -/
def OpSystem.Faithful (S : OpSystem D P E) (s : OpState D P E) (a : OpAction) : Prop :=
  ∀ i d₁ d₂ payload stored, a = .body i → (S.calls i).mutateFn s.data = .ok (d₁, payload) →
    S.column.reload payload = some stored → (S.calls i).audit d₁ = .ok d₂ → payload ≠ S.column.null ∧ stored = payload

/-- Every stored payload is the one that was returned, and is not null. -/
def OpSystem.Readable (S : OpSystem D P E) (s : OpState D P E) : Prop :=
  ∀ row ∈ s.table.rows, row.stableReturnPayload ≠ S.column.null ∧ S.Written s row row.stableReturnPayload

theorem readable (h : (S.lts.guard S.Faithful).Reachable s) : S.Readable s := by
  refine h.induct (P := S.Readable) (fun s₀ h₀ row hrow => ?_) fun s a t hr hinv hstep row hrow => ?_
  · rw [h₀.1] at hrow
    cases hrow
  · have hi : OpInv S s := opInv hr.of_guard
    obtain ⟨hstep, hguard⟩ := hstep
    obtain ⟨i, phase, hq⟩ | ⟨i, payload, stored, rfl, hc⟩ := exec_cases hstep
    · rw [hq.table] at hrow
      refine ⟨(hinv row hrow).1, (hinv row hrow).2.of_phase ?_⟩
      rw [hq.phases, Function.update_of_ne (hi.open_ne hq.open_ hrow)]
    · obtain ⟨d₁, hmutate, hreload, haudit⟩ := body_ok hc.body
      obtain ⟨hnull, rfl⟩ := hguard i d₁ t.data payload stored rfl hmutate hreload haudit
      rw [Keyed.rows_insert? hc.table] at hrow
      rcases List.mem_append.mp hrow with hrow | hrow
      · refine ⟨(hinv row hrow).1, (hinv row hrow).2.of_phase ?_⟩
        rw [hc.phases, Function.update_of_ne (hi.open_ne hc.open_ hrow)]
      · rw [List.mem_singleton.mp hrow]
        exact ⟨hnull, rfl, hreload, by rw [hc.phases]; exact Function.update_self ..⟩

/-- What a call returned is the payload of the row of its operation. -/
theorem OpSystem.Readable.returned (h : S.Readable s) (hinv : OpInv S s) (hi : s.phase i = .returned payload) :
    ∃ row, s.table.get? (S.calls i).operationId = some row ∧ row.stableReturnPayload = payload := by
  rcases hinv.returned i payload hi with ⟨row, hrow, rfl, hw⟩ | hlook
  · have hkey : row.operationId = (S.calls row.id).operationId := congrArg ToolOperationResult.operationId hw.shape
    refine ⟨row, hkey ▸ Keyed.get?_key hrow, ?_⟩
    exact OpPhase.returned.inj ((h row hrow).2.phase.symm.trans hi)
  · obtain ⟨row, hrow, hresolve⟩ := look_eq_returned.mp hlook
    exact ⟨row, hrow, (resolve_eq_ok.mp hresolve).2⟩

/-- **The guarantees of durable operations**, in every state that calls lead to which commit
only payloads that are not null and read back as they are. The mutation of an operation is
committed at most once, and the data is what the committed calls made of it; all calls of an
operation that return, return the same; a call that raises leaves nothing behind; and a peek
reports an operation exactly if a call would replay it, then and ever after. -/
theorem replay_guarantees (S : OpSystem D P E) (s : OpState D P E) (h : (S.lts.guard S.Faithful).Reachable s) :
    ((s.committed.map fun i => (S.calls i).operationId).Nodup ∧ S.Applied s.committed s.data) ∧
    (∀ i j p q, (S.calls i).operationId = (S.calls j).operationId → s.phase i = .returned p →
      s.phase j = .returned q → p = q) ∧
    (∀ i e, s.phase i = .raised e → i ∉ s.committed ∧ ∀ row ∈ s.table.rows, row.id ≠ i) ∧
    ∀ c : OpCall D P E,
      (peekCommittedReplay S.column s.table c ≠ S.column.null ↔ ∃ payload, c.look s.table = .returned payload) ∧
      (peekCommittedReplay S.column s.table c ≠ S.column.null → ∀ as t, S.lts.Run s as t →
        c.look t.table = .returned (peekCommittedReplay S.column s.table c)) := by
  have hinv : OpInv S s := opInv h.of_guard
  have hread : S.Readable s := readable h
  refine ⟨⟨hinv.committed_nodup, hinv.data⟩, fun i j p q hop hp hq => ?_, fun i e he => ?_, fun c => ?_⟩
  · obtain ⟨row, hrow, rfl⟩ := hread.returned hinv hp
    obtain ⟨row', hrow', rfl⟩ := hread.returned hinv hq
    rw [hop, hrow', Option.some.injEq] at hrow
    rw [hrow]
  · have hnot : i ∉ s.committed := by
      intro hi
      obtain ⟨payload, hp⟩ := hinv.mem_committed hi
      rw [he] at hp
      cases hp
    refine ⟨hnot, fun row hrow hid => hnot ?_⟩
    rw [← hinv.ids, ← hid]
    exact List.mem_map_of_mem hrow
  · rcases peek_eq S.column s.table c with ⟨payload, hlook, hpeek⟩ | ⟨hnone, hpeek⟩
    · obtain ⟨row, hrow, hresolve⟩ := look_eq_returned.mp hlook
      have hnull : payload ≠ S.column.null := by
        rw [← (resolve_eq_ok.mp hresolve).2]
        exact (hread row (Keyed.get?_eq_some.mp hrow).1).1
      rw [hpeek]
      exact ⟨⟨fun _ => ⟨payload, hlook⟩, fun _ => hnull⟩, fun _ as t hrun => run_kept hrun hlook⟩
    · refine ⟨⟨fun hne => absurd hpeek hne, fun ⟨payload, hlook⟩ => absurd hlook (hnone payload)⟩, ?_⟩
      exact fun hne => absurd hpeek hne

/-! ### A race, and a null payload -/

/-- Texts and `None`, which are read back as they are. -/
def textColumn : PayloadColumn (Option String) where
  null := none
  reload payload := some payload
  reload_null := rfl

/-- A call that counts up and returns `payload`. -/
def countingCall (payload : Option String) : OpCall ℕ (Option String) String where
  operationId := "op"
  tenantId := "t"
  userId := some "u"
  operationFamily := "task_create"
  argsHmac := "0a"
  mutateFn n := .ok (n + 1, payload)
  audit n := .ok n

/-- Calls with the same arguments. -/
def countingCalls (payload : Option String) : OpSystem ℕ (Option String) String where
  column := textColumn
  integrity _ := false
  calls _ := countingCall payload
  data := 0

def countingStart : OpState ℕ (Option String) String where
  table := .empty
  data := 0
  claims _ := none
  phase _ := .start
  committed := []

/-- The actions, where all of them can be taken. -/
def OpSystem.execAll (S : OpSystem D P E) (s : OpState D P E) (as : List OpAction) : Option (OpState D P E) :=
  as.foldlM S.exec s

theorem run_of_execAll {G : OpState D P E → OpAction → Prop} (hG : ∀ s a, G s a)
    {as : List OpAction} (h : S.execAll s as = some t) : (S.lts.guard G).Run s as t :=
  .of_foldlM (fun a _ s _ hstep => ⟨hstep, hG s a⟩) h

theorem countingStart_init (payload : Option String) : (countingCalls payload).lts.init countingStart :=
  ⟨rfl, rfl, rfl, fun _ => rfl, fun _ => rfl⟩

theorem countingCalls_faithful (s : OpState ℕ (Option String) String) (a : OpAction) :
    (countingCalls (some "done")).Faithful s a := by
  intro i d₁ d₂ payload stored _ hmutate hreload _
  obtain ⟨-, rfl⟩ := Prod.mk.inj (Except.ok.inj hmutate)
  exact ⟨by simp [countingCalls, textColumn], (Option.some.inj hreload).symm⟩

/-- Two calls look before either claims; the second loses the race. -/
def raceActions : List OpAction := [.look 0, .look 1, .claim 0, .body 0, .claim 1, .relook 1]

def raceEnd : OpState ℕ (Option String) String :=
  ((countingCalls (some "done")).execAll countingStart raceActions).getD countingStart

theorem raceEnd_reachable : ((countingCalls (some "done")).lts.guard (countingCalls (some "done")).Faithful).Reachable
    raceEnd :=
  ⟨raceActions, countingStart, countingStart_init _, run_of_execAll countingCalls_faithful rfl⟩

theorem replay_guarantees_raceEnd :
    raceEnd.phase 0 = .returned (some "done") ∧ raceEnd.phase 1 = .returned (some "done") ∧
      (raceEnd.committed.map fun i => ((countingCalls (some "done")).calls i).operationId).Nodup ∧
      (countingCalls (some "done")).Applied raceEnd.committed raceEnd.data :=
  ⟨rfl, rfl, (replay_guarantees (countingCalls (some "done")) raceEnd raceEnd_reachable).1⟩

/-- One call, which returns `None`. -/
def nullEnd : OpState ℕ (Option String) String :=
  ((countingCalls none).execAll countingStart [.look 0, .claim 0, .body 0]).getD countingStart

/-- **A null payload**: a call would replay it, but a peek does not report the operation. -/
theorem null_payload :
    (countingCalls none).lts.Reachable nullEnd ∧ nullEnd.phase 0 = .returned none ∧
      (countingCall none).look nullEnd.table = .returned none ∧
      peekCommittedReplay textColumn nullEnd.table (countingCall none) = textColumn.null := by
  have hrun : ((countingCalls none).lts.guard fun _ _ => True).Run countingStart [.look 0, .claim 0, .body 0] nullEnd :=
    run_of_execAll (fun _ _ => trivial) rfl
  exact ⟨⟨_, countingStart, countingStart_init none, hrun.of_guard⟩, rfl, rfl, rfl⟩

end Sreda.Services
