import Sreda.Lib.Transition
import Sreda.Workers.MessageQueue

/-!
# Delivery of the outbox

`workers/outbox_delivery.py`: a tick of a worker claims a batch of rows with a token of its own
and a short lease (`_claim_batch`), and then delivers them one after the other. Before each
delivery it takes the lease again, with a fresh time and fenced by its token (`_reclaim_row`);
it then loads the row, and runs `_process_one` under a deadline. How the row is left is written
by the session that loaded it, by primary key. After a `TimeoutError` the claim is released in
a session of its own, fenced by the token (`_release_claim_by_id`).

Any number of workers run at the same time, and other workers may come between any two of
these steps. A reading of the clock may be older than the step that uses it. What the policy
says, what a send answers, and every exception and crash are left open.

The claim is the statement for PostgreSQL: rows that another worker has locked may be left
out. On SQLite, where the two halves of the claim are two statements, there is one worker.

## What is proved

* what a step does to the rows (`exec_cases`) and what every state keeps (`OutboxInv`);
* the guarantees of the delivery, as long as a worker sends and writes only while the lease of
  its row runs (`outbox_guarantees`);
* what a late write does to the claim of another worker (`late_write`).
-/

namespace Sreda.Workers

open Sreda.Lib

/-! ### The rows -/

/-- `OUTBOX_BATCH_LEASE_SECONDS`. -/
def outboxBatchLeaseSeconds : ℤ := 60

/-- `OUTBOX_LEASE_PER_ROW_SECONDS`. -/
def outboxLeasePerRowSeconds : ℤ := 40

/-- `OUTBOX_ROW_DEADLINE_SECONDS`. -/
def outboxRowDeadlineSeconds : ℤ := 25

/-- The values of `status`. -/
inductive OutboxStatus where
  | pending | sent | muted | dropped | failed
  deriving DecidableEq

/-- `OutboxMessage`. Each `uuid4` of a claim is a number that was not used before. -/
structure OutboxMessage where
  channelType : String
  status : OutboxStatus
  createdAt : ℤ
  scheduledAt : Option ℤ
  dropReason : Option String
  claimToken : Option ℕ
  leaseExpiresAt : Option ℤ
  deriving DecidableEq

/-- The rows, by their ids. -/
abbrev OutboxMessages := String → Option OutboxMessage

/-- The filter of `_claim_batch`. -/
def OutboxMessage.Claimable (row : OutboxMessage) (now : ℤ) : Prop :=
  row.status = .pending ∧ (row.channelType = "telegram" ∨ row.channelType = "max") ∧
    (row.scheduledAt = none ∨ ∃ t ∈ row.scheduledAt, t ≤ now) ∧
    (row.claimToken = none ∨ row.leaseExpiresAt = none ∨ ∃ t ∈ row.leaseExpiresAt, t < now)

instance (row : OutboxMessage) (now : ℤ) : Decidable (row.Claimable now) :=
  inferInstanceAs (Decidable (_ ∧ _ ∧ _ ∧ _))

/-- The rows that a claim may return: claimable ones, oldest first. -/
def IsClaimBatch (rows : OutboxMessages) (now : ℤ) (limit : ℕ) (ids : List String) : Prop :=
  ids.Nodup ∧ ids.length ≤ limit ∧ (∀ id ∈ ids, ∃ row ∈ rows id, row.Claimable now) ∧
    ids.Pairwise fun a b => ∀ r ∈ rows a, ∀ r' ∈ rows b, r.createdAt ≤ r'.createdAt

instance (rows : OutboxMessages) (now : ℤ) (limit : ℕ) (ids : List String) :
    Decidable (IsClaimBatch rows now limit ids) :=
  inferInstanceAs (Decidable (_ ∧ _ ∧ _ ∧ _))

def OutboxMessage.claimed (row : OutboxMessage) (token : ℕ) (lease : ℤ) : OutboxMessage :=
  { row with claimToken := some token, leaseExpiresAt := some lease }

/-- The `UPDATE` of `_claim_batch`. -/
def claimBatch (rows : OutboxMessages) (token : ℕ) (lease : ℤ) (ids : List String) : OutboxMessages := fun id =>
  if id ∈ ids then (rows id).map (·.claimed token lease) else rows id

/-- The condition of `_reclaim_row` and `_release_claim_by_id`. -/
def OutboxMessage.OwnedBy (row : OutboxMessage) (token : ℕ) : Prop :=
  row.claimToken = some token ∧ row.status = .pending

instance (row : OutboxMessage) (token : ℕ) : Decidable (row.OwnedBy token) :=
  inferInstanceAs (Decidable (_ ∧ _))

/-- `_release_claim`. -/
def OutboxMessage.releaseClaim (row : OutboxMessage) : OutboxMessage :=
  { row with claimToken := none, leaseExpiresAt := none }

/-! ### How a delivery ends -/

/-- How `_process_one` leaves the row. -/
inductive DeliveryEnd where
  | tenantDeleted
  | muted
  | deferred (scheduledAt : Option ℤ)
  /-- Marked sent without a send: no client in a test, or the text is already visible. -/
  | unsent
  | unknownBotKey
  | failed
  /-- After a send. -/
  | delivered
  /-- After a send. -/
  | deliveryError

/-- What `_process_one` assigns to the row. -/
def DeliveryEnd.assign (row : OutboxMessage) : DeliveryEnd → OutboxMessage
  | .tenantDeleted => { row with status := .dropped, dropReason := some "tenant_deleted" }
  | .muted => { row with status := .muted }
  | .deferred scheduledAt => { row with scheduledAt := scheduledAt }.releaseClaim
  | .unsent => { row with status := .sent }
  | .unknownBotKey => { row with status := .failed, dropReason := some "unknown_bot_key" }
  | .failed => { row with status := .failed }
  | .delivered => { row with status := .sent }.releaseClaim
  | .deliveryError => { row with status := .pending }.releaseClaim

/-- The ends that need no send. -/
def DeliveryEnd.withoutSend : DeliveryEnd → Bool
  | .delivered | .deliveryError => false
  | _ => true

/-- The ends that come after a send. -/
def DeliveryEnd.afterSend : DeliveryEnd → Bool
  | .delivered | .deliveryError | .failed => true
  | _ => false

/-- An attribute is written when it differs from what was loaded. -/
def written {α : Type} [DecidableEq α] (loaded new current : α) : α :=
  if new = loaded then current else new

/-- What the `UPDATE` of a session makes of a row. -/
def OutboxMessage.flush (loaded new current : OutboxMessage) : OutboxMessage :=
  { current with
    status := written loaded.status new.status current.status
    scheduledAt := written loaded.scheduledAt new.scheduledAt current.scheduledAt
    dropReason := written loaded.dropReason new.dropReason current.dropReason
    claimToken := written loaded.claimToken new.claimToken current.claimToken
    leaseExpiresAt := written loaded.leaseExpiresAt new.leaseExpiresAt current.leaseExpiresAt }

/-! ### The workers -/

/-- A row whose lease a worker has taken again, and the rest of its batch. -/
structure DeliveryTurn where
  token : ℕ
  id : String
  rest : List String
  lease : ℤ

/-- Where a worker is. -/
inductive DeliveryPhase where
  | idle
  /-- It goes on with the rest of its batch. -/
  | batch (token : ℕ) (ids : List String)
  /-- It has taken the lease again. -/
  | fenced (turn : DeliveryTurn)
  /-- `_process_one` runs on the row that was loaded. -/
  | attempt (turn : DeliveryTurn) (row : OutboxMessage) (startedAt : ℤ)
  | sending (turn : DeliveryTurn) (row : OutboxMessage) (startedAt : ℤ)
  /-- The row is assigned, and not yet written. -/
  | ending (turn : DeliveryTurn) (row new : OutboxMessage)
  /-- After a `TimeoutError`. -/
  | expired (turn : DeliveryTurn)
  | crashed

structure OutboxState where
  now : ℤ
  rows : OutboxMessages
  nextToken : ℕ
  phase : ℕ → DeliveryPhase

/-- A step of the system; `w` is the worker that takes it. -/
inductive OutboxAction where
  | tick (time : ℤ)
  /-- Someone adds a row. -/
  | enqueue (id : String) (row : OutboxMessage)
  | claim (w : ℕ) (nowUtc : ℤ) (limit : ℕ) (ids : List String)
  /-- The end of a batch. -/
  | done (w : ℕ)
  | reclaim (w : ℕ) (readAt : ℤ)
  | load (w : ℕ)
  | send (w : ℕ)
  | finish (w : ℕ) (how : DeliveryEnd)
  | commit (w : ℕ)
  | timeout (w : ℕ)
  | release (w : ℕ)
  /-- Another exception, which is logged. -/
  | fail (w : ℕ)
  | crash (w : ℕ)

namespace OutboxState

def setPhase (s : OutboxState) (w : ℕ) (phase : DeliveryPhase) : OutboxState :=
  { s with phase := Function.update s.phase w phase }

def setRow (s : OutboxState) (id : String) (row : OutboxMessage) : OutboxState :=
  { s with rows := Function.update s.rows id (some row) }

/-- `_claim_batch`. -/
def claim (s : OutboxState) (w : ℕ) (nowUtc : ℤ) (ids : List String) : OutboxState :=
  { s with
    rows := claimBatch s.rows s.nextToken (nowUtc + seconds outboxBatchLeaseSeconds) ids
    nextToken := s.nextToken + 1
    phase := Function.update s.phase w (.batch s.nextToken ids) }

/-- `_reclaim_row`. -/
def reclaim (s : OutboxState) (w token : ℕ) (id : String) (rest : List String) (readAt : ℤ) : OutboxState :=
  match s.rows id with
  | some row =>
    if row.OwnedBy token then
      (s.setRow id { row with leaseExpiresAt := some (readAt + seconds outboxLeasePerRowSeconds) }).setPhase w
        (.fenced ⟨token, id, rest, readAt + seconds outboxLeasePerRowSeconds⟩)
    else s.setPhase w (.batch token rest)
  | none => s.setPhase w (.batch token rest)

/-- The row is loaded, and passed over when it is not pending. -/
def load (s : OutboxState) (w : ℕ) (turn : DeliveryTurn) : OutboxState :=
  match s.rows turn.id with
  | some row =>
    if row.status = .pending then s.setPhase w (.attempt turn row s.now) else s.setPhase w (.batch turn.token turn.rest)
  | none => s.setPhase w (.batch turn.token turn.rest)

/-- The commit of the session that loaded the row. -/
def commit (s : OutboxState) (w : ℕ) (turn : DeliveryTurn) (row new : OutboxMessage) : OutboxState :=
  match s.rows turn.id with
  | some current => (s.setRow turn.id (row.flush new current)).setPhase w (.batch turn.token turn.rest)
  | none => s.setPhase w (.batch turn.token turn.rest)

/-- `_release_claim_by_id`. -/
def release (s : OutboxState) (w : ℕ) (turn : DeliveryTurn) : OutboxState :=
  match s.rows turn.id with
  | some row =>
    if row.OwnedBy turn.token then (s.setRow turn.id row.releaseClaim).setPhase w (.batch turn.token turn.rest)
    else s.setPhase w (.batch turn.token turn.rest)
  | none => s.setPhase w (.batch turn.token turn.rest)

/-- What an action does; nothing when it cannot be taken. -/
def exec (s : OutboxState) : OutboxAction → Option OutboxState
  | .tick time => if s.now ≤ time then some { s with now := time } else none
  | .enqueue id row => if s.rows id = none ∧ row.claimToken = none then some (s.setRow id row) else none
  | .claim w nowUtc limit ids =>
    match s.phase w with
    | .idle => if nowUtc ≤ s.now ∧ IsClaimBatch s.rows nowUtc limit ids then some (s.claim w nowUtc ids) else none
    | _ => none
  | .done w =>
    match s.phase w with
    | .batch _ [] => some (s.setPhase w .idle)
    | _ => none
  | .reclaim w readAt =>
    match s.phase w with
    | .batch token (id :: rest) => if readAt ≤ s.now then some (s.reclaim w token id rest readAt) else none
    | _ => none
  | .load w =>
    match s.phase w with
    | .fenced turn => some (s.load w turn)
    | _ => none
  | .send w =>
    match s.phase w with
    | .attempt turn row startedAt => some (s.setPhase w (.sending turn row startedAt))
    | _ => none
  | .finish w how =>
    match s.phase w with
    | .attempt turn row _ => if how.withoutSend then some (s.setPhase w (.ending turn row (how.assign row))) else none
    | .sending turn row _ => if how.afterSend then some (s.setPhase w (.ending turn row (how.assign row))) else none
    | _ => none
  | .commit w =>
    match s.phase w with
    | .ending turn row new => some (s.commit w turn row new)
    | _ => none
  | .timeout w =>
    match s.phase w with
    | .attempt turn _ _ | .sending turn _ _ => some (s.setPhase w (.expired turn))
    | _ => none
  | .release w =>
    match s.phase w with
    | .expired turn => some (s.release w turn)
    | _ => none
  | .fail w =>
    match s.phase w with
    | .fenced turn | .attempt turn _ _ | .sending turn _ _ | .ending turn _ _ | .expired turn =>
      some (s.setPhase w (.batch turn.token turn.rest))
    | .batch token (_ :: rest) => some (s.setPhase w (.batch token rest))
    | _ => none
  | .crash w => some (s.setPhase w .crashed)

/-- Row `id` is being sent by `w`. -/
def Sending (s : OutboxState) (w : ℕ) (id : String) : Prop :=
  ∃ turn row startedAt, s.phase w = .sending turn row startedAt ∧ turn.id = id

def MarkedSent (s : OutboxState) (id : String) : Prop := ∃ row ∈ s.rows id, row.status = .sent

end OutboxState

/-- The delivery, from any rows: claims may be left over, of tokens that are not used again. -/
def outbox : Lts OutboxState OutboxAction where
  init s := (∀ w, s.phase w = .idle) ∧ ∀ id, ∀ row ∈ s.rows id, ∀ token ∈ row.claimToken, token < s.nextToken
  step s a t := s.exec a = some t

/-! ### What a step does -/

namespace DeliveryPhase

/-- The token of the batch that the worker is at. -/
def token? : DeliveryPhase → Option ℕ
  | .batch token _ => some token
  | .fenced turn | .attempt turn _ _ | .sending turn _ _ | .ending turn _ _ | .expired turn => some turn.token
  | .idle | .crashed => none

/-- The row whose lease the worker relies on. -/
def held : DeliveryPhase → Option DeliveryTurn
  | .fenced turn | .attempt turn _ _ | .sending turn _ _ | .ending turn _ _ => some turn
  | _ => none

/-- The row that the worker is about to write or to release. -/
def leaving : DeliveryPhase → Option DeliveryTurn
  | .ending turn _ _ | .expired turn => some turn
  | _ => none

end DeliveryPhase

namespace OutboxState

@[simp] theorem setPhase_phase_self (s : OutboxState) (w : ℕ) (p : DeliveryPhase) : (s.setPhase w p).phase w = p :=
  Function.update_self ..

variable {w : ℕ} {turn : DeliveryTurn} {row : OutboxMessage} {a : OutboxAction}

theorem setPhase_phase_ne {s : OutboxState} {w' : ℕ} (h : w' ≠ w) (p : DeliveryPhase) :
    (s.setPhase w p).phase w' = s.phase w' := Function.update_of_ne h ..

@[simp] theorem setRow_rows_self (s : OutboxState) (id : String) (row : OutboxMessage) :
    (s.setRow id row).rows id = some row := Function.update_self ..

theorem setRow_rows_ne {s : OutboxState} {id id' : String} (h : id' ≠ id) (row : OutboxMessage) :
    (s.setRow id row).rows id' = s.rows id' := Function.update_of_ne h ..

/-- A step that changes no row: worker `w` goes on, and takes no new token and no new lease. -/
structure Quiet (s t : OutboxState) (a : OutboxAction) (w : ℕ) (p : DeliveryPhase) : Prop where
  eq : t = s.setPhase w p
  token : ∀ token, p.token? = some token → (s.phase w).token? = some token
  held : ∀ turn, p.held = some turn → (s.phase w).held = some turn
  sending : ∀ turn row startedAt, p = .sending turn row startedAt →
    a = .send w ∧ s.phase w = .attempt turn row startedAt
  ending : ∀ turn row new, p = .ending turn row new → ∃ how : DeliveryEnd, new = how.assign row

/-- Worker `w` writes `row` in place of `current`, and is then in phase `p`. -/
structure Writes (s t : OutboxState) (w : ℕ) (id : String) (current row : OutboxMessage)
    (p : DeliveryPhase) : Prop where
  eq : t = (s.setRow id row).setPhase w p
  current : s.rows id = some current
  token : ∀ token, p.token? = some token → (s.phase w).token? = some token

/-- To go on with the rest of the batch is quiet. -/
theorem Quiet.batch {s : OutboxState} {token : ℕ} (a : OutboxAction) (ids : List String)
    (h : (s.phase w).token? = some token) : s.Quiet (s.setPhase w (.batch token ids)) a w (.batch token ids) where
  eq := rfl
  token _ htoken := h.trans htoken
  held _ hheld := by cases hheld
  sending _ _ _ hsending := by cases hsending
  ending _ _ _ hending := by cases hending

theorem Quiet.expired {s : OutboxState} (a : OutboxAction)
    (h : (s.phase w).token? = some turn.token) : s.Quiet (s.setPhase w (.expired turn)) a w (.expired turn) where
  eq := rfl
  token _ htoken := h.trans htoken
  held _ hheld := by cases hheld
  sending _ _ _ hsending := by cases hsending
  ending _ _ _ hending := by cases hending

theorem Quiet.off {s : OutboxState} (a : OutboxAction) (w : ℕ) {p : DeliveryPhase} (h : p = .idle ∨ p = .crashed) :
    s.Quiet (s.setPhase w p) a w p := by
  have htoken : p.token? = none := by obtain rfl | rfl := h <;> rfl
  have hheld : p.held = none := by obtain rfl | rfl := h <;> rfl
  refine ⟨rfl, fun _ h => ?_, fun _ h => ?_, fun _ _ _ hp => ?_, fun _ _ _ hp => ?_⟩
  · rw [htoken] at h
    cases h
  · rw [hheld] at h
    cases h
  · rw [hp] at htoken
    cases htoken
  · rw [hp] at htoken
    cases htoken

theorem reclaim_cases {s : OutboxState} {token : ℕ} {id : String} {rest : List String} (readAt : ℤ)
    (h : s.phase w = .batch token (id :: rest)) :
    s.reclaim w token id rest readAt = s.setPhase w (.batch token rest) ∨
      ∃ turn row, turn.id = id ∧ row.OwnedBy turn.token ∧
        s.Writes (s.reclaim w token id rest readAt) w turn.id row { row with leaseExpiresAt := some turn.lease }
          (.fenced turn) := by
  unfold reclaim
  split
  · next row hrow =>
    split
    · next hown =>
      exact .inr ⟨⟨token, id, rest, _⟩, row, rfl, hown, rfl, hrow, fun tok htok => by rw [h]; exact htok⟩
    · exact .inl rfl
  · exact .inl rfl

theorem load_cases (s : OutboxState) (w : ℕ) (turn : DeliveryTurn) :
    s.load w turn = s.setPhase w (.batch turn.token turn.rest) ∨
      ∃ row, s.load w turn = s.setPhase w (.attempt turn row s.now) := by
  unfold load
  split
  · split
    · exact .inr ⟨_, rfl⟩
    · exact .inl rfl
  · exact .inl rfl

theorem commit_cases {s : OutboxState} {new : OutboxMessage} (h : s.phase w = .ending turn row new) :
    s.commit w turn row new = s.setPhase w (.batch turn.token turn.rest) ∨
      ∃ current, s.Writes (s.commit w turn row new) w turn.id current (row.flush new current)
        (.batch turn.token turn.rest) := by
  unfold commit
  split
  · next current hcurrent => exact .inr ⟨current, rfl, hcurrent, fun tok htok => by rw [h]; exact htok⟩
  · exact .inl rfl

theorem release_cases {s : OutboxState} (h : s.phase w = .expired turn) :
    s.release w turn = s.setPhase w (.batch turn.token turn.rest) ∨
      ∃ row, row.OwnedBy turn.token ∧
        s.Writes (s.release w turn) w turn.id row row.releaseClaim (.batch turn.token turn.rest) := by
  unfold release
  split
  · next row hrow =>
    split
    · next hown => exact .inr ⟨row, hown, rfl, hrow, fun tok htok => by rw [h]; exact htok⟩
    · exact .inl rfl
  · exact .inl rfl

theorem exec_commit {s t : OutboxState} (h : s.exec (.commit w) = some t) :
    ∃ turn row new, s.phase w = .ending turn row new ∧ s.commit w turn row new = t := by
  simp only [exec] at h
  split at h
  · next turn row new hphase => exact ⟨turn, row, new, hphase, Option.some.inj h⟩
  · cases h

theorem exec_release {s t : OutboxState} (h : s.exec (.release w) = some t) :
    ∃ turn, s.phase w = .expired turn ∧ s.release w turn = t := by
  simp only [exec] at h
  split at h
  · next turn hphase => exact ⟨turn, hphase, Option.some.inj h⟩
  · cases h

/-- **What a step does**: it is quiet, or it is one of these. -/
inductive Effect (s t : OutboxState) : OutboxAction → Prop where
  | quiet {a : OutboxAction} {w : ℕ} {p : DeliveryPhase} (h : s.Quiet t a w p) : Effect s t a
  | tick {time : ℤ} (hle : s.now ≤ time) (h : t = { s with now := time }) : Effect s t (.tick time)
  | enqueue {id : String} {row : OutboxMessage} (hnew : s.rows id = none) (hfree : row.claimToken = none)
      (h : t = s.setRow id row) : Effect s t (.enqueue id row)
  | claim {w : ℕ} {nowUtc : ℤ} {limit : ℕ} {ids : List String} (hnow : nowUtc ≤ s.now)
      (hbatch : IsClaimBatch s.rows nowUtc limit ids) (h : t = s.claim w nowUtc ids) :
      Effect s t (.claim w nowUtc limit ids)
  | reclaim {w : ℕ} {readAt : ℤ} {turn : DeliveryTurn} {row : OutboxMessage} (hown : row.OwnedBy turn.token)
      (h : s.Writes t w turn.id row { row with leaseExpiresAt := some turn.lease } (.fenced turn)) :
      Effect s t (.reclaim w readAt)
  | commit {w : ℕ} {turn : DeliveryTurn} {row new current : OutboxMessage} (hphase : s.phase w = .ending turn row new)
      (h : s.Writes t w turn.id current (row.flush new current) (.batch turn.token turn.rest)) :
      Effect s t (.commit w)
  | release {w : ℕ} {turn : DeliveryTurn} {row : OutboxMessage} (hphase : s.phase w = .expired turn)
      (hown : row.OwnedBy turn.token) (h : s.Writes t w turn.id row row.releaseClaim (.batch turn.token turn.rest)) :
      Effect s t (.release w)

theorem exec_effect {s t : OutboxState} (h : s.exec a = some t) : s.Effect t a := by
  cases a with
  | tick time =>
    simp only [exec] at h
    split at h
    · next hle => cases h; exact .tick hle rfl
    · cases h
  | enqueue id row =>
    simp only [exec] at h
    split at h
    · next hnew => cases h; exact .enqueue hnew.1 hnew.2 rfl
    · cases h
  | claim w nowUtc limit ids =>
    simp only [exec] at h
    split at h
    · split at h
      · next hok => cases h; exact .claim hok.1 hok.2 rfl
      · cases h
    · cases h
  | done w =>
    simp only [exec] at h
    split at h
    · cases h
      exact .quiet (.off _ w (.inl rfl))
    · cases h
  | reclaim w readAt =>
    simp only [exec] at h
    split at h
    · next token id rest hphase =>
      split at h
      · cases h
        obtain heq | ⟨turn, row, -, hown, hwrites⟩ := reclaim_cases readAt hphase
        · exact heq ▸ .quiet (.batch _ rest (by rw [hphase]; rfl))
        · exact .reclaim hown hwrites
      · cases h
    · cases h
  | load w =>
    simp only [exec] at h
    split at h
    · next turn hphase =>
      cases h
      obtain heq | ⟨row, heq⟩ := load_cases s w turn
      · exact heq ▸ .quiet (.batch _ turn.rest (by rw [hphase]; rfl))
      · exact .quiet ⟨heq, fun _ h => (hphase ▸ h), fun _ h => (hphase ▸ h),
          fun _ _ _ h => (by cases h), fun _ _ _ h => (by cases h)⟩
    · cases h
  | send w =>
    simp only [exec] at h
    split at h
    · next turn row startedAt hphase =>
      cases h
      exact .quiet ⟨rfl, fun _ h => (hphase ▸ h), fun _ h => (hphase ▸ h),
        fun _ _ _ h => (by cases h; exact ⟨rfl, hphase⟩), fun _ _ _ h => (by cases h)⟩
    · cases h
  | finish w how =>
    simp only [exec] at h
    split at h
    · next turn row startedAt hphase =>
      split at h
      · cases h
        exact .quiet ⟨rfl, fun _ h => (hphase ▸ h), fun _ h => (hphase ▸ h),
          fun _ _ _ h => (by cases h), fun _ _ _ h => (by cases h; exact ⟨how, rfl⟩)⟩
      · cases h
    · next turn row startedAt hphase =>
      split at h
      · cases h
        exact .quiet ⟨rfl, fun _ h => (hphase ▸ h), fun _ h => (hphase ▸ h),
          fun _ _ _ h => (by cases h), fun _ _ _ h => (by cases h; exact ⟨how, rfl⟩)⟩
      · cases h
    · cases h
  | commit w =>
    obtain ⟨turn, row, new, hphase, rfl⟩ := exec_commit h
    obtain heq | ⟨current, hwrites⟩ := commit_cases hphase
    · exact heq ▸ .quiet (.batch _ turn.rest (by rw [hphase]; rfl))
    · exact .commit hphase hwrites
  | timeout w =>
    simp only [exec] at h
    split at h
    · next turn row startedAt hphase =>
      cases h
      exact .quiet (.expired _ (by rw [hphase]; rfl))
    · next turn row startedAt hphase =>
      cases h
      exact .quiet (.expired _ (by rw [hphase]; rfl))
    · cases h
  | release w =>
    obtain ⟨turn, hphase, rfl⟩ := exec_release h
    obtain heq | ⟨row, hown, hwrites⟩ := release_cases hphase
    · exact heq ▸ .quiet (.batch _ turn.rest (by rw [hphase]; rfl))
    · exact .release hphase hown hwrites
  | fail w =>
    simp only [exec] at h
    split at h
    all_goals first
      | cases h; done
      | next hphase => cases h; exact .quiet (.batch _ _ (by rw [hphase]; rfl))
  | crash w =>
    obtain rfl : s.setPhase w .crashed = t := Option.some.inj h
    exact .quiet (.off _ w (.inr rfl))

/-! ### What every state keeps -/

/-- The row is held under the token and the lease of the turn. -/
def HeldBy (s : OutboxState) (turn : DeliveryTurn) : Prop :=
  ∃ row, s.rows turn.id = some row ∧ row.OwnedBy turn.token ∧ row.leaseExpiresAt = some turn.lease

end OutboxState

open OutboxState

/-- The assumption: a send ends within the deadline. -/
def WithinDeadline (s : OutboxState) : OutboxAction → Prop
  | .tick time => ∀ w turn row startedAt, s.phase w = .sending turn row startedAt →
      time ≤ startedAt + seconds outboxRowDeadlineSeconds
  | _ => True

/-- A worker sends, and writes how the delivery ended, only while the lease of the row runs. -/
def WithinLease (s : OutboxState) : OutboxAction → Prop
  | .tick time => ∀ w turn row startedAt, s.phase w = .sending turn row startedAt → time ≤ turn.lease
  | .send w => ∀ turn row startedAt, s.phase w = .attempt turn row startedAt → s.now ≤ turn.lease
  | .commit w => ∀ turn row new, s.phase w = .ending turn row new → s.now ≤ turn.lease
  | _ => True

def OnTime (s : OutboxState) (a : OutboxAction) : Prop := WithinDeadline s a ∧ WithinLease s a

/-- What every state keeps. -/
structure OutboxInv (s : OutboxState) : Prop where
  rowToken : ∀ id row token, s.rows id = some row → row.claimToken = some token → token < s.nextToken
  token : ∀ w token, (s.phase w).token? = some token → token < s.nextToken
  /-- No two workers have the same token. -/
  distinct : ∀ w w' token, (s.phase w).token? = some token → (s.phase w').token? = some token → w = w'
  /-- As long as its lease runs, a worker holds its row. -/
  held : ∀ w turn, (s.phase w).held = some turn → s.now ≤ turn.lease → s.HeldBy turn
  /-- The lease of a row that is being sent runs. -/
  sending : ∀ w turn row startedAt, s.phase w = .sending turn row startedAt → s.now ≤ turn.lease
  assigned : ∀ w turn row new, s.phase w = .ending turn row new → ∃ how : DeliveryEnd, new = how.assign row

namespace DeliveryPhase

theorem token?_of_held {p : DeliveryPhase} (h : p.held = some turn) : p.token? = some turn.token := by
  cases p <;> simp_all [held, token?]

end DeliveryPhase

namespace OutboxState

/-- What a phase that goes on has, it had before. -/
theorem setPhase_keeps {α : Type} {s : OutboxState} {p : DeliveryPhase} {f : DeliveryPhase → Option α}
    (h : ∀ x, f p = some x → f (s.phase w) = some x) (w' : ℕ) (x : α)
    (hx : f ((s.setPhase w p).phase w') = some x) : f (s.phase w') = some x := by
  by_cases hw : w' = w
  · subst hw
    rw [setPhase_phase_self] at hx
    exact h x hx
  · rwa [setPhase_phase_ne hw] at hx

theorem HeldBy.congr {s t : OutboxState} (h : s.HeldBy turn)
    (hrows : t.rows turn.id = s.rows turn.id) : t.HeldBy turn := by
  obtain ⟨row, hrow, hown⟩ := h
  exact ⟨row, hrows.trans hrow, hown⟩

/-- Two workers that hold a row have the same token. -/
theorem HeldBy.token_eq {s : OutboxState} {token : ℕ} (h : s.HeldBy turn)
    (hrow : s.rows turn.id = some row) (hown : row.OwnedBy token) : turn.token = token := by
  obtain ⟨row', hrow', hown', -⟩ := h
  obtain rfl : row = row' := Option.some.inj (hrow.symm.trans hrow')
  exact Option.some.inj (hown'.1.symm.trans hown.1)

theorem HeldBy.not_claimable {s : OutboxState} (h : s.HeldBy turn) (hlease : s.now ≤ turn.lease)
    {nowUtc : ℤ} (hnow : nowUtc ≤ s.now) (hrow : s.rows turn.id = some row) :
    ¬ row.Claimable nowUtc := by
  rintro ⟨-, -, -, hfree⟩
  obtain ⟨row', hrow', ⟨htoken, -⟩, hexp⟩ := h
  obtain rfl : row = row' := Option.some.inj (hrow.symm.trans hrow')
  rw [htoken, hexp] at hfree
  obtain hfree | hfree | ⟨t, ht, hlt⟩ := hfree
  · cases hfree
  · cases hfree
  · cases ht
    omega

end OutboxState

namespace OutboxInv

theorem quiet {s t : OutboxState} {p : DeliveryPhase} (inv : OutboxInv s)
    (h : s.Quiet t a w p) (hlease : WithinLease s a) : OutboxInv t := by
  obtain ⟨rfl, htoken, hheld, hsending, hending⟩ := h
  have htoken := setPhase_keeps htoken
  have hheld := setPhase_keeps hheld
  refine ⟨inv.rowToken, fun w' tok h => inv.token w' tok (htoken _ _ h),
    fun w₁ w₂ tok h₁ h₂ => inv.distinct w₁ w₂ tok (htoken _ _ h₁) (htoken _ _ h₂),
    fun w' turn h hle => inv.held w' turn (hheld _ _ h) hle, ?_, ?_⟩
  · intro w' turn row startedAt h
    by_cases hw : w' = w
    · subst hw
      rw [setPhase_phase_self] at h
      obtain ⟨rfl, hphase⟩ := hsending turn row startedAt h
      exact hlease turn row startedAt hphase
    · rw [setPhase_phase_ne hw] at h
      exact inv.sending w' turn row startedAt h
  · intro w' turn row new h
    by_cases hw : w' = w
    · subst hw
      rw [setPhase_phase_self] at h
      exact hending turn row new h
    · rw [setPhase_phase_ne hw] at h
      exact inv.assigned w' turn row new h

theorem tick {s : OutboxState} {time : ℤ} (inv : OutboxInv s) (hle : s.now ≤ time)
    (hlease : WithinLease s (.tick time)) : OutboxInv { s with now := time } where
  rowToken := inv.rowToken
  token := inv.token
  distinct := inv.distinct
  held w turn h hlt := (inv.held w turn h (hle.trans hlt)).congr rfl
  sending := hlease
  assigned := inv.assigned

theorem enqueue {s : OutboxState} {id : String} (inv : OutboxInv s) (hnew : s.rows id = none)
    (hfree : row.claimToken = none) : OutboxInv (s.setRow id row) where
  rowToken id' row' token hrow htoken := by
    by_cases hid : id' = id
    · subst hid
      rw [setRow_rows_self] at hrow
      cases hrow
      rw [hfree] at htoken
      cases htoken
    · rw [setRow_rows_ne hid] at hrow
      exact inv.rowToken id' row' token hrow htoken
  token := inv.token
  distinct := inv.distinct
  held w turn h hle := by
    have hby := inv.held w turn h hle
    have ⟨_, hrow, _⟩ := hby
    refine hby.congr (setRow_rows_ne (fun hid => ?_) row)
    rw [hid, hnew] at hrow
    cases hrow
  sending := inv.sending
  assigned := inv.assigned

theorem claim {s : OutboxState} {nowUtc : ℤ} {limit : ℕ} {ids : List String} (inv : OutboxInv s)
    (hnow : nowUtc ≤ s.now) (hbatch : IsClaimBatch s.rows nowUtc limit ids) : OutboxInv (s.claim w nowUtc ids) := by
  have hself : (s.claim w nowUtc ids).phase w = .batch s.nextToken ids := Function.update_self ..
  have hother : ∀ w' ≠ w, (s.claim w nowUtc ids).phase w' = s.phase w' := fun w' hw => Function.update_of_ne hw ..
  have hrows : ∀ id, (s.claim w nowUtc ids).rows id = s.rows id ∨
      (id ∈ ids ∧ (s.claim w nowUtc ids).rows id =
        (s.rows id).map (·.claimed s.nextToken (nowUtc + seconds outboxBatchLeaseSeconds))) := by
    intro id
    by_cases hid : id ∈ ids
    · exact .inr ⟨hid, if_pos hid⟩
    · exact .inl (if_neg hid)
  refine ⟨?_, ?_, ?_, ?_, ?_, ?_⟩
  · intro id row token hrow htoken
    show token < s.nextToken + 1
    obtain heq | ⟨-, heq⟩ := hrows id
    · have := inv.rowToken id row token (heq ▸ hrow) htoken
      omega
    · rw [heq, Option.map_eq_some_iff] at hrow
      obtain ⟨row₀, -, rfl⟩ := hrow
      cases htoken
      omega
  · intro w' token h
    show token < s.nextToken + 1
    by_cases hw : w' = w
    · rw [hw, hself] at h
      cases h
      omega
    · rw [hother w' hw] at h
      have := inv.token w' token h
      omega
  · intro w₁ w₂ token h₁ h₂
    by_cases hw₁ : w₁ = w
    · by_cases hw₂ : w₂ = w
      · rw [hw₁, hw₂]
      · rw [hw₁, hself] at h₁
        rw [hother w₂ hw₂] at h₂
        cases h₁
        exact absurd (inv.token w₂ _ h₂) (lt_irrefl _)
    · rw [hother w₁ hw₁] at h₁
      by_cases hw₂ : w₂ = w
      · rw [hw₂, hself] at h₂
        cases h₂
        exact absurd (inv.token w₁ _ h₁) (lt_irrefl _)
      · rw [hother w₂ hw₂] at h₂
        exact inv.distinct w₁ w₂ token h₁ h₂
  · intro w' turn h hle
    by_cases hw : w' = w
    · rw [hw, hself] at h
      cases h
    · rw [hother w' hw] at h
      have hby := inv.held w' turn h hle
      obtain heq | ⟨hid, -⟩ := hrows turn.id
      · exact hby.congr heq
      · obtain ⟨row, hrow, hclaimable⟩ := hbatch.2.2.1 _ hid
        exact absurd hclaimable (hby.not_claimable hle hnow hrow)
  · intro w' turn row startedAt h
    by_cases hw : w' = w
    · rw [hw, hself] at h
      cases h
    · rw [hother w' hw] at h
      exact inv.sending w' turn row startedAt h
  · intro w' turn row new h
    by_cases hw : w' = w
    · rw [hw, hself] at h
      cases h
    · rw [hother w' hw] at h
      exact inv.assigned w' turn row new h

theorem writes {s t : OutboxState} {token : ℕ} {id : String} {current : OutboxMessage} {p : DeliveryPhase}
    (inv : OutboxInv s) (h : s.Writes t w id current row p) (htoken : (s.phase w).token? = some token)
    (hown : current.OwnedBy token) (hkept : ∀ tok, row.claimToken = some tok → current.claimToken = some tok)
    (hheld : ∀ turn, p.held = some turn → t.HeldBy turn) (hending : p.leaving = none)
    (hsending : ∀ turn row startedAt, p ≠ .sending turn row startedAt) : OutboxInv t := by
  obtain ⟨rfl, hcurrent, hp⟩ := h
  have htokens := setPhase_keeps (s := s.setRow id row) hp
  have hother : ∀ w' ≠ w, ((s.setRow id row).setPhase w p).phase w' = s.phase w' :=
    fun w' hw => setPhase_phase_ne hw p
  refine ⟨?_, fun w' tok h => inv.token w' tok (htokens _ _ h), fun w₁ w₂ tok h₁ h₂ =>
    inv.distinct w₁ w₂ tok (htokens _ _ h₁) (htokens _ _ h₂), ?_, ?_, ?_⟩
  · intro id' row' tok hrow' htok
    by_cases hid : id' = id
    · subst hid
      rw [show ((s.setRow id' row).setPhase w p).rows id' = some row from setRow_rows_self ..] at hrow'
      cases hrow'
      exact inv.rowToken id' current tok hcurrent (hkept tok htok)
    · rw [show ((s.setRow id row).setPhase w p).rows id' = s.rows id' from setRow_rows_ne hid row] at hrow'
      exact inv.rowToken id' row' tok hrow' htok
  · intro w' turn h hle
    by_cases hw : w' = w
    · subst hw
      rw [setPhase_phase_self] at h
      exact hheld turn h
    · rw [hother w' hw] at h
      have hby := inv.held w' turn h hle
      refine hby.congr (setRow_rows_ne (fun hid => hw ?_) row)
      -- else the other worker would have the same token
      have heq := hby.token_eq (hid ▸ hcurrent) hown
      exact inv.distinct w' w token (heq ▸ DeliveryPhase.token?_of_held h) htoken
  · intro w' turn row' startedAt h
    by_cases hw : w' = w
    · subst hw
      rw [setPhase_phase_self] at h
      exact absurd h (hsending turn row' startedAt)
    · rw [hother w' hw] at h
      exact inv.sending w' turn row' startedAt h
  · intro w' turn row' new h
    by_cases hw : w' = w
    · subst hw
      rw [setPhase_phase_self] at h
      rw [h] at hending
      cases hending
    · rw [hother w' hw] at h
      exact inv.assigned w' turn row' new h

end OutboxInv

theorem flush_claimToken (row current : OutboxMessage) (how : DeliveryEnd) :
    (row.flush (how.assign row) current).claimToken = current.claimToken ∨
      (row.flush (how.assign row) current).claimToken = none := by
  have hassign : (how.assign row).claimToken = row.claimToken ∨ (how.assign row).claimToken = none := by
    cases how
    case deferred | delivered | deliveryError => exact .inr rfl
    all_goals exact .inl rfl
  show written row.claimToken (how.assign row).claimToken current.claimToken = _ ∨
    written row.claimToken (how.assign row).claimToken current.claimToken = _
  by_cases h : (how.assign row).claimToken = row.claimToken
  · exact .inl (if_pos h)
  · exact .inr ((if_neg h).trans (hassign.resolve_left h))

namespace OutboxInv

/-- A worker that commits in time owns its row. -/
theorem owned_of_commit {s : OutboxState} {new current : OutboxMessage}
    (inv : OutboxInv s) (hlease : WithinLease s (.commit w)) (hphase : s.phase w = .ending turn row new)
    (hcurrent : s.rows turn.id = some current) : current.OwnedBy turn.token := by
  obtain ⟨row', hrow', hown, -⟩ := inv.held w turn (by rw [hphase]; rfl) (hlease turn row new hphase)
  exact Option.some.inj (hcurrent.symm.trans hrow') ▸ hown

/-- **A step in time keeps the invariant.** -/
theorem step {s t : OutboxState} (inv : OutboxInv s) (hexec : s.exec a = some t)
    (htime : OnTime s a) : OutboxInv t := by
  cases exec_effect hexec with
  | quiet h => exact inv.quiet h htime.2
  | tick hle h => exact h ▸ inv.tick hle htime.2
  | enqueue hnew hfree h => exact h ▸ inv.enqueue hnew hfree
  | claim hnow hbatch h => exact h ▸ inv.claim hnow hbatch
  | @reclaim w _ turn row hown h =>
    refine inv.writes h (h.token _ rfl) hown (fun _ htok => htok) (fun turn' hheld => ?_) rfl fun _ _ _ h => by cases h
    cases hheld
    refine ⟨{ row with leaseExpiresAt := some turn.lease }, ?_, hown, rfl⟩
    rw [h.eq]
    exact setRow_rows_self ..
  | @commit w turn row new current hphase h =>
    have hown := inv.owned_of_commit htime.2 hphase h.current
    obtain ⟨how, rfl⟩ := inv.assigned w turn row new hphase
    refine inv.writes h (h.token _ rfl) hown (fun tok htok => ?_) (fun _ h => by cases h) rfl fun _ _ _ h => by cases h
    obtain heq | heq := flush_claimToken row current how
    · exact heq ▸ htok
    · rw [heq] at htok
      cases htok
  | @release w turn row hphase hown h =>
    refine inv.writes h (h.token _ rfl) hown (fun _ htok => by cases htok) (fun _ h => by cases h) rfl
      fun _ _ _ h => by cases h

end OutboxInv

theorem OutboxInv.init {s : OutboxState} (h : outbox.init s) : OutboxInv s where
  rowToken id row token hrow htoken := h.2 id row hrow token htoken
  token w token htoken := by
    rw [h.1 w] at htoken
    cases htoken
  distinct w _ token htoken := by
    rw [h.1 w] at htoken
    cases htoken
  held w turn hheld := by
    rw [h.1 w] at hheld
    cases hheld
  sending w turn row startedAt hphase := by
    rw [h.1 w] at hphase
    cases hphase
  assigned w turn row new hphase := by
    rw [h.1 w] at hphase
    cases hphase

/-- **Every state of a run in time keeps the invariant.** -/
theorem outboxInv_of_reachable {s : OutboxState} (h : (outbox.guard OnTime).Reachable s) : OutboxInv s :=
  h.induct (fun _ hs => .init hs) fun _ _ _ _ inv hstep => inv.step hstep.1 hstep.2

/-! ### The guarantees -/

/-- A row that is being sent is pending, and held by the worker that sends it. -/
theorem OutboxInv.sending_held {s : OutboxState} (inv : OutboxInv s) {id : String} (h : s.Sending w id) :
    ∃ (turn : DeliveryTurn) (row : OutboxMessage), turn.id = id ∧ (s.phase w).token? = some turn.token ∧
      s.rows id = some row ∧ row.OwnedBy turn.token := by
  obtain ⟨turn, loaded, startedAt, hphase, rfl⟩ := h
  have hheld : (s.phase w).held = some turn := by rw [hphase]; rfl
  obtain ⟨row, hrow, hown, -⟩ := inv.held w turn hheld (inv.sending w turn loaded startedAt hphase)
  exact ⟨turn, row, rfl, DeliveryPhase.token?_of_held hheld, hrow, hown⟩

/-- **A row that was marked sent stays so**, as long as every worker writes in time. -/
theorem markedSent_kept {s t : OutboxState} (inv : OutboxInv s) (hexec : s.exec a = some t)
    (htime : OnTime s a) {id : String} (hsent : s.MarkedSent id) : t.MarkedSent id := by
  obtain ⟨row, hrow, hstatus⟩ := hsent
  have kept : ∀ {w : ℕ} {id' : String} {current new : OutboxMessage} {p : DeliveryPhase},
      s.Writes t w id' current new p → current.status = .pending → t.MarkedSent id := by
    rintro w id' current new p ⟨rfl, hcurrent, -⟩ hpending
    have hid : id ≠ id' := by
      rintro rfl
      obtain rfl : row = current := Option.some.inj (hrow.symm.trans hcurrent)
      rw [hstatus] at hpending
      cases hpending
    exact ⟨row, (setRow_rows_ne hid new).trans hrow, hstatus⟩
  cases exec_effect hexec with
  | quiet h => exact ⟨row, h.eq ▸ hrow, hstatus⟩
  | tick hle h => exact ⟨row, h ▸ hrow, hstatus⟩
  | @enqueue id' row' hnew hfree h =>
    have hid : id ≠ id' := by
      rintro rfl
      rw [hnew] at hrow
      cases hrow
    exact ⟨row, by rw [h]; exact (setRow_rows_ne hid row').trans hrow, hstatus⟩
  | @claim w nowUtc limit ids hnow hbatch h =>
    have hid : id ∉ ids := by
      intro hid
      obtain ⟨row', hrow', hpending, -⟩ := hbatch.2.2.1 id hid
      obtain rfl : row = row' := Option.some.inj (hrow.symm.trans hrow')
      rw [hstatus] at hpending
      cases hpending
    exact ⟨row, by rw [h]; exact (if_neg hid).trans hrow, hstatus⟩
  | reclaim hown h => exact kept h hown.2
  | commit hphase h => exact kept h (inv.owned_of_commit htime.2 hphase h.current).2
  | release hphase hown h => exact kept h hown.2

/-- What holds of a state `t` and an earlier one `s`. -/
structure OutboxGuarantees (L : Lts OutboxState OutboxAction) (s t : OutboxState) : Prop where
  /-- No two workers are sending the same row. -/
  alone : ∀ id w w', t.Sending w id → t.Sending w' id → w = w'
  /-- A row that was marked sent is not sent again. -/
  once : ∀ id w, s.MarkedSent id → ¬ t.Sending w id
  /-- A worker that has lost its claim leaves the row to the worker that has it. -/
  late : ∀ w turn row token u, (t.phase w).leaving = some turn → t.rows turn.id = some row →
    row.claimToken = some token → token ≠ turn.token → L.step t (.commit w) u ∨ L.step t (.release w) u →
    u.rows turn.id = some row

/-- **The guarantees of the delivery**: in a run in which each send ends within the deadline,
and each worker sends and writes only while the lease of its row runs, no two workers send the
same row, a row that was marked sent is not sent again, and a late release leaves the claim
of another worker. -/
theorem outbox_guarantees {s t : OutboxState} {as : List OutboxAction} (hs : (outbox.guard OnTime).Reachable s)
    (hrun : (outbox.guard OnTime).Run s as t) : OutboxGuarantees (outbox.guard OnTime) s t := by
  have inv := outboxInv_of_reachable (hs.run hrun)
  refine ⟨fun id w w' h h' => ?_, fun id w hsent hsending => ?_,
    fun w turn row token u hleaving hrow htoken hne hstep => ?_⟩
  · obtain ⟨turn, row, -, htoken, hrow, hown⟩ := inv.sending_held h
    obtain ⟨turn', row', -, htoken', hrow', hown'⟩ := inv.sending_held h'
    obtain rfl : row = row' := Option.some.inj (hrow.symm.trans hrow')
    have heq : turn.token = turn'.token := Option.some.inj (hown.1.symm.trans hown'.1)
    exact inv.distinct w w' _ htoken (heq ▸ htoken')
  · have hkept : OutboxInv t ∧ t.MarkedSent id := by
      refine hrun.keeps (P := fun s => OutboxInv s ∧ s.MarkedSent id) ?_ ⟨outboxInv_of_reachable hs, hsent⟩
      rintro s₁ a s₂ ⟨inv₁, hsent₁⟩ ⟨hexec, htime⟩
      exact ⟨inv₁.step hexec htime, markedSent_kept inv₁ hexec htime hsent₁⟩
    obtain ⟨row, hrow, hstatus⟩ := hkept.2
    obtain ⟨turn, row', -, -, hrow', hown⟩ := inv.sending_held hsending
    obtain rfl : row = row' := Option.some.inj (hrow.symm.trans hrow')
    rw [hown.2] at hstatus
    cases hstatus
  · obtain ⟨hexec, htime⟩ | ⟨hexec, -⟩ := hstep
    · obtain ⟨turn', loaded, new, hphase, -⟩ := exec_commit hexec
      rw [hphase] at hleaving
      cases hleaving
      exact absurd (Option.some.inj (htoken.symm.trans (inv.owned_of_commit htime.2 hphase hrow).1)) hne
    · obtain ⟨turn', hphase, rfl⟩ := exec_release hexec
      rw [hphase] at hleaving
      cases hleaving
      have hlost : ¬ row.OwnedBy turn.token := fun hown => hne (Option.some.inj (htoken.symm.trans hown.1))
      rw [release, hrow]
      simp only [if_neg hlost]
      exact hrow

/-! ### One row and two workers -/

def exampleMessage : OutboxMessage where
  channelType := "telegram"
  status := .pending
  createdAt := 0
  scheduledAt := none
  dropReason := none
  claimToken := none
  leaseExpiresAt := none

def exampleOutbox : OutboxState where
  now := 0
  rows id := if id = "row" then some exampleMessage else none
  nextToken := 0
  phase _ := .idle

theorem exampleOutbox_init : outbox.init exampleOutbox := by
  refine ⟨fun _ => rfl, fun id row hrow token htoken => ?_⟩
  simp only [exampleOutbox] at hrow
  split at hrow
  · cases hrow
    cases htoken
  · cases hrow

def outboxAfter (s : OutboxState) (as : List OutboxAction) : OutboxState := (as.foldlM OutboxState.exec s).getD s

/-- One worker delivers the row. -/
def exampleDelivery : List OutboxAction :=
  [.claim 0 0 50 ["row"], .reclaim 0 0, .load 0, .send 0, .finish 0 .delivered, .commit 0, .done 0]

/-- After the first actions of it. -/
def delivery (n : ℕ) : OutboxState := outboxAfter exampleOutbox (exampleDelivery.take n)

theorem delivery_run : (outbox.guard OnTime).Run exampleOutbox exampleDelivery (delivery 7) := by
  have hlease : exampleOutbox.now ≤ 0 + seconds outboxLeasePerRowSeconds := by decide
  have hclaim : (outbox.guard OnTime).step (delivery 0) (.claim 0 0 50 ["row"]) (delivery 1) := ⟨rfl, trivial, trivial⟩
  have hreclaim : (outbox.guard OnTime).step (delivery 1) (.reclaim 0 0) (delivery 2) := ⟨rfl, trivial, trivial⟩
  have hload : (outbox.guard OnTime).step (delivery 2) (.load 0) (delivery 3) := ⟨rfl, trivial, trivial⟩
  have hsend : (outbox.guard OnTime).step (delivery 3) (.send 0) (delivery 4) :=
    ⟨rfl, trivial, fun _ _ _ h => by cases h; exact hlease⟩
  have hfinish : (outbox.guard OnTime).step (delivery 4) (.finish 0 .delivered) (delivery 5) := ⟨rfl, trivial, trivial⟩
  have hcommit : (outbox.guard OnTime).step (delivery 5) (.commit 0) (delivery 6) :=
    ⟨rfl, trivial, fun _ _ _ h => by cases h; exact hlease⟩
  have hdone : (outbox.guard OnTime).step (delivery 6) (.done 0) (delivery 7) := ⟨rfl, trivial, trivial⟩
  exact ((((((Lts.Run.single hclaim).snoc hreclaim).snoc hload).snoc hsend).snoc hfinish).snoc hcommit).snoc hdone

theorem outbox_guarantees_delivery :
    (delivery 7).MarkedSent "row" ∧ OutboxGuarantees (outbox.guard OnTime) exampleOutbox (delivery 7) :=
  ⟨⟨_, rfl, rfl⟩, outbox_guarantees ⟨[], exampleOutbox, exampleOutbox_init, .nil _⟩ delivery_run⟩

/-- Worker 0 sends the row, without success, and has not yet written so. -/
def slowWorker : OutboxState :=
  outboxAfter exampleOutbox [.claim 0 0 50 ["row"], .reclaim 0 0, .load 0, .send 0, .finish 0 .deliveryError]

/-- 41 seconds later. -/
def lateWorker : OutboxState := { slowWorker with now := seconds 41 }

/-- Worker 1 sends the row. -/
def secondWorker : OutboxState :=
  outboxAfter lateWorker [.claim 1 (seconds 41) 50 ["row"], .reclaim 1 (seconds 41), .load 1, .send 1]

/-- Worker 0 writes, and worker 2 sends the row as well. -/
def thirdWorker : OutboxState :=
  outboxAfter secondWorker
    [.commit 0, .claim 2 (seconds 41) 50 ["row"], .reclaim 2 (seconds 41), .load 2, .send 2]

theorem timeless_run {s t : OutboxState} {as : List OutboxAction} (h : as.foldlM OutboxState.exec s = some t)
    (htick : ∀ time, .tick time ∉ as) : (outbox.guard WithinDeadline).Run s as t := by
  refine .of_foldlM (fun a ha s t hexec => ⟨hexec, ?_⟩) h
  cases a
  case tick time => exact absurd ha (htick time)
  all_goals trivial

theorem lateWorker_reachable : (outbox.guard WithinDeadline).Reachable lateWorker := by
  have hslow : (outbox.guard WithinDeadline).Run exampleOutbox
      [.claim 0 0 50 ["row"], .reclaim 0 0, .load 0, .send 0, .finish 0 .deliveryError] slowWorker :=
    timeless_run rfl (by simp)
  -- nothing is being sent while the time passes
  have hphase : ∃ p₁ p₂ p₃ p₄ p₅, slowWorker.phase = Function.update (Function.update (Function.update (Function.update
      (Function.update exampleOutbox.phase 0 p₁) 0 p₂) 0 p₃) 0 p₄) 0 p₅ := ⟨_, _, _, _, _, rfl⟩
  have hquiet : ∀ w turn row startedAt, slowWorker.phase w ≠ .sending turn row startedAt := by
    intro w turn row startedAt h
    obtain rfl | hw := eq_or_ne w 0
    · cases h
    · obtain ⟨p₁, p₂, p₃, p₄, p₅, hphase⟩ := hphase
      simp only [hphase, Function.update_idem, Function.update_of_ne hw] at h
      cases h
  have htick : (outbox.guard WithinDeadline).step slowWorker (.tick (seconds 41)) lateWorker :=
    ⟨rfl, fun w turn row startedAt h => absurd h (hquiet w turn row startedAt)⟩
  exact ⟨_, exampleOutbox, exampleOutbox_init, hslow.snoc htick⟩

/-- **A late write**: worker 0, whose lease is over, clears the claim of worker 1 that is
sending the row, and worker 2 then sends it at the same time. -/
theorem late_write :
    (outbox.guard WithinDeadline).Reachable secondWorker ∧
      ¬ OutboxGuarantees (outbox.guard WithinDeadline) secondWorker secondWorker ∧
    (outbox.guard WithinDeadline).Reachable thirdWorker ∧
      thirdWorker.Sending 1 "row" ∧ thirdWorker.Sending 2 "row" := by
  have hsecond : (outbox.guard WithinDeadline).Reachable secondWorker :=
    have hrun : (outbox.guard WithinDeadline).Run lateWorker
        [.claim 1 (seconds 41) 50 ["row"], .reclaim 1 (seconds 41), .load 1, .send 1] secondWorker :=
      timeless_run rfl (by simp)
    lateWorker_reachable.run hrun
  have hthird : (outbox.guard WithinDeadline).Run secondWorker
      [.commit 0, .claim 2 (seconds 41) 50 ["row"], .reclaim 2 (seconds 41), .load 2, .send 2] thirdWorker :=
    timeless_run rfl (by simp)
  refine ⟨hsecond, fun h => ?_, hsecond.run hthird, ⟨_, _, _, rfl, rfl⟩, ⟨_, _, _, rfl, rfl⟩⟩
  have hcommit : (outbox.guard WithinDeadline).step secondWorker (.commit 0) (outboxAfter secondWorker [.commit 0]) :=
    ⟨rfl, trivial⟩
  have hkept := h.late 0 _ _ 1 _ rfl rfl rfl (by decide) (.inl hcommit)
  exact absurd hkept (by decide)

end Sreda.Workers
