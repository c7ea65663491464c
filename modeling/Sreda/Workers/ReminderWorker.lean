import Mathlib.Logic.Function.Basic
import Sreda.Lib.Transition
import Sreda.Services.ReminderTaps
import Sreda.Workers.Instants

/-!
# The worker of the reminders

`workers/housewife_reminder_worker.py`: a tick reads the clock, scans for the due reminders
(`due_now`, which leaves out the rows that are locked) and then takes them one after the other,
each in a transaction of its own that locks the row, checks again that the reminder is pending and
due, enqueues a message for every channel of the user, and closes the firing cycle
(`mark_fired`). A tap on a button of a delivered reminder locks the row, acknowledges or
snoozes it and commits.

Any number of processes run ticks and taps at the same time; what they read of a row is what its
transaction found when the lock was granted. The queries of a transaction on other tables (is the
tenant active, how the user is reached, the workspace) are left open. A transaction may fail at any
place, and a process may crash.

A message of the outbox has a key made of the reminder, the trigger, the channel and the bot; the
column of the keys is unique.

## What is proved

* what the transaction of a tick does to a reminder (`tickRow_cases`);
* the locks keep what was read true until the commit (`TickInv`): the interleaving refines the
  machine that runs whole transactions, in the order of the commits (`serial_run`);
* **the ticks and the taps** (`reminder_ticks`): no message is enqueued twice, the rows are the
  result of a serial order, and no tick fires a reminder that was tapped after its scan.
-/

namespace Sreda.Workers

open Sreda.Lib Sreda.Services
open Sreda.Lib.PyText (Text)

/-! ### The outbox -/

/-- `OutboxRouting`. -/
structure OutboxRouting where
  channel : String
  chatId : String
  botKey : Option String := none

/-- A message of a reminder in `outbox_messages`; the callback data of its buttons carry the id of the
reminder. -/
structure ReminderMessage where
  tenantId : String
  userId : Option String
  workspaceId : String
  channelType : String
  chatId : String
  text : Text
  botKey : String
  reminderId : String
  /-- The trigger of this firing. -/
  fired : ℤ
  deriving DecidableEq

/-- `idem_key`. -/
def ReminderMessage.idempotencyKey (message : ReminderMessage) : String :=
  message.reminderId ++ ":" ++ isoformat message.fired ++ ":" ++ message.channelType ++ ":" ++ message.botKey

/-- The reminders and the outbox. -/
structure ReminderDb where
  table : ReminderTable
  outbox : Keyed ReminderMessage.idempotencyKey

/-- What the transaction of a tick finds in the other tables. -/
structure DeliveryEnv where
  /-- `is_tenant_active`. -/
  tenantActive : Bool
  /-- `_resolve_routings`. -/
  routings : List OutboxRouting
  /-- `_resolve_workspace_id`. -/
  workspaceId : Option String

/-- The message of a reminder for a channel. -/
def reminderMessage (row : FamilyReminder) (workspaceId : String) (routing : OutboxRouting) : ReminderMessage where
  tenantId := row.tenantId
  userId := row.userId
  workspaceId := workspaceId
  channelType := routing.channel
  chatId := routing.chatId
  text := "🔔 ".toList ++ row.title
  botKey := ((truthy routing.botKey).or (truthy (some row.botKey))).getD legacyNullBotKey
  reminderId := row.id
  fired := row.nextTriggerAt.getD row.triggerAt

/-- `_enqueue_outbox_for`: a message whose key is taken is left out. -/
def enqueueOutboxFor (env : DeliveryEnv) (row : FamilyReminder) (outbox : Keyed ReminderMessage.idempotencyKey) :
    Keyed ReminderMessage.idempotencyKey :=
  match truthy env.workspaceId with
  | none => outbox
  | some workspaceId =>
    env.routings.foldl (fun outbox routing => (outbox.insert? (reminderMessage row workspaceId routing)).getD outbox) outbox

/-! ### The transactions -/

/-- The filter of `due_now`. -/
def Due (row : FamilyReminder) (current : ℤ) : Prop :=
  row.status = .pending ∧ ∃ next ∈ row.nextTriggerAt, next ≤ current

/-- The checks under the row lock: the tenant is active, the reminder is pending and its trigger, if
there is one, has come. -/
def fence (tenantActive : Bool) (row : FamilyReminder) (current : ℤ) : Bool :=
  tenantActive && row.status = .pending && row.nextTriggerAt.all fun next => next ≤ current

/-- Later than `LATE_FIRE_GRACE_MINUTES`: the reminder is closed without a message. -/
def pastGrace (row : FamilyReminder) (current : ℤ) : Bool :=
  row.nextTriggerAt.any fun next => minutes lateFireGraceMinutes < current - next

/-- A commit that writes the row. -/
def ReminderDb.put? (db : ReminderDb) (row : FamilyReminder) (outbox : Keyed ReminderMessage.idempotencyKey) :
    Option ReminderDb :=
  (Indexed.commit? (db.table.rows.update (·.id = row.id) (fun old => { row with id := old.id }) fun _ => rfl)).map
    fun table => ⟨table, outbox⟩

variable (R : RRule)

/-- The transaction of a tick on a reminder that it has read: nothing when it is left alone. -/
def tickRow (env : DeliveryEnv) (current : ℤ) (db : ReminderDb) (row : FamilyReminder) : Option ReminderDb :=
  if fence env.tenantActive row current then
    db.put? (row.markFired R current) (if pastGrace row current then db.outbox else enqueueOutboxFor env row db.outbox)
  else none

/-- The transaction of a tap on a reminder that it has read: nothing when the commit is refused. -/
def commitTap (action : String) (now : ℤ) (db : ReminderDb) (row : FamilyReminder) : Option ReminderDb :=
  db.put? (tapRow R action now row) db.outbox

/-! ### Whole transactions, one after the other -/

/-- The transactions that commit. -/
inductive ReminderTx where
  /-- A tick fires the reminder; `mark` counts the transactions before its scan. -/
  | fire (id : String) (env : DeliveryEnv) (current : ℤ) (mark : ℕ)
  /-- A tap on the reminder. -/
  | tap (id action : String) (now : ℤ)

/-- The transaction is a tap on the reminder. -/
def ReminderTx.IsTap (id : String) : ReminderTx → Prop
  | .fire .. => False
  | .tap id' _ _ => id' = id

/-- The machine that runs whole transactions: each reads the row that it writes. -/
def serialReminders : Lts ReminderDb ReminderTx where
  init _ := True
  step db tx db' :=
    match tx with
    | .fire id env current _ => ∃ row, db.table.get? id = some row ∧ tickRow R env current db row = some db'
    | .tap id action now => ∃ row, db.table.get? id = some row ∧ commitTap R action now db row = some db'

/-! ### Processes -/

/-- A tick after its scan. -/
structure Tick where
  current : ℤ
  /-- How many transactions had committed when the scan was made. -/
  mark : ℕ

/-- Where a process is. -/
inductive Phase where
  | idle
  /-- A tick has read the clock. -/
  | captured (current : ℤ)
  /-- A tick between two reminders. -/
  | ticking (tick : Tick) (todo : List String)
  /-- A tick has locked and read a reminder. -/
  | acting (tick : Tick) (row : FamilyReminder) (todo : List String)
  /-- A tap has locked and read a reminder, at the instant `began`. -/
  | tapping (action : String) (row : FamilyReminder) (began : ℤ)

/-- The reminder that is locked, as it was read. -/
def Phase.locked : Phase → Option FamilyReminder
  | .acting _ row _ | .tapping _ row _ => some row
  | _ => none

/-- The tick after its scan, with the reminders that are left. -/
def Phase.scanned : Phase → Option (Tick × List String)
  | .ticking tick todo => some (tick, todo)
  | .acting tick row todo => some (tick, row.id :: todo)
  | _ => none

variable {π : Type} [DecidableEq π]

/-- The database and the processes. -/
structure ReminderSystem (π : Type) where
  clock : ℤ
  db : ReminderDb
  /-- The transactions in the order of their commits. -/
  log : List ReminderTx
  phases : π → Phase

/-- One process goes on. -/
def ReminderSystem.move (s : ReminderSystem π) (p : π) (phase : Phase) : ReminderSystem π :=
  { s with phases := Function.update s.phases p phase }

/-- A transaction commits and its process goes on. -/
def ReminderSystem.commit (s : ReminderSystem π) (p : π) (phase : Phase) (db : ReminderDb) (tx : ReminderTx) :
    ReminderSystem π :=
  { s with db, log := s.log ++ [tx], phases := Function.update s.phases p phase }

/-- No process has locked the reminder. -/
def ReminderSystem.Free (s : ReminderSystem π) (id : String) : Prop :=
  ∀ p, ∀ row ∈ (s.phases p).locked, row.id ≠ id

/-- What `due_now` may return: due reminders that are not locked, the earliest first. -/
structure ReminderSystem.IsDueBatch (s : ReminderSystem π) (current : ℤ) (limit : ℕ) (ids : List String) : Prop where
  nodup : ids.Nodup
  length : ids.length ≤ limit
  free : ∀ id ∈ ids, s.Free id
  due : ∀ id ∈ ids, ∃ row, s.db.table.get? id = some row ∧ Due row current
  sorted : ids.Pairwise fun a b => ∀ row ∈ s.db.table.get? a, ∀ row' ∈ s.db.table.get? b,
    ∀ next ∈ row.nextTriggerAt, ∀ next' ∈ row'.nextTriggerAt, next ≤ next'

/-- What may happen. -/
inductive WorkerEvent (π : Type) where
  | wait (clock : ℤ)
  /-- A tick begins. -/
  | capture (p : π)
  | scan (p : π) (limit : ℕ) (ids : List String)
  /-- The tick goes to its next reminder. -/
  | lockRow (p : π)
  /-- The transaction of the tick ends. -/
  | finish (p : π) (env : DeliveryEnv)
  /-- The transaction of the tick fails; the tick goes on. -/
  | fail (p : π)
  /-- A tap is granted the lock. -/
  | tap (p : π) (action id : String)
  | tapCommit (p : π) (now : ℤ)
  /-- The process is done with what it did, gives it up or crashes. -/
  | leave (p : π)

/-- One step of a process. -/
def workerStep (s : ReminderSystem π) : WorkerEvent π → ReminderSystem π → Prop
  | .wait clock, t => s.clock ≤ clock ∧ t = { s with clock }
  | .capture p, t => s.phases p = .idle ∧ t = s.move p (.captured s.clock)
  | .scan p limit ids, t => ∃ current, s.phases p = .captured current ∧ s.IsDueBatch current limit ids ∧
      t = s.move p (.ticking ⟨current, s.log.length⟩ ids)
  | .lockRow p, t => ∃ tick id todo, s.phases p = .ticking tick (id :: todo) ∧
      ((s.db.table.get? id = none ∧ t = s.move p (.ticking tick todo)) ∨
        ∃ row, s.db.table.get? id = some row ∧ s.Free id ∧ t = s.move p (.acting tick row todo))
  | .finish p env, t => ∃ tick row todo, s.phases p = .acting tick row todo ∧
      ((tickRow R env tick.current s.db row = none ∧ t = s.move p (.ticking tick todo)) ∨
        ∃ db, tickRow R env tick.current s.db row = some db ∧
          t = s.commit p (.ticking tick todo) db (.fire row.id env tick.current tick.mark))
  | .fail p, t => ∃ tick row todo, s.phases p = .acting tick row todo ∧ t = s.move p (.ticking tick todo)
  | .tap p action id, t => ∃ row, s.phases p = .idle ∧ readReminderForCallback s.db.table id = some row ∧ s.Free id ∧
      t = s.move p (.tapping action row s.clock)
  | .tapCommit p now, t => ∃ action row began, s.phases p = .tapping action row began ∧ began ≤ now ∧ now ≤ s.clock ∧
      ((commitTap R action now s.db row = none ∧ t = s.move p .idle) ∨
        ∃ db, commitTap R action now s.db row = some db ∧ t = s.commit p .idle db (.tap row.id action now))
  | .leave p, t => t = s.move p .idle

/-- Ticks and taps of the processes, in any interleaving. -/
def reminderTicks (π : Type) [DecidableEq π] : Lts (ReminderSystem π) (WorkerEvent π) where
  init s := s.log = [] ∧ ∀ p, s.phases p = .idle
  step s event t := workerStep R s event t

/-! ### One transaction -/

variable {R} {db db' : ReminderDb} {row row' : FamilyReminder} {env : DeliveryEnv} {current now : ℤ} {action : String}

/-- What a commit leaves: the row that is written, and the others. -/
theorem put?_cases {outbox : Keyed ReminderMessage.idempotencyKey} (hget : db.table.get? row.id = some row)
    (hid : row'.id = row.id) (h : db.put? row' outbox = some db') :
    db'.table.get? row.id = some row' ∧ (∀ id ≠ row.id, db'.table.get? id = db.table.get? id) ∧ db'.outbox = outbox := by
  obtain ⟨table, htable, rfl⟩ := Option.map_eq_some_iff.mp h
  have hrows := Indexed.rows_commit? htable
  refine ⟨?_, fun id hne => ?_, rfl⟩
  · rw [Indexed.get?, hrows, Keyed.get?_update]
    show (db.table.get? row.id).map _ = _
    rw [hget, Option.map_some, if_pos (by simp [hid]), ← hid]
  · rw [Indexed.get?, hrows, Keyed.get?_update]
    show (db.table.get? id).map _ = db.table.get? id
    cases hother : db.table.get? id with
    | none => rfl
    | some other =>
      have hne' : other.id ≠ row'.id := by
        rw [hid, (Keyed.get?_eq_some.mp hother).2]
        exact hne
      simp [hne']

theorem fence_iff {tenantActive : Bool} : fence tenantActive row current = true ↔
    tenantActive = true ∧ row.status = .pending ∧ ∀ next ∈ row.nextTriggerAt, next ≤ current := by
  cases hnext : row.nextTriggerAt <;> simp [fence, hnext, and_assoc]

/-- **The transaction of a tick**: it fires a reminder that is pending and whose trigger, if there
is one, has come. -/
theorem tickRow_cases (h : tickRow R env current db row = some db') :
    env.tenantActive = true ∧ row.status = .pending ∧ (∀ next ∈ row.nextTriggerAt, next ≤ current) ∧
      db.put? (row.markFired R current)
        (if pastGrace row current then db.outbox else enqueueOutboxFor env row db.outbox) = some db' := by
  unfold tickRow at h
  split at h
  next hfence =>
    obtain ⟨hactive, hstatus, hdue⟩ := fence_iff.mp hfence
    exact ⟨hactive, hstatus, hdue, h⟩
  · cases h

/-- A tick at the instant leaves the reminder alone: it is not pending, or its trigger is still to
come. -/
def Handled (row : FamilyReminder) (current : ℤ) : Prop :=
  row.status = .pending → ∃ next ∈ row.nextTriggerAt, current < next

/-- A tap handles the reminder for every tick before it. -/
theorem handled_tapRow (hle : current ≤ now) : Handled (tapRow R action now row) current := by
  unfold tapRow
  split
  · rcases FamilyReminder.advance_cases R
      { row with acknowledgedAt := some now, updatedAt := now, escalationCount := 0 } now with ⟨-, h⟩ | ⟨next, hnext, -, h⟩
    · rw [FamilyReminder.acknowledge, h]
      intro hstatus
      cases hstatus
    · rw [FamilyReminder.acknowledge, h]
      exact fun _ => ⟨next, rfl, by omega⟩
  · refine fun _ => ⟨_, rfl, ?_⟩
    simp only [minutes, snoozeDefaultMinutes]
    omega

/-- A reminder that is handled for an earlier tick stays so when another tick fires it. -/
theorem handled_markFired {earlier : ℤ} (h : Handled row earlier) (hstatus : row.status = .pending)
    (hdue : ∀ next ∈ row.nextTriggerAt, next ≤ current) : Handled (row.markFired R current) earlier := by
  obtain ⟨next, hnext, hlt⟩ := h hstatus
  have hle := hdue next hnext
  rw [FamilyReminder.markFired_eq]
  rcases FamilyReminder.advance_cases R
    { row with lastFiredAt := some current, updatedAt := current, escalationCount := 0 } current with ⟨-, h⟩ | ⟨later, hlater, -, h⟩
  · rw [h]
    intro hpending
    cases hpending
  · rw [h]
    exact fun _ => ⟨later, rfl, by omega⟩

/-! ### The locks -/

/-- No tick fires a reminder that was tapped after its scan. -/
def NoOverwrite (log : List ReminderTx) : Prop :=
  ∀ i j id env current mark, log[j]? = some (ReminderTx.fire id env current mark) → mark ≤ i → i < j →
    ∀ tx : ReminderTx, log[i]? = some tx → ¬ tx.IsTap id

/-- What the phase of a process says of the system. -/
structure PhaseInv (s : ReminderSystem π) (phase : Phase) : Prop where
  /-- What was read under the lock is what is stored. -/
  locked : ∀ row ∈ phase.locked, s.db.table.get? row.id = some row
  captured : ∀ current, phase = .captured current → current ≤ s.clock
  scanned : ∀ tick ids, phase.scanned = some (tick, ids) → tick.current ≤ s.clock ∧ tick.mark ≤ s.log.length
  /-- A reminder that was tapped since the scan is handled. -/
  handled : ∀ tick ids, phase.scanned = some (tick, ids) → ∀ id ∈ ids, (∃ tx ∈ s.log.drop tick.mark, tx.IsTap id) →
    ∀ row, s.db.table.get? id = some row → Handled row tick.current

/-- What two processes have to do with each other. -/
structure Apart (phase other : Phase) : Prop where
  locked : ∀ row ∈ phase.locked, ∀ row' ∈ other.locked, row.id ≠ row'.id
  /-- A tap that is still open on a scanned reminder began after the scan. -/
  began : ∀ tick ids, phase.scanned = some (tick, ids) → ∀ action row began, other = .tapping action row began →
    row.id ∈ ids → tick.current ≤ began

/-- The invariant of the system. -/
structure TickInv (s : ReminderSystem π) : Prop where
  phase : ∀ p, PhaseInv s (s.phases p)
  apart : ∀ p q, p ≠ q → Apart (s.phases p) (s.phases q)
  log : NoOverwrite s.log

/-- A phase that holds no more than another one. -/
structure Phase.Within (phase old : Phase) : Prop where
  locked : ∀ row ∈ phase.locked, row ∈ old.locked
  scanned : ∀ tick ids, phase.scanned = some (tick, ids) → ∃ ids', old.scanned = some (tick, ids') ∧ ids ⊆ ids'
  captured : ∀ current, phase ≠ .captured current
  tapping : ∀ action row began, phase ≠ .tapping action row began

theorem Phase.within_idle (old : Phase) : Phase.Within .idle old :=
  ⟨by simp [Phase.locked], by simp [Phase.scanned], by simp, by simp⟩

theorem Phase.within_skip (tick : Tick) (id : String) (todo : List String) :
    Phase.Within (.ticking tick todo) (.ticking tick (id :: todo)) :=
  ⟨by simp [Phase.locked], by
    rintro tick' ids ⟨⟩
    exact ⟨_, rfl, List.subset_cons_self id todo⟩, by simp, by simp⟩

theorem Phase.within_done (tick : Tick) (row : FamilyReminder) (todo : List String) :
    Phase.Within (.ticking tick todo) (.acting tick row todo) :=
  ⟨by simp [Phase.locked], by
    rintro tick' ids ⟨⟩
    exact ⟨_, rfl, List.subset_cons_self row.id todo⟩, by simp, by simp⟩

variable {s t : ReminderSystem π} {p : π} {phase : Phase}

omit [DecidableEq π] in
theorem PhaseInv.within (h : PhaseInv s (s.phases p)) (hin : phase.Within (s.phases p)) : PhaseInv s phase where
  locked row hrow := h.locked row (hin.locked row hrow)
  captured current hcurrent := absurd hcurrent (hin.captured current)
  scanned tick ids hids := by
    obtain ⟨ids', hids', -⟩ := hin.scanned tick ids hids
    exact h.scanned tick ids' hids'
  handled tick ids hids id hid := by
    obtain ⟨ids', hids', hsub⟩ := hin.scanned tick ids hids
    exact h.handled tick ids' hids' id (hsub hid)

theorem Apart.within_left {old other : Phase} (h : Apart old other) (hin : phase.Within old) : Apart phase other where
  locked row hrow := h.locked row (hin.locked row hrow)
  began tick ids hids action row began htap hid := by
    obtain ⟨ids', hids', hsub⟩ := hin.scanned tick ids hids
    exact h.began tick ids' hids' action row began htap (hsub hid)

theorem Apart.within_right {old other : Phase} (h : Apart other old) (hin : phase.Within old) : Apart other phase where
  locked row hrow row' hrow' := h.locked row hrow row' (hin.locked row' hrow')
  began _ _ _ action row began htap := absurd htap (hin.tapping action row began)

/-- A process goes on to a phase of which the invariant holds. -/
theorem TickInv.move (h : TickInv s) (hphase : PhaseInv s phase)
    (hapart : ∀ q ≠ p, Apart phase (s.phases q) ∧ Apart (s.phases q) phase) : TickInv (s.move p phase) where
  phase q := by
    by_cases hq : q = p
    · subst hq
      simp only [ReminderSystem.move, Function.update_self]
      exact ⟨hphase.locked, hphase.captured, hphase.scanned, hphase.handled⟩
    · simp only [ReminderSystem.move, Function.update_of_ne hq]
      exact ⟨(h.phase q).locked, (h.phase q).captured, (h.phase q).scanned, (h.phase q).handled⟩
  apart q r hqr := by
    by_cases hq : q = p
    · subst hq
      simpa [ReminderSystem.move, Function.update_of_ne hqr.symm] using (hapart r hqr.symm).1
    · by_cases hr : r = p
      · subst hr
        simpa [ReminderSystem.move, Function.update_of_ne hqr] using (hapart q hqr).2
      · simpa [ReminderSystem.move, Function.update_of_ne hq, Function.update_of_ne hr] using h.apart q r hqr
  log := h.log

theorem TickInv.within (h : TickInv s) (hin : phase.Within (s.phases p)) : TickInv (s.move p phase) :=
  h.move ((h.phase p).within hin) fun q hq =>
    ⟨(h.apart p q hq.symm).within_left hin, (h.apart q p hq).within_right hin⟩

theorem TickInv.lock (h : TickInv s) (hphase : PhaseInv s phase) (hlocked : phase.locked = some row)
    (hfree : s.Free row.id)
    (hbegan : ∀ q ≠ p, (∀ tick ids, phase.scanned = some (tick, ids) → ∀ action row began,
        s.phases q = .tapping action row began → row.id ∈ ids → tick.current ≤ began) ∧
      ∀ tick ids, (s.phases q).scanned = some (tick, ids) → ∀ action row began, phase = .tapping action row began →
        row.id ∈ ids → tick.current ≤ began) : TickInv (s.move p phase) := by
  refine h.move hphase fun q hq => ⟨⟨?_, (hbegan q hq).1⟩, ⟨?_, (hbegan q hq).2⟩⟩
  · intro row' hrow' other hother
    obtain rfl : row = row' := Option.some.inj (hlocked.symm.trans hrow')
    exact (hfree q other hother).symm
  · intro other hother row' hrow'
    obtain rfl : row = row' := Option.some.inj (hlocked.symm.trans hrow')
    exact hfree q other hother

/-- The reminder that a transaction writes. -/
def ReminderTx.id : ReminderTx → String
  | .fire id _ _ _ | .tap id _ _ => id

theorem ReminderTx.IsTap.id {tx : ReminderTx} {id : String} (h : tx.IsTap id) : tx.id = id := by
  cases tx with
  | fire => exact h.elim
  | tap => exact h

theorem mem_drop_snoc {log : List ReminderTx} {tx tx' : ReminderTx} {n : ℕ} (h : tx' ∈ (log ++ [tx]).drop n) :
    tx' ∈ log.drop n ∨ tx' = tx := by
  rw [List.drop_append, List.mem_append] at h
  rcases h with h | h
  · exact .inl h
  · exact .inr (by simpa using List.mem_of_mem_drop h)

/-- **A commit**: the process holds the lock of the row that it writes; whoever scanned the reminder
before finds it handled if it was tapped since. -/
theorem TickInv.commit {tx : ReminderTx} (h : TickInv s) (hin : phase.Within (s.phases p))
    (hunlocked : phase.locked = none) (hrow : row ∈ (s.phases p).locked) (htx : tx.id = row.id)
    (hwritten : db'.table.get? row.id = some row')
    (hothers : ∀ id ≠ row.id, db'.table.get? id = s.db.table.get? id)
    (hhandled : ∀ q tick ids, (s.phases q).scanned = some (tick, ids) → row.id ∈ ids →
      (Handled row tick.current ∨ tx.IsTap row.id) → Handled row' tick.current)
    (hfire : ∀ id env current mark, tx = .fire id env current mark → ∀ tx' ∈ s.log.drop mark, ¬ tx'.IsTap id) :
    TickInv (s.commit p phase db' tx) := by
  -- a process that does not hold the row
  have hkeep : ∀ q other, (∀ row' ∈ other.locked, row'.id ≠ row.id) → Phase.Within other (s.phases q) ∨ other = s.phases q →
      PhaseInv s other → PhaseInv (s.commit p phase db' tx) other := by
    intro q other hother hwithin hinv
    refine ⟨fun row' hrow' => ?_, hinv.captured, fun tick ids hids => ?_, fun tick ids hids id hid htap => ?_⟩
    · rw [← hinv.locked row' hrow']
      exact hothers row'.id (hother row' hrow')
    · obtain ⟨hclock, hmark⟩ := hinv.scanned tick ids hids
      exact ⟨hclock, by simp only [ReminderSystem.commit, List.length_append]; omega⟩
    · intro found hfound
      obtain ⟨tx', htx', htap⟩ := htap
      by_cases hne : id = row.id
      · subst hne
        obtain rfl : row' = found := Option.some.inj (hwritten.symm.trans hfound)
        obtain ⟨ids', hids', hid'⟩ : ∃ ids', (s.phases q).scanned = some (tick, ids') ∧ row.id ∈ ids' := by
          rcases hwithin with hwithin | rfl
          · obtain ⟨ids', hids', hsub⟩ := hwithin.scanned tick ids hids
            exact ⟨ids', hids', hsub hid⟩
          · exact ⟨ids, hids, hid⟩
        refine hhandled q tick ids' hids' hid' ?_
        rcases mem_drop_snoc htx' with hold | rfl
        · exact .inl ((h.phase q).handled tick ids' hids' row.id hid' ⟨tx', hold, htap⟩ row ((h.phase p).locked row hrow))
        · exact .inr htap
      · have hold : tx' ∈ s.log.drop tick.mark := by
          rcases mem_drop_snoc htx' with hold | rfl
          · exact hold
          · exact absurd (htap.id.symm.trans htx) hne
        exact hinv.handled tick ids hids id hid ⟨tx', hold, htap⟩ found ((hothers id hne).symm.trans hfound)
  refine ⟨fun q => ?_, fun q r hqr => ?_, ?_⟩
  · by_cases hq : q = p
    · subst hq
      simp only [ReminderSystem.commit, Function.update_self]
      exact hkeep q phase (by simp [hunlocked]) (.inl hin) ((h.phase q).within hin)
    · simp only [ReminderSystem.commit, Function.update_of_ne hq]
      exact hkeep q (s.phases q) (fun row' hrow' => (h.apart q p hq).locked row' hrow' row hrow) (.inr rfl) (h.phase q)
  · exact (h.within hin).apart q r hqr
  · show NoOverwrite (s.log ++ [tx])
    intro i j id env current mark hj hmark hij tx' htx' htap
    rw [List.getElem?_append] at hj htx'
    split at hj
    · rw [if_pos (by omega)] at htx'
      exact h.log i j id env current mark hj hmark hij tx' htx' htap
    next hlen =>
      -- the transaction that has just committed
      have hj0 : j - s.log.length = 0 := by
        by_contra hne
        rw [List.getElem?_eq_none (by simp; omega)] at hj
        cases hj
      rw [hj0] at hj
      obtain rfl : tx = _ := by simpa using hj
      rw [if_pos (by omega)] at htx'
      refine hfire id env current mark rfl tx' ?_ htap
      rw [List.mem_iff_getElem?]
      exact ⟨i - mark, by rw [List.getElem?_drop, show mark + (i - mark) = i by omega]; exact htx'⟩

/-! ### One step -/

variable {tick : Tick} {todo : List String}

omit [DecidableEq π] in
theorem TickInv.wait {clock : ℤ} (h : TickInv s) (hle : s.clock ≤ clock) : TickInv { s with clock } where
  phase q :=
    { locked := (h.phase q).locked
      captured := fun current hcurrent => ((h.phase q).captured current hcurrent).trans hle
      scanned := fun tick ids hids => ⟨((h.phase q).scanned tick ids hids).1.trans hle, ((h.phase q).scanned tick ids hids).2⟩
      handled := (h.phase q).handled }
  apart := h.apart
  log := h.log

theorem TickInv.capture (h : TickInv s) : TickInv (s.move p (.captured s.clock)) := by
  refine h.move ⟨by simp [Phase.locked], ?_, by simp [Phase.scanned], by simp [Phase.scanned]⟩ fun q _ =>
    ⟨⟨by simp [Phase.locked], by simp [Phase.scanned]⟩, ⟨by simp [Phase.locked], by simp⟩⟩
  rintro current ⟨⟩
  exact le_rfl

theorem TickInv.scan {limit : ℕ} {ids : List String} (h : TickInv s) (hphase : s.phases p = .captured current)
    (hbatch : s.IsDueBatch current limit ids) : TickInv (s.move p (.ticking ⟨current, s.log.length⟩ ids)) := by
  refine h.move ⟨by simp [Phase.locked], by simp, ?_, ?_⟩ fun q _ => ⟨⟨by simp [Phase.locked], ?_⟩, ⟨by simp [Phase.locked], by simp⟩⟩
  · rintro tick ids' ⟨⟩
    exact ⟨(h.phase p).captured current hphase, le_rfl⟩
  · rintro tick ids' ⟨⟩ id _ ⟨tx, htx, -⟩
    simp at htx
  · -- a row that is locked was left out of the scan
    rintro tick ids' ⟨⟩ action row began htap hid
    exact absurd rfl (hbatch.free row.id hid q row (by rw [htap]; rfl))

theorem TickInv.lockRow (h : TickInv s) (hphase : s.phases p = .ticking tick (row.id :: todo))
    (hget : s.db.table.get? row.id = some row) (hfree : s.Free row.id) : TickInv (s.move p (.acting tick row todo)) := by
  have hscanned : (s.phases p).scanned = some (tick, row.id :: todo) := by rw [hphase]; rfl
  refine h.lock ⟨?_, by simp, ?_, ?_⟩ rfl hfree fun q hq => ⟨?_, by simp⟩
  · rintro row' ⟨⟩
    exact hget
  · rintro tick' ids ⟨⟩
    exact (h.phase p).scanned tick _ hscanned
  · rintro tick' ids ⟨⟩
    exact (h.phase p).handled tick _ hscanned
  · rintro tick' ids ⟨⟩ action row' began htap hid
    exact (h.apart p q hq.symm).began tick _ hscanned action row' began htap hid

theorem TickInv.tap (h : TickInv s) (hget : s.db.table.get? row.id = some row) (hfree : s.Free row.id) :
    TickInv (s.move p (.tapping action row s.clock)) := by
  refine h.lock ⟨?_, by simp, by simp [Phase.scanned], by simp [Phase.scanned]⟩ rfl hfree fun q _ =>
    ⟨by simp [Phase.scanned], ?_⟩
  · rintro row' ⟨⟩
    exact hget
  · rintro tick ids hids action' row' began ⟨⟩ -
    exact ((h.phase q).scanned tick ids hids).1

theorem TickInv.fire (h : TickInv s) (hphase : s.phases p = .acting tick row todo)
    (hdb : tickRow R env tick.current s.db row = some db') :
    TickInv (s.commit p (.ticking tick todo) db' (.fire row.id env tick.current tick.mark)) := by
  obtain ⟨-, hstatus, hdue, hput⟩ := tickRow_cases hdb
  have hrow : row ∈ (s.phases p).locked := by rw [hphase]; rfl
  have hget := (h.phase p).locked row hrow
  obtain ⟨hwritten, hothers, -⟩ := put?_cases hget (FamilyReminder.markFired_same R row _).id hput
  refine h.commit (hphase ▸ Phase.within_done tick row todo) rfl hrow rfl hwritten hothers ?_ ?_
  · rintro q tick' ids _ _ (hhandled | htap)
    · exact handled_markFired hhandled hstatus hdue
    · exact htap.elim
  · -- a reminder that was tapped after the scan would not be fired
    rintro id env' current mark ⟨⟩ tx htx htap
    obtain ⟨next, hnext, hlt⟩ := (h.phase p).handled tick (row.id :: todo) (by rw [hphase]; rfl) row.id (by simp)
      ⟨tx, htx, htap⟩ row hget hstatus
    have hle := hdue next hnext
    omega

theorem TickInv.tapCommit {began : ℤ} (h : TickInv s) (hphase : s.phases p = .tapping action row began)
    (hle : began ≤ now) (hdb : commitTap R action now s.db row = some db') :
    TickInv (s.commit p .idle db' (.tap row.id action now)) := by
  have hrow : row ∈ (s.phases p).locked := by rw [hphase]; rfl
  have hget := (h.phase p).locked row hrow
  obtain ⟨hwritten, hothers, -⟩ := put?_cases hget (tapRow_same R action now row).id hdb
  refine h.commit (Phase.within_idle _) rfl hrow rfl hwritten hothers ?_ nofun
  intro q tick ids hids hid _
  refine handled_tapRow (le_trans ?_ hle)
  by_cases hq : q = p
  · subst hq
    rw [hphase] at hids
    cases hids
  · exact (h.apart q p hq).began tick ids hids action row began hphase hid

theorem TickInv.step {event : WorkerEvent π} (h : TickInv s) (hs : (reminderTicks R π).step s event t) : TickInv t := by
  cases event with
  | wait clock =>
    obtain ⟨hle, rfl⟩ := hs
    exact h.wait hle
  | capture p =>
    obtain ⟨-, rfl⟩ := hs
    exact h.capture
  | scan p limit ids =>
    obtain ⟨current, hphase, hbatch, rfl⟩ := hs
    exact h.scan hphase hbatch
  | lockRow p =>
    obtain ⟨tick, id, todo, hphase, ⟨-, rfl⟩ | ⟨row, hget, hfree, rfl⟩⟩ := hs
    · exact h.within (hphase ▸ Phase.within_skip tick id todo)
    · obtain rfl : row.id = id := (Keyed.get?_eq_some.mp hget).2
      exact h.lockRow hphase hget hfree
  | finish p env =>
    obtain ⟨tick, row, todo, hphase, ⟨-, rfl⟩ | ⟨db, hdb, rfl⟩⟩ := hs
    · exact h.within (hphase ▸ Phase.within_done tick row todo)
    · exact h.fire hphase hdb
  | fail p =>
    obtain ⟨tick, row, todo, hphase, rfl⟩ := hs
    exact h.within (hphase ▸ Phase.within_done tick row todo)
  | tap p action id =>
    obtain ⟨row, -, hread, hfree, rfl⟩ := hs
    obtain ⟨hget, rfl⟩ := get?_of_readReminder hread
    exact h.tap hget hfree
  | tapCommit p now =>
    obtain ⟨action, row, began, hphase, hle, -, ⟨-, rfl⟩ | ⟨db, hdb, rfl⟩⟩ := hs
    · exact h.within (Phase.within_idle _)
    · exact h.tapCommit hphase hle hdb
  | leave p =>
    obtain rfl : t = _ := hs
    exact h.within (Phase.within_idle _)

theorem TickInv.init (h : (reminderTicks R π).init s) : TickInv s := by
  obtain ⟨hlog, hidle⟩ := h
  refine ⟨fun p => ?_, fun p q _ => ?_, ?_⟩
  · rw [hidle p]
    exact ⟨by simp [Phase.locked], by simp, by simp [Phase.scanned], by simp [Phase.scanned]⟩
  · rw [hidle p]
    exact ⟨by simp [Phase.locked], by simp [Phase.scanned]⟩
  · rw [hlog]
    intro i j id env current mark hj
    simp at hj

/-! ### Runs -/

/-- **Refinement, one step**: the machine of whole transactions takes the step that commits, and no
other. -/
theorem serial_step {event : WorkerEvent π} (h : TickInv s) (hs : (reminderTicks R π).step s event t) :
    (t.log = s.log ∧ t.db = s.db) ∨ ∃ tx, t.log = s.log ++ [tx] ∧ (serialReminders R).step s.db tx t.db := by
  cases event with
  | wait clock =>
    obtain ⟨-, rfl⟩ := hs
    exact .inl ⟨rfl, rfl⟩
  | capture p =>
    obtain ⟨-, rfl⟩ := hs
    exact .inl ⟨rfl, rfl⟩
  | scan p limit ids =>
    obtain ⟨current, -, -, rfl⟩ := hs
    exact .inl ⟨rfl, rfl⟩
  | lockRow p =>
    obtain ⟨tick, id, todo, -, ⟨-, rfl⟩ | ⟨row, -, -, rfl⟩⟩ := hs
    · exact .inl ⟨rfl, rfl⟩
    · exact .inl ⟨rfl, rfl⟩
  | finish p env =>
    obtain ⟨tick, row, todo, hphase, ⟨-, rfl⟩ | ⟨db, hdb, rfl⟩⟩ := hs
    · exact .inl ⟨rfl, rfl⟩
    · exact .inr ⟨_, rfl, row, (h.phase p).locked row (by rw [hphase]; rfl), hdb⟩
  | fail p =>
    obtain ⟨tick, row, todo, -, rfl⟩ := hs
    exact .inl ⟨rfl, rfl⟩
  | tap p action id =>
    obtain ⟨row, -, -, -, rfl⟩ := hs
    exact .inl ⟨rfl, rfl⟩
  | tapCommit p now =>
    obtain ⟨action, row, began, hphase, -, -, ⟨-, rfl⟩ | ⟨db, hdb, rfl⟩⟩ := hs
    · exact .inl ⟨rfl, rfl⟩
    · exact .inr ⟨_, rfl, row, (h.phase p).locked row (by rw [hphase]; rfl), hdb⟩
  | leave p =>
    obtain rfl : t = _ := hs
    exact .inl ⟨rfl, rfl⟩

/-- **Refinement**: the transactions of a run, in the order of their commits, are a run of the machine
of whole transactions. -/
theorem serial_run {s₀ : ReminderSystem π} {events : List (WorkerEvent π)} (h₀ : (reminderTicks R π).init s₀)
    (h : (reminderTicks R π).Run s₀ events s) :
    TickInv s ∧ (serialReminders R).Run s₀.db s.log s.db := by
  refine h.keeps (P := fun s => TickInv s ∧ (serialReminders R).Run s₀.db s.log s.db) ?_ ⟨.init h₀, ?_⟩
  · rintro s event t ⟨hinv, hrun⟩ hs
    refine ⟨hinv.step hs, ?_⟩
    rcases serial_step hinv hs with ⟨hlog, hdb⟩ | ⟨tx, hlog, htx⟩
    · rwa [hlog, hdb]
    · rw [hlog]
      exact hrun.snoc htx
  · rw [h₀.1]
    exact .nil _

/-- **Ticks and taps**: in every run no two messages are for the same reminder, trigger, channel and
bot; the rows are those of a serial order of the committed transactions; and no tick fires a reminder
on which a tap committed after its scan. -/
theorem reminder_ticks {s₀ s : ReminderSystem π} {events : List (WorkerEvent π)} (h₀ : (reminderTicks R π).init s₀)
    (h : (reminderTicks R π).Run s₀ events s) :
    (∀ m ∈ s.db.outbox.rows, ∀ m' ∈ s.db.outbox.rows, m.reminderId = m'.reminderId → m.fired = m'.fired →
        m.channelType = m'.channelType → m.botKey = m'.botKey → m = m') ∧
      (serialReminders R).Run s₀.db s.log s.db ∧ NoOverwrite s.log := by
  obtain ⟨hinv, hrun⟩ := serial_run h₀ h
  refine ⟨fun m hm m' hm' hid hfired hchannel hbot => s.db.outbox.eq_of_key hm hm' ?_, hrun, hinv.log⟩
  rw [ReminderMessage.idempotencyKey, ReminderMessage.idempotencyKey, hid, hfired, hchannel, hbot]

/-- The user of the tests is reached over Telegram. -/
def telegramEnv : DeliveryEnv := ⟨true, [⟨"telegram", "100", none⟩], some "workspace_1"⟩

/-- One process and one reminder that is due. -/
def pillSystem : ReminderSystem Unit := ⟨100, ⟨pillTable, .empty⟩, [], fun _ => .idle⟩

/-- A tick has read the clock, scanned and locked the reminder. -/
def capturedPills : ReminderSystem Unit := pillSystem.move () (.captured 100)
def scannedPills : ReminderSystem Unit := capturedPills.move () (.ticking ⟨100, 0⟩ ["rem_1"])
def lockedPills : ReminderSystem Unit := scannedPills.move () (.acting ⟨100, 0⟩ pillReminder [])

/-- The tick fires the reminder. -/
theorem reminder_ticks_pillSystem :
    ∃ s : ReminderSystem Unit, s.log = [.fire "rem_1" telegramEnv 100 0] ∧
      (∀ m ∈ s.db.outbox.rows, ∀ m' ∈ s.db.outbox.rows, m.reminderId = m'.reminderId → m.fired = m'.fired →
        m.channelType = m'.channelType → m.botKey = m'.botKey → m = m') ∧
      (serialReminders noRules).Run pillSystem.db s.log s.db ∧ NoOverwrite s.log := by
  have hread : pillTable.get? "rem_1" = some pillReminder := by decide
  obtain ⟨db, hdb⟩ : ∃ db, tickRow noRules telegramEnv 100 pillSystem.db pillReminder = some db :=
    Option.isSome_iff_exists.mp (by decide)
  have hcapture : (reminderTicks noRules Unit).step pillSystem (.capture ()) capturedPills := ⟨rfl, rfl⟩
  have hscan : (reminderTicks noRules Unit).step capturedPills (.scan () 50 ["rem_1"]) scannedPills := by
    refine ⟨100, rfl, ⟨by simp, by simp, ?_, ?_, by simp⟩, rfl⟩
    · simp [ReminderSystem.Free, capturedPills, ReminderSystem.move, Phase.locked]
    · intro id hid
      obtain rfl := List.mem_singleton.mp hid
      exact ⟨pillReminder, hread, rfl, 100, rfl, le_rfl⟩
  have hlock : (reminderTicks noRules Unit).step scannedPills (.lockRow ()) lockedPills := by
    refine ⟨_, _, _, rfl, .inr ⟨pillReminder, hread, ?_, rfl⟩⟩
    simp [ReminderSystem.Free, scannedPills, ReminderSystem.move, Phase.locked]
  have hfinish : (reminderTicks noRules Unit).step lockedPills (.finish () telegramEnv)
      (lockedPills.commit () (.ticking ⟨100, 0⟩ []) db (.fire "rem_1" telegramEnv 100 0)) :=
    ⟨_, _, _, rfl, .inr ⟨db, hdb, rfl⟩⟩
  have hrun := (((Lts.Run.single hcapture).snoc hscan).snoc hlock).snoc hfinish
  exact ⟨_, rfl, reminder_ticks ⟨rfl, fun _ => rfl⟩ hrun⟩

end Sreda.Workers
