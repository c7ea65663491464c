import Sreda.Services.Reminders

/-!
# Taps on the buttons of a reminder

A reminder is delivered with two buttons, done and snooze; a tap sends `rem_done:<id>` or
`rem_snooze:<id>` back. Two handlers take the taps: `_handle_reminder_callback` of
`services/telegram_bot.py` and `_handle_max_reminder_callback` of `services/max_inbound.py`. Both
read the reminder under a row lock and call the same service; the texts of the messages they send
are left out.

The handler of MAX compares the tenant of the reminder with the tenant of the user who taps. The
handler of Telegram is not told who taps, and its caller does not look at the reminder.

## What is proved

* which row a tap changes and to what (`applyTap_get?`, `applyTap_get?_ne`), and when the commit is
  refused (`commit?_tap_eq_none`);
* on a reminder of the tenant of the user both handlers do the same (`handleMaxReminderCallback_own`), and MAX
  leaves a foreign one alone (`handleMaxReminderCallback_foreign`);
* the taps of a user keep to the user's tenant exactly when they name no foreign reminder whose
  change would be committed (`taps_iff`), and a Telegram tap on a foreign reminder (`foreign_snooze`).
-/

namespace Sreda.Services

open Sreda.Lib
open Sreda.Lib.PyText (Text)

/-! ### The handlers -/

/-- `data.partition(":")`: what stands before the first colon and after it. -/
def partitionColon (data : Text) : Text × Text :=
  (data.takeWhile (· ≠ ':'), (data.dropWhile (· ≠ ':')).drop 1)

/-- The action of the callback data. -/
def tapAction (data : Text) : String := String.ofList (partitionColon data).1

/-- The id of the callback data. -/
def tapId (data : Text) : String := String.ofList (partitionColon data).2

/-- What the user is told. -/
inductive TapAnswer where
  /-- `REMINDER_CALLBACK_BUSY_TEXT`: the row lock was not granted in time. -/
  | busy
  /-- There is no such reminder. -/
  | gone
  /-- The reminder is another tenant's. -/
  | notYours
  /-- The commit raised an `IntegrityError`: nothing is answered. -/
  | refused
  | acknowledged
  | snoozed
  deriving DecidableEq

/-- `read_reminder_for_callback`. -/
def readReminderForCallback (table : ReminderTable) (reminderId : String) : Option FamilyReminder :=
  if reminderId = "" then none else table.get? reminderId

variable (R : RRule)

/-- The call of the service: anything but `rem_done` snoozes. -/
def tapRow (action : String) (now : ℤ) (row : FamilyReminder) : FamilyReminder :=
  if action = "rem_done" then row.acknowledge R now else row.snooze snoozeDefaultMinutes now

theorem tapRow_same (action : String) (now : ℤ) (row : FamilyReminder) :
    FamilyReminder.SameReminder row (tapRow R action now row) := by
  unfold tapRow
  split
  · exact FamilyReminder.acknowledge_same R row now
  · exact FamilyReminder.snooze_same row _ now

/-- The rows after the call of the service. -/
def tapRows (table : ReminderTable) (action : String) (now : ℤ) (id : String) : Keyed FamilyReminder.id :=
  table.rows.update (·.id = id) (tapRow R action now) fun row => (tapRow_same R action now row).id

/-- The call of the service and the commit. -/
def applyTap (table : ReminderTable) (action : String) (now : ℤ) (row : FamilyReminder) : ReminderTable × TapAnswer :=
  match Indexed.commit? (tapRows R table action now row.id) with
  | none => (table, .refused)
  | some table' => (table', if action = "rem_done" then .acknowledged else .snoozed)

/-- `_handle_reminder_callback` of Telegram; `locked` says that another transaction keeps the row
locked for too long. -/
def handleReminderCallback (table : ReminderTable) (locked : Bool) (now : ℤ) (data : Text) :
    ReminderTable × TapAnswer :=
  match readReminderForCallback table (tapId data) with
  | none => (table, .gone)
  | some row => if locked then (table, .busy) else applyTap R table (tapAction data) now row

/-- `_handle_max_reminder_callback`, for a user of the tenant. -/
def handleMaxReminderCallback (table : ReminderTable) (tenantId : String) (locked : Bool) (now : ℤ) (data : Text) :
    ReminderTable × TapAnswer :=
  match readReminderForCallback table (tapId data) with
  | none => (table, .gone)
  | some row =>
    if locked then (table, .busy)
    -- the cross-tenant check, which the handler of Telegram does not make
    else if row.tenantId ≠ tenantId then (table, .notYours)
    else applyTap R table (tapAction data) now row

/-! ### One tap -/

variable {R} {table : ReminderTable} {action : String} {now : ℤ} {row : FamilyReminder} {data : Text}

theorem get?_of_readReminder {id : String} (h : readReminderForCallback table id = some row) :
    table.get? id = some row ∧ row.id = id := by
  unfold readReminderForCallback at h
  split at h
  · cases h
  · exact ⟨h, (Keyed.get?_eq_some.mp h).2⟩

/-- Another pending reminder has the entry that a snooze would give to the reminder. -/
def SnoozeRefused (table : ReminderTable) (row : FamilyReminder) : Prop :=
  ∃ other ∈ table.rows.rows, other.id ≠ row.id ∧
    other.pendingKey.isSome ∧ other.pendingKey = FamilyReminder.pendingKey { row with status := .pending }

instance (table : ReminderTable) (row : FamilyReminder) : Decidable (SnoozeRefused table row) :=
  inferInstanceAs (Decidable (∃ other ∈ table.rows.rows, _))

/-- An acknowledgement leaves the entry of the reminder in the index or removes it. -/
theorem pendingKey_acknowledge {key : String × String × String}
    (h : (row.acknowledge R now).pendingKey = some key) : row.pendingKey = some key := by
  have hsame := FamilyReminder.acknowledge_same R row now
  unfold FamilyReminder.pendingKey at h ⊢
  rw [hsame.hash, hsame.tenantId, hsame.userId] at h
  rcases FamilyReminder.acknowledge_status R row now with hstatus | hstatus
  · simp [hstatus] at h
  · rwa [hstatus] at h

theorem pendingKey_snooze {delay : ℤ} :
    (row.snooze delay now).pendingKey = FamilyReminder.pendingKey { row with status := .pending } := rfl

/-- **The commit**: an acknowledgement is never refused, a snooze when another pending reminder has
its entry. -/
theorem commit?_tap_eq_none (h : table.get? row.id = some row) :
    (Indexed.commit? (tapRows R table action now row.id) : Option ReminderTable) = none ↔ action ≠ "rem_done" ∧ SnoozeRefused table row := by
  rw [Indexed.commit?_eq_none, tapRows, Indexed.nodup_update_iff h]
  by_cases haction : action = "rem_done"
  · simp only [haction, tapRow, if_true, ne_eq, not_true, false_and, iff_false, not_not]
    -- the reminder has no other entry than before
    intro key hkey other hother hid hpending
    have hmem := (Keyed.get?_eq_some.mp h).1
    exact hid (congrArg FamilyReminder.id (Indexed.eq_of_entry hother hmem hpending (pendingKey_acknowledge hkey)))
  · have hset : tapRow R action now row = row.snooze snoozeDefaultMinutes now := if_neg haction
    rw [hset, pendingKey_snooze, and_iff_right haction]
    constructor
    · intro hn
      push Not at hn
      obtain ⟨key, hkey, other, hother, hid, hpending⟩ := hn
      exact ⟨other, hother, hid, by simp [hpending], by rw [hpending, hkey]⟩
    · rintro ⟨other, hother, hid, hsome, hpending⟩ hn
      obtain ⟨key, hkey⟩ := Option.isSome_iff_exists.mp hsome
      exact hn key (hpending.symm.trans hkey) other hother hid hkey

theorem applyTap_get?_ne {id : String} (hid : id ≠ row.id) :
    (applyTap R table action now row).1.get? id = table.get? id := by
  unfold applyTap
  split
  · rfl
  next table' hcommit =>
    rw [Indexed.get?, Indexed.rows_commit? hcommit, tapRows, Keyed.get?_update]
    show (table.get? id).map _ = table.get? id
    cases hget : table.get? id with
    | none => rfl
    | some other =>
      have hother : other.id ≠ row.id := (Keyed.get?_eq_some.mp hget).2 ▸ hid
      simp [hother]

theorem applyTap_get? (h : table.get? row.id = some row) :
    (applyTap R table action now row).1.get? row.id =
      some (if action ≠ "rem_done" ∧ SnoozeRefused table row then row else tapRow R action now row) := by
  unfold applyTap
  split
  next hcommit => rw [if_pos ((commit?_tap_eq_none h).mp hcommit), h]
  next table' hcommit =>
    have hn : ¬ (action ≠ "rem_done" ∧ SnoozeRefused table row) := by
      intro hrefused
      rw [(commit?_tap_eq_none h).mpr hrefused] at hcommit
      cases hcommit
    rw [if_neg hn, Indexed.get?, Indexed.rows_commit? hcommit, tapRows, Keyed.get?_update]
    show (table.get? row.id).map _ = _
    simp [h]

theorem tapRow_updatedAt : (tapRow R action now row).updatedAt = now := by
  unfold tapRow
  split
  · exact FamilyReminder.acknowledge_updatedAt R row now
  · rfl

/-! ### The two handlers -/

variable {tenantId : String} {locked : Bool}

/-- On a reminder of the user's tenant the two handlers do the same. -/
theorem handleMaxReminderCallback_own
    (h : ∀ row, readReminderForCallback table (tapId data) = some row → row.tenantId = tenantId) :
    handleMaxReminderCallback R table tenantId locked now data = handleReminderCallback R table locked now data := by
  unfold handleMaxReminderCallback handleReminderCallback
  cases hread : readReminderForCallback table (tapId data) with
  | none => rfl
  | some row => simp [h row hread]

/-- MAX leaves the table alone when the reminder is another tenant's. -/
theorem handleMaxReminderCallback_foreign (hread : readReminderForCallback table (tapId data) = some row)
    (h : row.tenantId ≠ tenantId) : (handleMaxReminderCallback R table tenantId locked now data).1 = table := by
  simp only [handleMaxReminderCallback, hread, if_pos h]
  split <;> rfl

/-- A Telegram tap changes no reminder but the one it names. -/
theorem handleReminderCallback_ne {id : String} (hid : id ≠ tapId data) :
    (handleReminderCallback R table locked now data).1.get? id = table.get? id := by
  unfold handleReminderCallback
  split
  · rfl
  next row hread =>
    split
    · rfl
    · exact applyTap_get?_ne (by rwa [(get?_of_readReminder hread).2])

/-- **What the taps of a user of a tenant promise**: whatever the clock and the row lock, a reminder
of another tenant is left as it is on both channels, and a reminder of the tenant becomes the same
on both. -/
structure TapGuarantees (R : RRule) (table : ReminderTable) (tenantId : String) (data : Text) : Prop where
  foreign : ∀ locked now, ∀ row ∈ table.rows.rows, row.tenantId ≠ tenantId →
    (handleReminderCallback R table locked now data).1.get? row.id = some row ∧
      (handleMaxReminderCallback R table tenantId locked now data).1.get? row.id = some row
  own : ∀ locked now, ∀ row ∈ table.rows.rows, row.tenantId = tenantId →
    (handleReminderCallback R table locked now data).1.get? row.id =
      (handleMaxReminderCallback R table tenantId locked now data).1.get? row.id

/-- The tap names no reminder of another tenant, or one whose change is refused. -/
def KeepsToTenant (table : ReminderTable) (tenantId : String) (data : Text) : Prop :=
  ∀ row, readReminderForCallback table (tapId data) = some row → row.tenantId ≠ tenantId →
    tapAction data ≠ "rem_done" ∧ SnoozeRefused table row

theorem keepsToTenant_of_guarantees (h : TapGuarantees R table tenantId data) : KeepsToTenant table tenantId data := by
  intro row hread hforeign
  obtain ⟨hget, hid⟩ := get?_of_readReminder hread
  rw [← hid] at hget
  by_contra hn
  -- a tap at any later moment writes that moment
  have hrow := (h.foreign false (row.updatedAt + 1) row (Keyed.get?_eq_some.mp hget).1 hforeign).1
  simp only [handleReminderCallback, hread, Bool.false_eq_true, if_false] at hrow
  rw [applyTap_get? hget, if_neg hn, Option.some.injEq] at hrow
  have hupdated := congrArg FamilyReminder.updatedAt hrow
  rw [tapRow_updatedAt] at hupdated
  omega

theorem guarantees_of_keepsToTenant (h : KeepsToTenant table tenantId data) : TapGuarantees R table tenantId data := by
  -- a foreign reminder that is named is one whose change is refused
  have hsame : ∀ locked now row, readReminderForCallback table (tapId data) = some row → row.tenantId ≠ tenantId →
      (handleReminderCallback R table locked now data).1 = table := by
    intro locked now row hread hforeign
    obtain ⟨hget, hid⟩ := get?_of_readReminder hread
    rw [← hid] at hget
    simp only [handleReminderCallback, hread]
    split
    · rfl
    · rw [applyTap, (commit?_tap_eq_none hget).mpr (h row hread hforeign)]
  have heq : ∀ locked now, (handleMaxReminderCallback R table tenantId locked now data).1 =
      (handleReminderCallback R table locked now data).1 := by
    intro locked now
    by_cases hown : ∀ row, readReminderForCallback table (tapId data) = some row → row.tenantId = tenantId
    · rw [handleMaxReminderCallback_own hown]
    · push Not at hown
      obtain ⟨row, hread, hforeign⟩ := hown
      rw [handleMaxReminderCallback_foreign hread hforeign, hsame locked now row hread hforeign]
  refine ⟨fun locked now row hmem hforeign => ?_, fun locked now row _ _ => by rw [heq]⟩
  have hrow : (handleReminderCallback R table locked now data).1.get? row.id = some row := by
    have hget : table.get? row.id = some row := Keyed.get?_key hmem
    by_cases hid : row.id = tapId data
    · cases hread : readReminderForCallback table (tapId data) with
      | none => simp [handleReminderCallback, hread, hget]
      | some tapped =>
        obtain ⟨htapped, -⟩ := get?_of_readReminder hread
        obtain rfl : tapped = row := by
          rw [hid] at hget
          exact Option.some.inj (htapped.symm.trans hget)
        rw [hsame locked now tapped hread hforeign, hget]
    · rw [handleReminderCallback_ne hid, hget]
  exact ⟨hrow, by rw [heq, hrow]⟩

/-- **Taps**: the taps of a user keep to the reminders of the user's tenant, the same way on both
channels, exactly when they name no reminder of another tenant whose change would be committed. -/
theorem taps_iff (R : RRule) (table : ReminderTable) (tenantId : String) (data : Text) :
    TapGuarantees R table tenantId data ↔ KeepsToTenant table tenantId data :=
  ⟨keepsToTenant_of_guarantees, guarantees_of_keepsToTenant⟩

/-! ### A foreign reminder -/

/-- A reminder of the first tenant. -/
def pillReminder : FamilyReminder :=
  { id := "rem_1", tenantId := "tenant_1", title := "pills".toList, triggerAt := 100, nextTriggerAt := some 100,
    updatedAt := 0 }

def pillTable : ReminderTable := ⟨⟨[pillReminder], by simp⟩, by decide⟩

/-- **A foreign reminder**: a user of another tenant snoozes it over Telegram. -/
theorem foreign_snooze : ¬ ∀ R table tenantId data, TapGuarantees R table tenantId data := by
  intro h
  have hkeeps := keepsToTenant_of_guarantees (h noRules pillTable "tenant_2" "rem_snooze:rem_1".toList)
  have hread : readReminderForCallback pillTable (tapId "rem_snooze:rem_1".toList) = some pillReminder := by decide
  obtain ⟨-, other, hother, hid, -⟩ := hkeeps pillReminder hread (by decide)
  obtain rfl : other = pillReminder := by simpa [pillTable] using hother
  exact hid rfl

end Sreda.Services
