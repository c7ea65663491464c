import Mathlib.Order.Bounds.Basic
import Sreda.Lib.Keyed
import Sreda.Lib.PyText

/-!
# Reminders of a family

`services/housewife_reminders.py`, `HousewifeReminderService`, over the table
`family_reminders`: what `schedule` inserts, `update`, `cancel`, `mark_fired`, `acknowledge` and
`snooze`, and what `restore_tenant` makes of a reminder. Times are instants in microseconds.

The recurrence rules are those of `dateutil`, a parameter: `rrule.after(x, inc=False)` is the first
occurrence after `x`, if there is one.

Left out: the embedding of the title, which no function here reads, and `created_at`.

## What is proved

* what closing a firing cycle does (`advance_cases`): the reminder is fired, or its next trigger
  lies after the moment of the call; firing and acknowledging close the cycle (`markFired_eq`);
* what an update leaves (`update_cases`).
-/

namespace Sreda.Services

open Sreda.Lib
open Sreda.Lib.PyText (Text strip)

/-! ### Rules and rows -/

/-- `timedelta(minutes=n)`. -/
def minutes (n : ℤ) : ℤ := n * 60000000

/-- Recurrence rules, with the start of the series. -/
structure RRule where
  /-- `rrulestr(rule, dtstart=…)` does not raise. -/
  valid : String → ℤ → Bool
  occurrences : String → ℤ → Set ℤ
  /-- `rule.after(reference, inc=False)`. -/
  after : String → ℤ → ℤ → Option ℤ
  after_some : ∀ {rule dtstart reference t}, after rule dtstart reference = some t →
    IsLeast {u ∈ occurrences rule dtstart | reference < u} t
  after_none : ∀ {rule dtstart reference}, after rule dtstart reference = none →
    ∀ u ∈ occurrences rule dtstart, u ≤ reference

/-- The values of `FamilyReminder.status`. -/
inductive ReminderStatus where
  | pending | fired | cancelled
  deriving DecidableEq

/-- `LEGACY_NULL_BOT_KEY`. -/
def legacyNullBotKey : String := "sreda"

/-- `FamilyReminder`. -/
structure FamilyReminder where
  id : String
  tenantId : String
  userId : Option String := none
  title : Text
  triggerAt : ℤ
  recurrenceRule : Option String := none
  status : ReminderStatus := .pending
  sourceMemo : Option String := none
  nextTriggerAt : Option ℤ := none
  lastFiredAt : Option ℤ := none
  acknowledgedAt : Option ℤ := none
  escalationCount : ℕ := 0
  botKey : String := legacyNullBotKey
  operationId : Option String := none
  normalizedTitleHash : Option String := none
  updatedAt : ℤ
  deriving DecidableEq

/-- What a call raises. -/
inductive ReminderError where
  /-- `invalid recurrence_rule: …` -/
  | invalidRule
  /-- `recurrence_rule has no future occurrences` -/
  | noFutureOccurrences
  /-- `title must not be blank` -/
  | blankTitle
  deriving DecidableEq

/-- `if value`: neither an absent text nor an empty one. -/
def truthy (value : Option String) : Option String := value.filter (· ≠ "")

def escalationIntervalMinutes : ℤ := 2
def escalationMaxFires : ℕ := 1
def snoozeDefaultMinutes : ℤ := 10
def lateFireGraceMinutes : ℤ := 15

/-- Rules without occurrences. -/
def noRules : RRule where
  valid _ _ := false
  occurrences _ _ := ∅
  after _ _ _ := none
  after_some := by simp
  after_none := by simp

variable (R : RRule)

/-! ### The service -/

/-- `compute_next_occurrence_after`: a rule that does not parse has no next occurrence. -/
def computeNextOccurrenceAfter (rule : String) (dtstart reference : ℤ) : Option ℤ :=
  if R.valid rule dtstart then R.after rule dtstart reference else none

/-- `_initial_next_trigger_at`. -/
def initialNextTriggerAt (now triggerAt : ℤ) (recurrenceRule : Option String) : Except ReminderError ℤ :=
  match truthy recurrenceRule with
  | none => .ok triggerAt
  | some rule =>
    if R.valid rule triggerAt then
      if now < triggerAt then .ok triggerAt
      else (R.after rule triggerAt now).elim (.error .noFutureOccurrences) .ok
    else .error .invalidRule

/-- The arguments of `schedule`. -/
structure ScheduleArgs where
  tenantId : String
  userId : Option String := none
  title : Text
  triggerAt : ℤ
  recurrenceRule : Option String := none
  sourceMemo : Option String := none
  botKey : Option String := none

/-- The row that `schedule` inserts; the path inside a turn adds the identity of the operation. -/
def scheduledRow (now : ℤ) (id : String) (args : ScheduleArgs) (operationId normalizedTitleHash : Option String) :
    Except ReminderError FamilyReminder :=
  (initialNextTriggerAt R now args.triggerAt args.recurrenceRule).map fun next =>
    { id, tenantId := args.tenantId, userId := args.userId, title := strip args.title, triggerAt := args.triggerAt,
      recurrenceRule := args.recurrenceRule, status := .pending, sourceMemo := args.sourceMemo,
      nextTriggerAt := some next, botKey := args.botKey.getD legacyNullBotKey, operationId, normalizedTitleHash,
      updatedAt := now }

/-- The arguments of `update`. -/
structure ReminderPatch where
  title : Option Text := none
  triggerAt : Option ℤ := none
  recurrenceRule : Option String := none
  clearRecurrence : Bool := false

namespace FamilyReminder

/-- The rule that an update leaves. -/
def patchRule (row : FamilyReminder) (patch : ReminderPatch) : Except ReminderError (Option String) :=
  if patch.clearRecurrence then .ok none
  else
    match patch.recurrenceRule with
    | none => .ok row.recurrenceRule
    | some rule => if R.valid rule (patch.triggerAt.getD row.triggerAt) then .ok (some rule) else .error .invalidRule

/-- The next trigger that an update computes, nothing when it does not touch it. -/
def patchNext (now : ℤ) (row : FamilyReminder) (patch : ReminderPatch) (rule : Option String) :
    Except ReminderError (Option ℤ) :=
  match patch.triggerAt, patch.recurrenceRule with
  | some triggerAt, _ => (initialNextTriggerAt R now triggerAt rule).map some
  | none, some _ => (initialNextTriggerAt R now row.triggerAt rule).map some
  | none, none => .ok none

/-- The fields that an update writes. -/
def patched (now : ℤ) (row : FamilyReminder) (patch : ReminderPatch) (rule : Option String) (next : Option ℤ) :
    FamilyReminder :=
  { row with
    title := patch.title.elim row.title fun title => if strip title = [] then row.title else strip title
    triggerAt := patch.triggerAt.getD row.triggerAt
    nextTriggerAt := next.or row.nextTriggerAt
    escalationCount := if next.isSome then 0 else row.escalationCount
    recurrenceRule := rule
    updatedAt := now }

/-- `update`: nothing for a reminder of another tenant or one that is not pending. -/
def update (now : ℤ) (tenantId : String) (patch : ReminderPatch) (row : FamilyReminder) :
    Except ReminderError (Option FamilyReminder) :=
  if row.tenantId ≠ tenantId ∨ row.status ≠ .pending then .ok none
  else if patch.title.any fun title => strip title = [] then .error .blankTitle
  else do
    let rule ← row.patchRule R patch
    let next ← row.patchNext R now patch rule
    return some (row.patched now patch rule next)

/-- `cancel`: nothing for a reminder of another tenant or one that is cancelled. -/
def cancel (now : ℤ) (tenantId : String) (row : FamilyReminder) : Option FamilyReminder :=
  if row.tenantId ≠ tenantId ∨ row.status = .cancelled then none
  else some { row with status := .cancelled, nextTriggerAt := none, updatedAt := now }

/-- The end of a firing cycle: on to the next occurrence, or fired. -/
def advance (row : FamilyReminder) (current : ℤ) : FamilyReminder :=
  match truthy row.recurrenceRule with
  | none => { row with status := .fired, nextTriggerAt := none }
  | some rule =>
    match computeNextOccurrenceAfter R rule row.triggerAt current with
    | none => { row with status := .fired, nextTriggerAt := none }
    | some next => { row with nextTriggerAt := some next }

/-- `mark_fired`. -/
def markFired (row : FamilyReminder) (current : ℤ) : FamilyReminder :=
  let count := row.escalationCount + 1
  let row := { row with lastFiredAt := some current, updatedAt := current, escalationCount := count }
  if count < escalationMaxFires then
    { row with nextTriggerAt := some (current + minutes escalationIntervalMinutes) }
  else advance R { row with escalationCount := 0 } current

/-- `acknowledge`. -/
def acknowledge (row : FamilyReminder) (current : ℤ) : FamilyReminder :=
  advance R { row with acknowledgedAt := some current, updatedAt := current, escalationCount := 0 } current

/-- `snooze`. -/
def snooze (row : FamilyReminder) (delay current : ℤ) : FamilyReminder :=
  { row with
    nextTriggerAt := some (current + minutes (max 1 delay)), escalationCount := 0, acknowledgedAt := none,
    status := .pending, updatedAt := current }

/-- The next trigger lies in the window of a deletion. -/
def inWindow (row : FamilyReminder) (deletedAt restoredAt : ℤ) : Bool :=
  row.nextTriggerAt.any fun next => deletedAt ≤ next ∧ next ≤ restoredAt

/-- What `restore_tenant` makes of a reminder of the tenant. -/
def restored (row : FamilyReminder) (deletedAt restoredAt : ℤ) : FamilyReminder :=
  if row.status = .pending ∧ row.inWindow deletedAt restoredAt then
    match row.recurrenceRule with
    | none => { row with status := .cancelled, nextTriggerAt := none, updatedAt := restoredAt }
    | some rule =>
      match computeNextOccurrenceAfter R rule row.triggerAt restoredAt with
      | none => { row with status := .fired, nextTriggerAt := none, updatedAt := restoredAt }
      | some next => { row with nextTriggerAt := some next, updatedAt := restoredAt }
  else row

end FamilyReminder

/-! ### The end of a cycle -/

variable {R}

theorem lt_of_computeNextOccurrenceAfter {rule : String} {dtstart reference t : ℤ}
    (h : computeNextOccurrenceAfter R rule dtstart reference = some t) : reference < t := by
  unfold computeNextOccurrenceAfter at h
  split at h
  · exact (R.after_some h).1.2
  · cases h

/-- Where no occurrence is left, none comes back. -/
theorem computeNextOccurrenceAfter_mono {rule : String} {dtstart reference later : ℤ} (hle : reference ≤ later)
    (h : computeNextOccurrenceAfter R rule dtstart reference = none) :
    computeNextOccurrenceAfter R rule dtstart later = none := by
  unfold computeNextOccurrenceAfter at h ⊢
  split
  case isFalse => rfl
  case isTrue hvalid =>
    rw [if_pos hvalid] at h
    cases hafter : R.after rule dtstart later with
    | none => rfl
    | some t =>
      obtain ⟨hmem, hlt⟩ := (R.after_some hafter).1
      have hle' := R.after_none h t hmem
      omega

namespace FamilyReminder

variable (R)

/-- No occurrence of the rule comes after the instant. -/
def Exhausted (row : FamilyReminder) (current : ℤ) : Prop :=
  ∀ rule, truthy row.recurrenceRule = some rule → computeNextOccurrenceAfter R rule row.triggerAt current = none

variable {R} {row row' : FamilyReminder} {current now : ℤ}

theorem Exhausted.mono {later : ℤ} (h : row.Exhausted R current) (hle : current ≤ later) : row.Exhausted R later :=
  fun rule hrule => computeNextOccurrenceAfter_mono hle (h rule hrule)

/-- **The end of a cycle**: nothing is left and the reminder is fired, or the next trigger lies
after the moment of the call. -/
theorem advance_cases (R : RRule) (row : FamilyReminder) (current : ℤ) :
    (row.Exhausted R current ∧ row.advance R current = { row with status := .fired, nextTriggerAt := none }) ∨
      ∃ next, current < next ∧ ¬ row.Exhausted R current ∧ row.advance R current = { row with nextTriggerAt := some next } := by
  cases hrule : truthy row.recurrenceRule with
  | none =>
    left
    refine ⟨fun rule h => ?_, by simp only [advance, hrule]⟩
    rw [hrule] at h
    cases h
  | some rule =>
    cases hnext : computeNextOccurrenceAfter R rule row.triggerAt current with
    | none =>
      left
      refine ⟨fun rule' h => ?_, by simp only [advance, hrule, hnext]⟩
      obtain rfl : rule = rule' := Option.some.inj (hrule.symm.trans h)
      exact hnext
    | some next =>
      right
      refine ⟨next, lt_of_computeNextOccurrenceAfter hnext, fun h => ?_, by simp only [advance, hrule, hnext]⟩
      rw [h rule hrule] at hnext
      cases hnext

/-- A single message is sent per cycle: firing closes it. -/
theorem markFired_eq (R : RRule) (row : FamilyReminder) (current : ℤ) :
    row.markFired R current =
      advance R { row with lastFiredAt := some current, updatedAt := current, escalationCount := 0 } current := by
  simp [markFired, escalationMaxFires]

/-- The fields that no operation on a row changes. -/
structure SameReminder (row row' : FamilyReminder) : Prop where
  id : row'.id = row.id
  tenantId : row'.tenantId = row.tenantId
  userId : row'.userId = row.userId
  botKey : row'.botKey = row.botKey
  hash : row'.normalizedTitleHash = row.normalizedTitleHash

theorem advance_same (R : RRule) (row : FamilyReminder) (current : ℤ) : SameReminder row (row.advance R current) := by
  rcases advance_cases R row current with ⟨-, h⟩ | ⟨next, -, -, h⟩ <;> rw [h] <;> exact ⟨rfl, rfl, rfl, rfl, rfl⟩

theorem markFired_same (R : RRule) (row : FamilyReminder) (current : ℤ) : SameReminder row (row.markFired R current) := by
  obtain ⟨hid, htenant, huser, hbot, hhash⟩ :=
    advance_same R { row with lastFiredAt := some current, updatedAt := current, escalationCount := 0 } current
  rw [markFired_eq]
  exact ⟨hid, htenant, huser, hbot, hhash⟩

theorem acknowledge_same (R : RRule) (row : FamilyReminder) (current : ℤ) :
    SameReminder row (row.acknowledge R current) := by
  obtain ⟨hid, htenant, huser, hbot, hhash⟩ :=
    advance_same R { row with acknowledgedAt := some current, updatedAt := current, escalationCount := 0 } current
  exact ⟨hid, htenant, huser, hbot, hhash⟩

theorem snooze_same (row : FamilyReminder) (delay current : ℤ) : SameReminder row (row.snooze delay current) :=
  ⟨rfl, rfl, rfl, rfl, rfl⟩

/-- An acknowledgement never makes a reminder pending. -/
theorem acknowledge_status (R : RRule) (row : FamilyReminder) (current : ℤ) :
    (row.acknowledge R current).status = .fired ∨ (row.acknowledge R current).status = row.status := by
  rcases advance_cases R { row with acknowledgedAt := some current, updatedAt := current, escalationCount := 0 } current
    with ⟨-, h⟩ | ⟨next, -, -, h⟩
  · exact .inl (by rw [acknowledge, h])
  · exact .inr (by rw [acknowledge, h])

theorem acknowledge_updatedAt (R : RRule) (row : FamilyReminder) (current : ℤ) :
    (row.acknowledge R current).updatedAt = current := by
  rcases advance_cases R { row with acknowledgedAt := some current, updatedAt := current, escalationCount := 0 } current
    with ⟨-, h⟩ | ⟨next, -, -, h⟩ <;> rw [acknowledge, h]

/-! ### Updates -/

/-- What an update leaves of a pending reminder, apart from its texts: the next trigger is the old
one or a new one. -/
theorem update_cases {tenantId : String} {patch : ReminderPatch}
    (h : row.update R now tenantId patch = .ok (some row')) :
    row.tenantId = tenantId ∧ row.status = .pending ∧ SameReminder row row' ∧ row'.status = .pending ∧
      (row.nextTriggerAt.isSome → row'.nextTriggerAt.isSome) ∧ row'.lastFiredAt = row.lastFiredAt := by
  unfold update at h
  split at h
  · cases h
  next hguard =>
    obtain ⟨htenant, hstatus⟩ : row.tenantId = tenantId ∧ row.status = .pending := by
      simpa [not_or] using hguard
    split at h
    · cases h
    · cases hrule : row.patchRule R patch with
      | error e =>
        rw [hrule] at h
        cases h
      | ok rule =>
        cases hnext : row.patchNext R now patch rule with
        | error e =>
          simp only [hrule, bind, Except.bind, hnext] at h
          cases h
        | ok next =>
          simp only [hrule, bind, Except.bind, hnext, pure, Except.pure, Except.ok.injEq, Option.some.injEq] at h
          subst h
          refine ⟨htenant, hstatus, ⟨rfl, rfl, rfl, rfl, rfl⟩, hstatus, fun hsome => ?_, rfl⟩
          simp only [patched]
          cases next <;> simp [hsome]

end FamilyReminder

/-! ### The table -/

/-- The entry of a reminder in `uq_family_reminders_pending_semantic`. -/
def FamilyReminder.pendingKey (row : FamilyReminder) : Option (String × String × String) :=
  if row.status = .pending then
    row.normalizedTitleHash.map fun hash => (row.tenantId, row.userId.getD "__tenant_wide__", hash)
  else none

/-- The table `family_reminders`, with the index `uq_family_reminders_pending_semantic`. -/
abbrev ReminderTable := Indexed FamilyReminder.id FamilyReminder.pendingKey

end Sreda.Services
