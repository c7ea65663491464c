import Sreda.Workers.ReminderWorker

/-!
# The life of a reminder

A reminder from `schedule` on, through `update`, `cancel`, the ticks of the worker, the taps on its
buttons and the deletions and restorations of its tenant, in any order and at any times. A tick
acts with the instant at which it began, which may be long past when it comes to the reminder. The
buttons stay in the chat, so a tap may come at any later time; it has no effect when the row is
locked for too long or its commit is refused.

A deletion of the tenant leaves the reminder as it is, and the worker then skips it; the restoration
cancels a one-shot reminder whose trigger lies in the window of the deletion and moves a recurring
one past it.

## What is proved

* a reminder has a next trigger exactly while it is pending, and one that was fired has no
  occurrence left (`LifeInv`);
* **the life of a reminder** (`reminder_life`): as long as no tap comes on a cancelled reminder,
  cancelled reminders stay so and are not fired, and a firing or an acknowledgement that leaves the
  reminder pending leaves its next trigger in the future; a step keeps all of this exactly when it is
  not such a tap;
* a snooze of a cancelled reminder (`snoozed_after_cancel`).
-/

namespace Sreda.Workers

open Sreda.Lib Sreda.Services

/-! ### The system -/

/-- The clock, the tenant and the reminder. -/
structure LifeState where
  now : ℤ
  /-- `Tenant.deleted_at`. -/
  deletedAt : Option ℤ
  row : Option FamilyReminder

/-- What may happen to a reminder. -/
inductive LifeEvent where
  | wait (clock : ℤ)
  | schedule (id : String) (args : ScheduleArgs) (operationId normalizedTitleHash : Option String)
  | update (tenantId : String) (patch : ReminderPatch)
  | cancel (tenantId : String)
  /-- The worker comes to the reminder in a tick that began at `current`. -/
  | tick (current : ℤ)
  /-- A tap, with its outcome: it commits, or the lock or the commit is refused. -/
  | tap (action : String) (commits : Bool)
  | delete
  | restore

variable (R : RRule)

/-- What the worker makes of the reminder. -/
def ticked (tenantActive : Bool) (current : ℤ) (row : FamilyReminder) : FamilyReminder :=
  if fence tenantActive row current then row.markFired R current else row

/-- What an update makes of the reminder; one that raises or finds nothing leaves it. -/
def updated (now : ℤ) (tenantId : String) (patch : ReminderPatch) (row : FamilyReminder) : FamilyReminder :=
  match row.update R now tenantId patch with
  | .ok (some row') => row'
  | _ => row

/-- What an event makes of a reminder that is there. -/
def lifeRow (s : LifeState) (row : FamilyReminder) : LifeEvent → FamilyReminder
  | .update tenantId patch => updated R s.now tenantId patch row
  | .cancel tenantId => (row.cancel s.now tenantId).getD row
  | .tick current => ticked R s.deletedAt.isNone current row
  | .tap action commits => if commits then tapRow R action s.now row else row
  | .restore => s.deletedAt.elim row fun deletedAt => row.restored R deletedAt s.now
  | .wait _ | .schedule .. | .delete => row

/-- The reminder after an event. -/
def lifeRow? (s : LifeState) (event : LifeEvent) : Option FamilyReminder :=
  match s.row, event with
  | none, .schedule id args operationId hash => (scheduledRow R s.now id args operationId hash).toOption
  | none, _ => none
  | some row, event => some (lifeRow R s row event)

/-- `Tenant.deleted_at` after an event. -/
def deletedAfter (s : LifeState) : LifeEvent → Option ℤ
  | .delete => s.deletedAt.or (some s.now)
  | .restore => none
  | _ => s.deletedAt

/-- The clock does not go back, and a tick began in the past. -/
def LifeEvent.Timely (now : ℤ) : LifeEvent → Prop
  | .wait clock => now ≤ clock
  | .tick current => current ≤ now
  | _ => True

/-- The clock after an event. -/
def clockAfter (s : LifeState) : LifeEvent → ℤ
  | .wait clock => clock
  | _ => s.now

/-- The life of a reminder. -/
def reminderLife : Lts LifeState LifeEvent where
  init s := s.row = none
  step s event t := event.Timely s.now ∧ t = ⟨clockAfter s event, deletedAfter s event, lifeRow? R s event⟩

/-! ### The guarantees -/

/-- A next trigger is set exactly while the reminder is pending. -/
def NextIffPending (row : FamilyReminder) : Prop := row.nextTriggerAt.isSome ↔ row.status = .pending

/-- A reminder that is pending has its next trigger after the instant. -/
def NextAfter (row : FamilyReminder) (instant : ℤ) : Prop :=
  row.status = .pending → ∃ next ∈ row.nextTriggerAt, instant < next

/-- The reminder is cancelled still, and was not fired. -/
def StaysCancelled (row : FamilyReminder) (t : LifeState) : Prop :=
  ∃ row', t.row = some row' ∧ row'.status = .cancelled ∧ row'.lastFiredAt = row.lastFiredAt

/-- **What a step of a life promises.** -/
structure LifeGuarantees (s : LifeState) (event : LifeEvent) (t : LifeState) : Prop where
  cancelled : ∀ row, s.row = some row → row.status = .cancelled → StaysCancelled row t
  next : ∀ row', t.row = some row' → NextIffPending row'
  fired : ∀ current row row', event = .tick current → s.row = some row → fence s.deletedAt.isNone row current = true →
    t.row = some row' → row'.lastFiredAt = some current ∧ NextAfter row' current
  acknowledged : ∀ row', event = .tap "rem_done" true → t.row = some row' → NextAfter row' s.now

/-- No tap comes on a cancelled reminder. -/
def TapsLive (s : LifeState) (event : LifeEvent) : Prop :=
  ∀ action row, event = .tap action true → s.row = some row → row.status ≠ .cancelled

/-! ### The invariant -/

variable {R} {s t : LifeState} {event : LifeEvent} {row row' : FamilyReminder} {current now : ℤ}

/-- A reminder of which the invariant holds. -/
structure RowInv (R : RRule) (now : ℤ) (row : FamilyReminder) : Prop where
  next : NextIffPending row
  /-- What was fired has no occurrence left. -/
  fired : row.status = .fired → row.Exhausted R now

theorem RowInv.of_pending (hstatus : row.status = .pending) (hnext : row.nextTriggerAt.isSome) : RowInv R now row :=
  ⟨iff_of_true hnext hstatus, fun hfired => by rw [hstatus] at hfired; cases hfired⟩

theorem RowInv.of_cancelled (hstatus : row.status = .cancelled) (hnext : row.nextTriggerAt = none) :
    RowInv R now row :=
  ⟨iff_of_false (by simp [hnext]) (by simp [hstatus]), fun hfired => by rw [hstatus] at hfired; cases hfired⟩

theorem RowInv.mono {later : ℤ} (h : RowInv R now row) (hle : now ≤ later) : RowInv R later row :=
  ⟨h.next, fun hfired => (h.fired hfired).mono hle⟩

/-- The end of a cycle, for a reminder that is pending or was fired. -/
theorem RowInv.advance (row : FamilyReminder) (hlive : row.status ≠ .cancelled) (hfired : row.status = .fired → row.Exhausted R current)
    (hle : current ≤ now) : RowInv R now (row.advance R current) ∧ NextAfter (row.advance R current) current := by
  rcases FamilyReminder.advance_cases R row current with ⟨hex, h⟩ | ⟨next, hnext, hex, h⟩
  · rw [h]
    exact ⟨⟨by simp [NextIffPending], fun _ => hex.mono hle⟩, by simp [NextAfter]⟩
  · rw [h]
    have hpending : row.status = .pending := by
      cases hstatus : row.status with
      | pending => rfl
      | fired => exact absurd (hfired hstatus) hex
      | cancelled => exact absurd hstatus hlive
    exact ⟨.of_pending hpending rfl, fun _ => ⟨next, rfl, hnext⟩⟩

theorem RowInv.acknowledge (h : RowInv R now row) (hlive : row.status ≠ .cancelled) :
    RowInv R now (row.acknowledge R now) ∧ NextAfter (row.acknowledge R now) now :=
  RowInv.advance { row with acknowledgedAt := some now, updatedAt := now, escalationCount := 0 }
    hlive h.fired le_rfl

theorem RowInv.tap {action : String} (h : RowInv R now row) (hlive : row.status ≠ .cancelled) :
    RowInv R now (tapRow R action now row) := by
  unfold tapRow
  split
  · exact (h.acknowledge hlive).1
  · exact .of_pending rfl rfl

theorem markFired_spec (hstatus : row.status = .pending) (hle : current ≤ now) :
    RowInv R now (row.markFired R current) ∧ NextAfter (row.markFired R current) current ∧
      (row.markFired R current).lastFiredAt = some current := by
  obtain ⟨hinv, hafter⟩ := RowInv.advance (R := R)
    { row with lastFiredAt := some current, updatedAt := current, escalationCount := 0 }
    (by simp [hstatus]) (by simp [hstatus]) hle
  rw [FamilyReminder.markFired_eq]
  refine ⟨hinv, hafter, ?_⟩
  rcases FamilyReminder.advance_cases R
    { row with lastFiredAt := some current, updatedAt := current, escalationCount := 0 } current with ⟨-, h⟩ | ⟨next, -, -, h⟩
  · rw [h]
  · rw [h]

theorem RowInv.update {tenantId : String} {patch : ReminderPatch} (h : RowInv R now row) :
    RowInv R now (updated R now tenantId patch row) ∧
      (row.status = .cancelled → updated R now tenantId patch row = row) := by
  unfold updated
  split
  next row' hupdate =>
    obtain ⟨-, hstatus, -, hstatus', hnext, -⟩ := FamilyReminder.update_cases hupdate
    exact ⟨.of_pending hstatus' (hnext (h.next.mpr hstatus)), fun hc => by rw [hstatus] at hc; cases hc⟩
  · exact ⟨h, fun _ => rfl⟩

theorem RowInv.cancel {tenantId : String} (h : RowInv R now row) :
    RowInv R now ((row.cancel now tenantId).getD row) ∧
      (row.status = .cancelled → (row.cancel now tenantId).getD row = row) := by
  unfold FamilyReminder.cancel
  split
  · exact ⟨h, fun _ => rfl⟩
  next hn =>
    rw [not_or] at hn
    exact ⟨.of_cancelled rfl rfl, fun hc => absurd hc hn.2⟩

theorem RowInv.restored {deletedAt : ℤ} (h : RowInv R now row) :
    RowInv R now (row.restored R deletedAt now) ∧ (row.status = .cancelled → row.restored R deletedAt now = row) := by
  unfold FamilyReminder.restored
  split
  case isFalse => exact ⟨h, fun _ => rfl⟩
  next hwindow =>
    refine ⟨?_, fun hc => by rw [hwindow.1] at hc; cases hc⟩
    split
    · exact .of_cancelled rfl rfl
    next rule hrule =>
      split
      next hnone =>
        refine ⟨by simp [NextIffPending], fun _ rule' hrule' => ?_⟩
        rw [show (_ : FamilyReminder).recurrenceRule = row.recurrenceRule from rfl, hrule] at hrule'
        obtain rfl := Option.some.inj (Option.filter_eq_some_iff.mp hrule').1
        exact hnone
      · exact .of_pending hwindow.1 rfl

theorem RowInv.ticked {tenantActive : Bool} (h : RowInv R now row) (hle : current ≤ now) :
    RowInv R now (ticked R tenantActive current row) ∧
      (row.status = .cancelled → ticked R tenantActive current row = row) := by
  unfold Workers.ticked
  split
  next hfence =>
    have hstatus := (fence_iff.mp hfence).2.1
    exact ⟨(markFired_spec hstatus hle).1, fun hc => by rw [hstatus] at hc; cases hc⟩
  · exact ⟨h, fun _ => rfl⟩

/-- **One event**: the invariant is kept, and a cancelled reminder stays as it is, as long as no tap
comes on it. -/
theorem RowInv.step (h : RowInv R s.now row) (hrow : s.row = some row) (htimely : event.Timely s.now)
    (hlive : TapsLive s event) :
    RowInv R s.now (lifeRow R s row event) ∧ (row.status = .cancelled → lifeRow R s row event = row) := by
  cases event with
  | wait clock => exact ⟨h, fun _ => rfl⟩
  | schedule id args operationId hash => exact ⟨h, fun _ => rfl⟩
  | update tenantId patch => exact h.update
  | cancel tenantId => exact h.cancel
  | tick current => exact h.ticked htimely
  | tap action commits =>
    cases commits with
    | false => exact ⟨h, fun _ => rfl⟩
    | true => exact ⟨h.tap (hlive action row rfl hrow), fun hc => absurd hc (hlive action row rfl hrow)⟩
  | delete => exact ⟨h, fun _ => rfl⟩
  | restore =>
    cases hdeleted : s.deletedAt with
    | none => simpa [lifeRow, hdeleted] using h
    | some deletedAt => simpa [lifeRow, hdeleted] using h.restored

theorem RowInv.scheduled {id : String} {args : ScheduleArgs} {operationId hash : Option String}
    (h : (scheduledRow R now id args operationId hash).toOption = some row) : RowInv R now row := by
  unfold scheduledRow at h
  cases hnext : initialNextTriggerAt R now args.triggerAt args.recurrenceRule with
  | error e =>
    rw [hnext] at h
    cases h
  | ok next =>
    rw [hnext] at h
    cases h
    exact .of_pending rfl rfl

theorem Timely.le_clockAfter (h : event.Timely s.now) : s.now ≤ clockAfter s event := by
  cases event with
  | wait clock => exact h
  | _ => exact le_rfl

/-- The invariant of a life. -/
def LifeInv (R : RRule) (s : LifeState) : Prop := ∀ row, s.row = some row → RowInv R s.now row

theorem LifeInv.step (h : LifeInv R s) (hs : (reminderLife R).step s event t) (hlive : TapsLive s event) :
    LifeInv R t := by
  obtain ⟨htimely, rfl⟩ := hs
  intro row' hrow'
  refine RowInv.mono ?_ (Timely.le_clockAfter htimely)
  cases hrow : s.row with
  | none =>
    cases event with
    | schedule id args operationId hash =>
      simp only [lifeRow?, hrow] at hrow'
      exact .scheduled hrow'
    | _ =>
      simp only [lifeRow?, hrow] at hrow'
      cases hrow'
  | some row =>
    simp only [lifeRow?, hrow, Option.some.injEq] at hrow'
    subst hrow'
    exact ((h row hrow).step hrow htimely hlive).1

theorem lifeInv (h : ((reminderLife R).guard TapsLive).Reachable s) : LifeInv R s := by
  refine Lts.Reachable.induct (P := LifeInv R) ?_ ?_ h
  · intro s hs row hrow
    rw [show s.row = none from hs] at hrow
    cases hrow
  · rintro s event t - hinv ⟨hs, hlive⟩
    exact hinv.step hs hlive

/-! ### The life of a reminder -/

theorem row_of_step (hs : (reminderLife R).step s event t) (hrow : s.row = some row) :
    t.row = some (lifeRow R s row event) := by
  obtain ⟨-, rfl⟩ := hs
  simp [lifeRow?, hrow]

theorem staysCancelled_of_step (h : LifeInv R s) (hs : (reminderLife R).step s event t) (hlive : TapsLive s event)
    (hrow : s.row = some row) (hstatus : row.status = .cancelled) : t.row = some row := by
  rw [row_of_step hs hrow, ((h row hrow).step hrow hs.1 hlive).2 hstatus]

theorem guarantees_of_tapsLive (h : LifeInv R s) (hs : (reminderLife R).step s event t) (hlive : TapsLive s event) :
    LifeGuarantees s event t := by
  refine ⟨fun row hrow hstatus => ?_, fun row' hrow' => (h.step hs hlive row' hrow').next, ?_, ?_⟩
  · exact ⟨row, staysCancelled_of_step h hs hlive hrow hstatus, hstatus, rfl⟩
  · rintro current row row' rfl hrow hfence hrow'
    obtain rfl : lifeRow R s row (.tick current) = row' := Option.some.inj ((row_of_step hs hrow).symm.trans hrow')
    have hrow'' : lifeRow R s row (.tick current) = row.markFired R current := by
      simp [lifeRow, ticked, hfence]
    rw [hrow'']
    obtain ⟨-, hafter, hlast⟩ := markFired_spec (R := R) (fence_iff.mp hfence).2.1 hs.1
    exact ⟨hlast, hafter⟩
  · rintro row' rfl hrow'
    cases hrow : s.row with
    | none =>
      obtain ⟨-, rfl⟩ := hs
      simp [lifeRow?, hrow] at hrow'
    | some row =>
      obtain rfl : lifeRow R s row (.tap "rem_done" true) = row' :=
        Option.some.inj ((row_of_step hs hrow).symm.trans hrow')
      exact ((h row hrow).acknowledge (hlive "rem_done" row rfl hrow)).2

/-- A tap on a cancelled reminder breaks a promise: the reminder is pending or fired after it, or it
has a next trigger. -/
theorem tapsLive_of_guarantees (hs : (reminderLife R).step s event t) (h : LifeGuarantees s event t) :
    TapsLive s event := by
  rintro action row rfl hrow hstatus
  have hrow' := row_of_step hs hrow
  obtain ⟨row', hget, hcancelled, -⟩ := h.cancelled row hrow hstatus
  obtain rfl : lifeRow R s row (.tap action true) = row' := Option.some.inj (hrow'.symm.trans hget)
  have hnext := h.next _ hget
  have hrowEq : lifeRow R s row (.tap action true) = tapRow R action s.now row := rfl
  rw [hrowEq] at hcancelled hnext
  unfold tapRow at hcancelled hnext
  split at hcancelled
  next haction =>
    rw [if_pos haction] at hnext
    rcases FamilyReminder.advance_cases R
      { row with acknowledgedAt := some s.now, updatedAt := s.now, escalationCount := 0 } s.now with ⟨-, h'⟩ | ⟨next, -, -, h'⟩
    · rw [FamilyReminder.acknowledge, h'] at hcancelled
      cases hcancelled
    · rw [FamilyReminder.acknowledge, h', NextIffPending] at hnext
      have hpending := hnext.mp rfl
      rw [show (_ : FamilyReminder).status = row.status from rfl, hstatus] at hpending
      cases hpending
  · cases hcancelled

/-- **The life of a reminder**: in every run in which no tap comes on a cancelled reminder, a next
trigger is set exactly while the reminder is pending, and a cancelled reminder stays cancelled and
is not fired for the rest of the run; and a step keeps its promises exactly when it is not such a tap. -/
theorem reminder_life (R : RRule) (s : LifeState) (h : ((reminderLife R).guard TapsLive).Reachable s) :
    (∀ row, s.row = some row → NextIffPending row) ∧
      (∀ events t, ((reminderLife R).guard TapsLive).Run s events t → ∀ row, s.row = some row →
        row.status = .cancelled → StaysCancelled row t) ∧
      ∀ event t, (reminderLife R).step s event t → (LifeGuarantees s event t ↔ TapsLive s event) := by
  refine ⟨fun row hrow => (lifeInv h row hrow).next, fun events t hrun row hrow hstatus => ?_, fun event t hs => ?_⟩
  · have hkeep := hrun.keeps (P := fun t => LifeInv R t ∧ t.row = some row) ?_ ⟨lifeInv h, hrow⟩
    · exact ⟨row, hkeep.2, hstatus, rfl⟩
    · rintro u event t ⟨hinv, hrow⟩ ⟨hs, hlive⟩
      exact ⟨hinv.step hs hlive, staysCancelled_of_step hinv hs hlive hrow hstatus⟩
  · exact ⟨tapsLive_of_guarantees hs, guarantees_of_tapsLive (lifeInv h) hs⟩

/-! ### A snooze of a cancelled reminder -/

/-- A one-shot reminder. -/
def pillArgs : ScheduleArgs := { tenantId := "tenant_1", title := "pills".toList, triggerAt := 100 }

/-- It is scheduled. -/
def scheduledPills : LifeState := ⟨0, none, some pillReminder⟩

/-- It is cancelled. -/
def cancelledPills : LifeState :=
  ⟨0, none, some { pillReminder with status := .cancelled, nextTriggerAt := none, updatedAt := 0 }⟩

theorem scheduledPills_reachable : ((reminderLife noRules).guard TapsLive).Reachable scheduledPills := by
  have hinit : (reminderLife noRules).init ⟨0, none, none⟩ := rfl
  refine (Lts.Hist.init (L := (reminderLife noRules).guard TapsLive) hinit).reachable.step
    (a := .schedule "rem_1" pillArgs none none) ⟨⟨trivial, ?_⟩, by simp [TapsLive]⟩
  rfl

theorem cancelledPills_reachable : ((reminderLife noRules).guard TapsLive).Reachable cancelledPills := by
  refine scheduledPills_reachable.step (a := .cancel "tenant_1") ⟨⟨trivial, ?_⟩, by simp [TapsLive]⟩
  rfl

/-- The life of the reminder after it is scheduled. -/
theorem reminder_life_scheduledPills :
    (∀ row, scheduledPills.row = some row → NextIffPending row) ∧
      (∀ events t, ((reminderLife noRules).guard TapsLive).Run scheduledPills events t → ∀ row,
        scheduledPills.row = some row → row.status = .cancelled → StaysCancelled row t) ∧
      ∀ event t, (reminderLife noRules).step scheduledPills event t →
        (LifeGuarantees scheduledPills event t ↔ TapsLive scheduledPills event) :=
  reminder_life noRules scheduledPills scheduledPills_reachable

/-- **A snooze of a cancelled reminder** makes it pending. -/
theorem snoozed_after_cancel : ¬ ∀ R s, (reminderLife R).Reachable s → ∀ event t, (reminderLife R).step s event t →
    LifeGuarantees s event t := by
  intro h
  have hstep : (reminderLife noRules).step cancelledPills (.tap "rem_snooze" true)
      ⟨0, none, lifeRow? noRules cancelledPills (.tap "rem_snooze" true)⟩ := ⟨trivial, rfl⟩
  exact tapsLive_of_guarantees hstep (h noRules cancelledPills cancelledPills_reachable.of_guard _ _ hstep)
    "rem_snooze" _ rfl rfl rfl

end Sreda.Workers
