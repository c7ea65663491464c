import Mathlib.Data.List.Sort
import Sreda.Lib.Buckets
import Sreda.Services.Tasks

/-!
# Tasks of a window of days

`services/tasks.py`, `TaskService.list_range`: the pending tasks of a user on every day of a window.
The days get empty lists, the tasks of the window are appended to theirs, and then every rule is
expanded over the window. A rule that does not parse is logged and passed over.

The tables hold the tasks of all users. Dates end with `date.max`, and the loop over the days steps
past the last of them.

## What is proved

* what is on a day in the end (`listRange_eq`, `mem_dayList`);
* on a day after its own, a task is listed as often as its rule fires (`nodup_dayList`);
* the listing is right exactly when the window ends before `date.max` and no rule fires twice on a
  day of the window other than the task's own, or before it (`listRange_right_iff`).
-/

namespace Sreda.Services.TaskRange

open Sreda.Lib
open Sreda.Lib.Buckets

/-- `rule.between(after, before, inc=True)`: all occurrences from one instant to another. -/
structure Between (R : RRule) where
  between : String → ℤ → ℤ → ℤ → List ℤ
  sorted : ∀ rule dtstart lo hi, (between rule dtstart lo hi).Pairwise (· < ·)
  mem_between : ∀ {rule dtstart lo hi t}, t ∈ between rule dtstart lo hi ↔ t ∈ R.occurrences rule dtstart ∧ lo ≤ t ∧ t ≤ hi

/-- A row of the table `tasks`. -/
structure TaskRow extends Task where
  tenantId : String
  userId : String
  deriving DecidableEq

/-- `OverflowError`: `date value out of range`. -/
structure DateOverflow where
  deriving DecidableEq

/-- `date.max`, the last day of the year 9999. -/
def dateMax : ℤ := 2932896

/-- `occ.date()`. -/
def dateOf (occ : ℤ) : ℤ := occ / 86400000000

/-- The days from one to another. -/
def window (fromDate toDate : ℤ) : List ℤ := (List.range (toDate - fromDate + 1).toNat).map fun k : ℕ => fromDate + k

/-- `t.time_start or time(23, 59)`, and the creation. -/
def sortKey (row : TaskRow) : ℤ × ℤ := (row.timeStart.getD 86340000000, row.createdAt)

/-- The order of a list: by the time of day, then by the creation. -/
def Before (a b : TaskRow) : Prop := (sortKey a).1 < (sortKey b).1 ∨ (sortKey a).1 = (sortKey b).1 ∧ (sortKey a).2 ≤ (sortKey b).2

instance : DecidableRel Before := fun _ _ => inferInstanceAs (Decidable (_ ∨ _))

variable {R : RRule} (B : Between R) (table : Keyed fun row : TaskRow => row.id) (owner : TaskOwner) (fromDate toDate : ℤ)

/-- A pending task of the user. -/
def Listed (row : TaskRow) : Prop := row.tenantId = owner.tenantId ∧ row.userId = owner.userId ∧ row.status = .pending

instance (row : TaskRow) : Decidable (Listed owner row) := inferInstanceAs (Decidable (_ ∧ _ ∧ _))

/-- The first query: the tasks that are scheduled inside of the window, with their dates. -/
def inWindow : List (ℤ × TaskRow) :=
  (table.rows.filter fun row => Listed owner row).filterMap fun row =>
    (row.scheduledDate.filter fun date => fromDate ≤ date ∧ date ≤ toDate).map fun date => (date, row)

/-- A task with a rule, and its date. -/
structure Recurring where
  row : TaskRow
  rule : String
  date : ℤ

/-- The second query: the tasks with a rule and a date up to the end of the window. -/
def recurring : List Recurring :=
  (table.rows.filter fun row => Listed owner row).filterMap fun row =>
    match row.recurrenceRule, row.scheduledDate with
    | some rule, some date => if date ≤ toDate then some ⟨row, rule, date⟩ else none
    | _, _ => none

/-- `datetime.combine(t.scheduled_date, t.time_start or time(0, 0))`. -/
def dtstart (row : TaskRow) (date : ℤ) : ℤ := combine date (row.timeStart.getD 0)

/-- One occurrence of a rule. -/
def attach (task : Recurring) (result : Buckets ℤ TaskRow) (occ : ℤ) : Buckets ℤ TaskRow :=
  if dateOf occ ∉ result.map Prod.fst then result
  -- the first loop has added it
  else if task.date = dateOf occ then result
  else result.append (dateOf occ) task.row

/-- The rule of a task, expanded over the window; both ends are midnights and belong to it. -/
def expand (result : Buckets ℤ TaskRow) (task : Recurring) : Buckets ℤ TaskRow :=
  if R.valid task.rule (dtstart task.row task.date) then
    (B.between task.rule (dtstart task.row task.date) (combine fromDate 0) (combine (toDate + 1) 0)).foldl (attach task) result
  else result

/-- `list_range`. -/
def listRange : Except DateOverflow (Buckets ℤ TaskRow) :=
  if toDate < fromDate then .ok []
  else if dateMax ≤ toDate then .error {}
  else
    let result := skeleton (window fromDate toDate)
    let result := (inWindow table owner fromDate toDate).foldl (fun result item => result.append item.1 item.2) result
    let result := (recurring table owner toDate).foldl (expand B fromDate toDate) result
    .ok (result.map fun bucket => (bucket.1, bucket.2.insertionSort Before))

/-! ### What is asked of it -/

/-- The rule of a task fires at an instant: a rule that does not parse never does. -/
def Fires (R : RRule) (row : TaskRow) (t : ℤ) : Prop :=
  ∃ rule date, row.recurrenceRule = some rule ∧ row.scheduledDate = some date ∧
    R.valid rule (dtstart row date) ∧ t ∈ R.occurrences rule (dtstart row date)

/-- A task belongs to a day: it is scheduled for it, or its rule fires on it, later than that. -/
def BelongsTo (R : RRule) (row : TaskRow) (day : ℤ) : Prop :=
  row.scheduledDate = some day ∨ ∃ date, row.scheduledDate = some date ∧ date < day ∧ ∃ t, Fires R row t ∧ dateOf t = day

/-- A right listing: the days of the window, no task twice on one of them, and each on the days it
belongs to. -/
structure Right (R : RRule) (result : Buckets ℤ TaskRow) : Prop where
  keys_nodup : (result.map Prod.fst).Nodup
  keys : ∀ day, day ∈ result.map Prod.fst ↔ fromDate ≤ day ∧ day ≤ toDate
  once : ∀ bucket ∈ result, (bucket.2.map fun row => row.id).Nodup
  mem : ∀ bucket ∈ result, ∀ row, row ∈ bucket.2 ↔ row ∈ table.rows ∧ Listed owner row ∧ BelongsTo R row bucket.1

/-- The rule of a task suits the window: on no day of it, apart from the task's own, does it fire
twice, and it does not fire earlier than that. -/
def Suits (R : RRule) (row : TaskRow) : Prop :=
  ∀ date, row.scheduledDate = some date → date ≤ toDate → ∀ t, Fires R row t → fromDate ≤ dateOf t → dateOf t ≤ toDate →
    dateOf t ≠ date → date < dateOf t ∧ ∀ t', Fires R row t' → dateOf t' = dateOf t → t' = t

/-! ### The two loops -/

variable {B table owner fromDate toDate}

theorem mem_window {day : ℤ} : day ∈ window fromDate toDate ↔ fromDate ≤ day ∧ day ≤ toDate := by
  simp only [window, List.mem_map, List.mem_range]
  constructor
  · rintro ⟨k, hk, rfl⟩
    omega
  · rintro ⟨h, h'⟩
    exact ⟨(day - fromDate).toNat, by omega, by omega⟩

theorem nodup_window : (window fromDate toDate).Nodup := by
  refine List.nodup_range.map_on fun k _ k' _ h => ?_
  omega

theorem mem_inWindow {day : ℤ} {row : TaskRow} : (day, row) ∈ inWindow table owner fromDate toDate ↔
    row ∈ table.rows ∧ Listed owner row ∧ row.scheduledDate = some day ∧ fromDate ≤ day ∧ day ≤ toDate := by
  simp only [inWindow, List.mem_filterMap, List.mem_filter, decide_eq_true_eq, Option.map_eq_some_iff,
    Option.filter_eq_some_iff, Prod.mk.injEq]
  constructor
  · rintro ⟨_, ⟨hmem, hlisted⟩, _, ⟨hdate, h, h'⟩, rfl, rfl⟩
    exact ⟨hmem, hlisted, hdate, h, h'⟩
  · rintro ⟨hmem, hlisted, hdate, h, h'⟩
    exact ⟨row, ⟨hmem, hlisted⟩, day, ⟨hdate, h, h'⟩, rfl, rfl⟩

theorem nodup_rows : table.rows.Nodup := List.Nodup.of_map _ table.nodup

theorem nodup_inWindow : (inWindow table owner fromDate toDate).Nodup := by
  refine (nodup_rows.filter _).filterMap fun row row' item h h' => ?_
  simp only [Option.mem_def, Option.map_eq_some_iff] at h h'
  obtain ⟨_, -, rfl⟩ := h
  obtain ⟨_, -, heq⟩ := h'
  exact (Prod.mk.inj heq).2.symm

theorem mem_recurring {task : Recurring} : task ∈ recurring table owner toDate ↔
    task.row ∈ table.rows ∧ Listed owner task.row ∧ task.row.recurrenceRule = some task.rule ∧
      task.row.scheduledDate = some task.date ∧ task.date ≤ toDate := by
  simp only [recurring, List.mem_filterMap, List.mem_filter, decide_eq_true_eq]
  constructor
  · rintro ⟨row, ⟨hmem, hlisted⟩, h⟩
    split at h
    · next rule date hrule hdate =>
      split_ifs at h with hle
      obtain rfl := Option.some.inj h
      exact ⟨hmem, hlisted, hrule, hdate, hle⟩
    · cases h
  · rintro ⟨hmem, hlisted, hrule, hdate, hle⟩
    exact ⟨task.row, ⟨hmem, hlisted⟩, by simp [hrule, hdate, hle]⟩

theorem eq_of_row {task task' : Recurring} (h : task ∈ recurring table owner toDate)
    (h' : task' ∈ recurring table owner toDate) (hrow : task.row = task'.row) : task = task' := by
  obtain ⟨-, -, hrule, hdate, -⟩ := mem_recurring.mp h
  obtain ⟨-, -, hrule', hdate', -⟩ := mem_recurring.mp h'
  rw [hrow] at hrule hdate
  obtain ⟨row, rule, date⟩ := task
  obtain ⟨row', rule', date'⟩ := task'
  simp_all

theorem nodup_recurring : (recurring table owner toDate).Nodup := by
  refine (nodup_rows.filter _).filterMap fun row row' task h h' => ?_
  have hrow : ∀ {r : TaskRow}, (match r.recurrenceRule, r.scheduledDate with
      | some rule, some date => if date ≤ toDate then some (⟨r, rule, date⟩ : Recurring) else none
      | _, _ => none) = some task → task.row = r := by
    intro r h
    split at h
    · split_ifs at h
      rw [← Option.some.inj h]
    · cases h
  exact (hrow h).symm.trans (hrow h')

variable (B fromDate toDate) in
/-- What the rule of a task adds to the days. -/
def expansion (task : Recurring) : List (ℤ × TaskRow) :=
  if R.valid task.rule (dtstart task.row task.date) then
    ((B.between task.rule (dtstart task.row task.date) (combine fromDate 0) (combine (toDate + 1) 0)).filter
      fun occ => task.date ≠ dateOf occ).map fun occ => (dateOf occ, task.row)
  else []

theorem foldl_attach (task : Recurring) (occs : List ℤ) : ∀ result : Buckets ℤ TaskRow,
    occs.foldl (attach task) result =
      result.appendAll ((occs.filter fun occ => task.date ≠ dateOf occ).map fun occ => (dateOf occ, task.row)) := by
  induction occs with
  | nil => exact fun _ => rfl
  | cons occ occs ih =>
    intro result
    rw [List.foldl_cons, ih, attach]
    by_cases hdate : task.date = dateOf occ
    · simp [hdate]
    · by_cases hmem : dateOf occ ∈ result.map Prod.fst
      · simp [hdate, hmem, appendAll]
      · simp [hdate, hmem, appendAll, append_of_not_mem hmem]

theorem expand_eq (result : Buckets ℤ TaskRow) (task : Recurring) :
    expand B fromDate toDate result task = result.appendAll (expansion B fromDate toDate task) := by
  rw [expand, expansion]
  split_ifs
  · exact foldl_attach task _ result
  · rfl

theorem foldl_expand (tasks : List Recurring) : ∀ result : Buckets ℤ TaskRow,
    tasks.foldl (expand B fromDate toDate) result = result.appendAll (tasks.flatMap (expansion B fromDate toDate)) := by
  induction tasks with
  | nil => exact fun _ => rfl
  | cons task tasks ih =>
    intro result
    rw [List.foldl_cons, ih, expand_eq, List.flatMap_cons, appendAll_append]

variable (B table owner fromDate toDate) in
/-- What is on a day, before it is sorted. -/
def dayList (day : ℤ) : List TaskRow :=
  valuesAt (inWindow table owner fromDate toDate ++
    (recurring table owner toDate).flatMap (expansion B fromDate toDate)) day

theorem listRange_eq (h : fromDate ≤ toDate) (hmax : toDate < dateMax) : listRange B table owner fromDate toDate =
    .ok ((window fromDate toDate).map fun day => (day, (dayList B table owner fromDate toDate day).insertionSort Before)) := by
  rw [listRange, if_neg (by omega), if_neg (by omega)]
  refine congrArg Except.ok ?_
  rw [foldl_expand, ← appendAll, ← appendAll_append, appendAll_skeleton, List.map_map]
  rfl

/-! ### A day -/

section Day

variable {day : ℤ}

theorem mem_between_day {rule : String} {start t : ℤ} (hfrom : fromDate ≤ dateOf t) (hto : dateOf t ≤ toDate) :
    t ∈ B.between rule start (combine fromDate 0) (combine (toDate + 1) 0) ↔ t ∈ R.occurrences rule start := by
  rw [B.mem_between]
  simp only [dateOf, combine] at *
  exact and_iff_left ⟨by omega, by omega⟩

theorem valuesAt_expansion (task : Recurring) (day : ℤ) : valuesAt (expansion B fromDate toDate task) day =
    (if R.valid task.rule (dtstart task.row task.date) then
      (B.between task.rule (dtstart task.row task.date) (combine fromDate 0) (combine (toDate + 1) 0)).filter
        fun occ => task.date ≠ day ∧ dateOf occ = day
    else []).map fun _ => task.row := by
  rw [expansion]
  split_ifs
  · rw [valuesAt, List.filter_map, List.map_map, List.filter_filter]
    simp only [Function.comp_def]
    congr 1
    refine List.filter_congr fun occ _ => ?_
    by_cases h : dateOf occ = day
    · simp [h]
    · simp [h]
  · rfl

/-- The instants at which a rule fires on a day, in the listing. -/
theorem mem_expansion_day {task : Recurring} {t : ℤ} (hday : fromDate ≤ day ∧ day ≤ toDate) :
    (t ∈ if R.valid task.rule (dtstart task.row task.date) then
      (B.between task.rule (dtstart task.row task.date) (combine fromDate 0) (combine (toDate + 1) 0)).filter
        fun occ => task.date ≠ day ∧ dateOf occ = day
    else []) ↔ R.valid task.rule (dtstart task.row task.date) ∧ task.date ≠ day ∧ dateOf t = day ∧
      t ∈ R.occurrences task.rule (dtstart task.row task.date) := by
  split_ifs with hvalid
  · simp only [List.mem_filter, decide_eq_true_eq, hvalid, true_and]
    constructor
    · rintro ⟨hmem, hne, rfl⟩
      exact ⟨hne, rfl, (mem_between_day hday.1 hday.2).mp hmem⟩
    · rintro ⟨hne, rfl, hmem⟩
      exact ⟨(mem_between_day hday.1 hday.2).mpr hmem, hne, rfl⟩
  · simp [hvalid]

theorem fires_iff {task : Recurring} (h : task ∈ recurring table owner toDate) {t : ℤ} : Fires R task.row t ↔
    R.valid task.rule (dtstart task.row task.date) ∧ t ∈ R.occurrences task.rule (dtstart task.row task.date) := by
  obtain ⟨-, -, hrule, hdate, -⟩ := mem_recurring.mp h
  constructor
  · rintro ⟨rule, date, hrule', hdate', hvalid, hmem⟩
    obtain rfl := Option.some.inj (hrule.symm.trans hrule')
    obtain rfl := Option.some.inj (hdate.symm.trans hdate')
    exact ⟨hvalid, hmem⟩
  · rintro ⟨hvalid, hmem⟩
    exact ⟨task.rule, task.date, hrule, hdate, hvalid, hmem⟩

/-- A rule that fires belongs to a task of the second query. -/
theorem exists_recurring {row : TaskRow} {t date : ℤ} (hrow : row ∈ table.rows) (hlisted : Listed owner row)
    (hdate : row.scheduledDate = some date) (hle : date ≤ toDate) (hfires : Fires R row t) :
    ∃ task ∈ recurring table owner toDate, task.row = row ∧ task.date = date := by
  obtain ⟨rule, date', hrule, hdate', -⟩ := hfires
  obtain rfl := Option.some.inj (hdate.symm.trans hdate')
  exact ⟨⟨row, rule, date⟩, mem_recurring.mpr ⟨hrow, hlisted, hrule, hdate, hle⟩, rfl, rfl⟩

/-- What is on a day: the tasks scheduled for it, and those whose rule fires on it. -/
theorem mem_dayList {row : TaskRow} (hday : fromDate ≤ day ∧ day ≤ toDate) :
    row ∈ dayList B table owner fromDate toDate day ↔ row ∈ table.rows ∧ Listed owner row ∧
      (row.scheduledDate = some day ∨
        ∃ date, row.scheduledDate = some date ∧ date ≤ toDate ∧ date ≠ day ∧ ∃ t, Fires R row t ∧ dateOf t = day) := by
  rw [dayList, valuesAt_append, List.mem_append, mem_valuesAt, mem_inWindow, valuesAt_flatMap, List.mem_flatMap]
  simp only [valuesAt_expansion, List.mem_map, mem_expansion_day hday]
  constructor
  · rintro (⟨hrow, hlisted, hdate, -⟩ | ⟨task, htask, t, ⟨hvalid, hne, ht, hmem⟩, rfl⟩)
    · exact ⟨hrow, hlisted, .inl hdate⟩
    · obtain ⟨hrow, hlisted, -, hdate, hle⟩ := mem_recurring.mp htask
      exact ⟨hrow, hlisted, .inr ⟨task.date, hdate, hle, hne, t, (fires_iff htask).mpr ⟨hvalid, hmem⟩, ht⟩⟩
  · rintro ⟨hrow, hlisted, hdate | ⟨date, hdate, hle, hne, t, hfires, ht⟩⟩
    · exact .inl ⟨hrow, hlisted, hdate, hday⟩
    · obtain ⟨task, htask, rfl, rfl⟩ := exists_recurring hrow hlisted hdate hle hfires
      obtain ⟨hvalid, hmem⟩ := (fires_iff htask).mp hfires
      exact .inr ⟨task, htask, t, ⟨hvalid, hne, ht, hmem⟩, rfl⟩

/-- No task is on a day twice when, and only when, no rule fires twice on it; the own day of a task
does not count. -/
theorem nodup_dayList (hday : fromDate ≤ day ∧ day ≤ toDate) : (dayList B table owner fromDate toDate day).Nodup ↔
    ∀ task ∈ recurring table owner toDate, task.date ≠ day → ∀ t t', Fires R task.row t → Fires R task.row t' →
      dateOf t = day → dateOf t' = day → t = t' := by
  rw [dayList, valuesAt_append, List.nodup_append, valuesAt_flatMap, List.nodup_flatMap]
  have hone : ∀ task : Recurring, (valuesAt (expansion B fromDate toDate task) day).Nodup ↔
      ∀ t t', (R.valid task.rule (dtstart task.row task.date) ∧ task.date ≠ day ∧ dateOf t = day ∧
        t ∈ R.occurrences task.rule (dtstart task.row task.date)) →
      (R.valid task.rule (dtstart task.row task.date) ∧ task.date ≠ day ∧ dateOf t' = day ∧
        t' ∈ R.occurrences task.rule (dtstart task.row task.date)) → t = t' := by
    intro task
    rw [valuesAt_expansion, List.nodup_map_iff_inj_on]
    · simp only [mem_expansion_day hday, forall_const]
      exact ⟨fun h t t' ht ht' => h t ht t' ht', fun h t ht t' ht' => h t t' ht ht'⟩
    · split_ifs
      · exact ((B.sorted _ _ _ _).imp fun h => ne_of_lt h).filter _
      · exact List.nodup_nil
  have hrows : ∀ task ∈ recurring table owner toDate, ∀ row ∈ valuesAt (expansion B fromDate toDate task) day,
      row = task.row ∧ task.date ≠ day := by
    intro task htask row hrow
    rw [valuesAt_expansion, List.mem_map] at hrow
    obtain ⟨t, ht, rfl⟩ := hrow
    exact ⟨rfl, ((mem_expansion_day hday).mp ht).2.1⟩
  constructor
  · rintro ⟨-, ⟨h, -⟩, -⟩ task htask hne t t' ht ht' hdate hdate'
    obtain ⟨hvalid, hmem⟩ := (fires_iff htask).mp ht
    obtain ⟨-, hmem'⟩ := (fires_iff htask).mp ht'
    exact (hone task).mp (h task htask) t t' ⟨hvalid, hne, hdate, hmem⟩ ⟨hvalid, hne, hdate', hmem'⟩
  · intro h
    refine ⟨nodup_valuesAt nodup_inWindow day, ⟨fun task htask => (hone task).mpr ?_, ?_⟩, ?_⟩
    · rintro t t' ⟨hvalid, hne, hdate, hmem⟩ ⟨-, -, hdate', hmem'⟩
      exact h task htask hne t t' ((fires_iff htask).mpr ⟨hvalid, hmem⟩) ((fires_iff htask).mpr ⟨hvalid, hmem'⟩) hdate hdate'
    · -- different tasks of the query are different rows
      refine List.Pairwise.imp_of_mem (fun {task task'} htask htask' hne => ?_) nodup_recurring
      refine List.disjoint_left.mpr fun row hrow hrow' => hne ?_
      exact eq_of_row htask htask' ((hrows task htask row hrow).1.symm.trans (hrows task' htask' row hrow').1)
    · -- the first query has the tasks of the day, the second adds others
      rintro row hrow row' hrow' rfl
      obtain ⟨task, htask, hrow'⟩ := List.mem_flatMap.mp hrow'
      obtain ⟨rfl, hne⟩ := hrows task htask row hrow'
      obtain ⟨-, -, hdate, -⟩ := mem_inWindow.mp (mem_valuesAt.mp hrow)
      obtain ⟨-, -, -, hdate', -⟩ := mem_recurring.mp htask
      exact hne (Option.some.inj (hdate'.symm.trans hdate))

end Day

/-! ### The listing -/

/-- What is listed on the days of a window suits a right listing exactly when the rules do. -/
theorem right_iff_of_le (h : fromDate ≤ toDate) (hmax : toDate < dateMax) :
    (∃ result, listRange B table owner fromDate toDate = .ok result ∧ Right table owner fromDate toDate R result) ↔
      ∀ row ∈ table.rows, Listed owner row → Suits fromDate toDate R row := by
  have hperm : ∀ day, ((dayList B table owner fromDate toDate day).insertionSort Before).Perm
      (dayList B table owner fromDate toDate day) := fun day => List.perm_insertionSort _ _
  rw [listRange_eq h hmax]
  constructor
  · rintro ⟨_, heq, hright⟩ row hrow hlisted date hdate hle t hfires hfrom hto hne
    obtain rfl := Except.ok.inj heq
    have hbucket := List.mem_map_of_mem (f := fun day => (day, (dayList B table owner fromDate toDate day).insertionSort Before))
      (mem_window.mpr ⟨hfrom, hto⟩)
    refine ⟨?_, fun t' hfires' hsame => ?_⟩
    · have hmem : row ∈ dayList B table owner fromDate toDate (dateOf t) :=
        (mem_dayList ⟨hfrom, hto⟩).mpr ⟨hrow, hlisted, .inr ⟨date, hdate, hle, hne.symm, t, hfires, rfl⟩⟩
      obtain ⟨-, -, hday | ⟨date', hdate', hlt, -⟩⟩ := (hright.mem _ hbucket row).mp ((hperm _).mem_iff.mpr hmem)
      · exact absurd (Option.some.inj (hday.symm.trans hdate)) hne
      · obtain rfl := Option.some.inj (hdate.symm.trans hdate')
        exact hlt
    · obtain ⟨task, htask, rfl, rfl⟩ := exists_recurring hrow hlisted hdate hle hfires
      have hnodup := (hperm _).nodup_iff.mp (List.Nodup.of_map _ (hright.once _ hbucket))
      exact (nodup_dayList ⟨hfrom, hto⟩).mp hnodup task htask hne.symm t' t hfires' hfires hsame rfl
  · intro hsuits
    refine ⟨_, rfl, ?_, fun day => ?_, ?_, ?_⟩
    · rw [List.map_map]
      simpa [Function.comp_def] using nodup_window
    · rw [List.map_map]
      simpa [Function.comp_def] using mem_window
    · intro bucket hbucket
      obtain ⟨day, hday, rfl⟩ := List.mem_map.mp hbucket
      have hwindow := mem_window.mp hday
      have hnodup : (dayList B table owner fromDate toDate day).Nodup := by
        refine (nodup_dayList hwindow).mpr fun task htask hne t t' ht ht' hdate hdate' => ?_
        obtain ⟨hrow, hlisted, -, htaskDate, hle⟩ := mem_recurring.mp htask
        subst hdate
        exact ((hsuits _ hrow hlisted _ htaskDate hle t ht hwindow.1 hwindow.2 hne.symm).2 t' ht' hdate').symm
      refine ((hperm day).nodup_iff.mpr hnodup).map_on fun row hrow row' hrow' hid => ?_
      have hmem := ((mem_dayList hwindow).mp ((hperm day).mem_iff.mp hrow)).1
      have hmem' := ((mem_dayList hwindow).mp ((hperm day).mem_iff.mp hrow')).1
      exact table.eq_of_key hmem hmem' hid
    · intro bucket hbucket row
      obtain ⟨day, hday, rfl⟩ := List.mem_map.mp hbucket
      have hwindow := mem_window.mp hday
      rw [(hperm day).mem_iff, mem_dayList hwindow]
      refine and_congr_right fun hrow => and_congr_right fun hlisted => or_congr_right ?_
      constructor
      · rintro ⟨date, hdate, hle, hne, t, hfires, rfl⟩
        exact ⟨date, hdate, (hsuits row hrow hlisted date hdate hle t hfires hwindow.1 hwindow.2 hne.symm).1, t, hfires, rfl⟩
      · rintro ⟨date, hdate, hlt, t, hfires, ht⟩
        exact ⟨date, hdate, by omega, by omega, t, hfires, ht⟩

variable (B table owner fromDate toDate) in
/-- **The listing is right** exactly when its window does not end with the last date there is, and no
rule of a listed task fires, on a day of the window other than the task's own, twice or too early. -/
theorem listRange_right_iff :
    (∃ result, listRange B table owner fromDate toDate = .ok result ∧ Right table owner fromDate toDate R result) ↔
      (fromDate ≤ toDate → toDate < dateMax) ∧
        ∀ row ∈ table.rows, Listed owner row → Suits fromDate toDate R row := by
  by_cases h : fromDate ≤ toDate
  · by_cases hmax : toDate < dateMax
    · simpa [h, hmax] using right_iff_of_le h hmax
    · have herror : listRange B table owner fromDate toDate = .error {} := by
        rw [listRange, if_neg (by omega), if_pos (by omega)]
      simp [herror, h, hmax]
  · have hempty : listRange B table owner fromDate toDate = .ok [] := by rw [listRange, if_pos (by omega)]
    have hright : Right table owner fromDate toDate R [] := by
      refine ⟨List.nodup_nil, fun day => ?_, by simp, by simp⟩
      simp only [List.map_nil, List.not_mem_nil, false_iff]
      omega
    refine iff_of_true ⟨[], hempty, hright⟩ ⟨fun hle => absurd hle h, fun row _ _ date _ _ t _ hfrom hto => ?_⟩
    omega

/-! ### A rule that fires every twelve hours -/

/-- Rules whose occurrences are listed. -/
def listedRules (occs : String → ℤ → List ℤ) (hsorted : ∀ rule start, (occs rule start).Pairwise (· < ·)) : RRule where
  valid rule start := occs rule start ≠ []
  occurrences rule start := {t | t ∈ occs rule start}
  after rule start reference := (occs rule start).find? (reference < ·)
  after_some := by
    intro rule start reference t h
    obtain ⟨hlt, before, rest, heq, hbefore⟩ := List.find?_eq_some_iff_append.mp h
    refine ⟨⟨List.mem_of_find?_eq_some h, by simpa using hlt⟩, fun u hu => ?_⟩
    obtain ⟨hmem, hu⟩ := hu
    have hs := hsorted rule start
    replace hmem : u ∈ occs rule start := hmem
    rw [heq] at hmem
    rw [heq] at hs
    rcases List.mem_append.mp hmem with hmem | hmem
    · have hnot := hbefore u hmem
      simp [hu] at hnot
    · rcases List.mem_cons.mp hmem with rfl | hmem
      · exact le_refl _
      · exact le_of_lt (List.rel_of_pairwise_cons (List.pairwise_append.mp hs).2.1 hmem)
  after_none := by
    intro rule start reference h u hu
    simpa using List.find?_eq_none.mp h u hu

def listedBetween {occs : String → ℤ → List ℤ} (hsorted : ∀ rule start, (occs rule start).Pairwise (· < ·)) :
    Between (listedRules occs hsorted) where
  between rule start lo hi := (occs rule start).filter fun t => lo ≤ t ∧ t ≤ hi
  sorted rule start lo hi := (hsorted rule start).filter _
  mem_between := by simp [listedRules]

def twiceADay (rule : String) (start : ℤ) : List ℤ :=
  if rule = "FREQ=HOURLY;INTERVAL=12;COUNT=4" then
    [start, start + 43200000000, start + 86400000000, start + 129600000000]
  else []

theorem twiceADay_sorted (rule : String) (start : ℤ) : (twiceADay rule start).Pairwise (· < ·) := by
  rw [twiceADay]
  split_ifs
  · grind
  · exact .nil

/-- Medicine at nine in the morning and in the evening, from the day 20000 on. -/
def medicine : TaskRow where
  id := "task_1"
  title := "medicine".toList
  scheduledDate := some 20000
  timeStart := some 32400000000
  recurrenceRule := some "FREQ=HOURLY;INTERVAL=12;COUNT=4"
  createdAt := 0
  updatedAt := 0
  tenantId := "t"
  userId := "u"

def medicineTable : Keyed fun row : TaskRow => row.id := ⟨[medicine], by simp⟩

/-- On the second day the task is listed twice. -/
theorem medicine_listed_twice :
    listRange (listedBetween twiceADay_sorted) medicineTable ⟨"t", "u"⟩ 20000 20001 =
      .ok [(20000, [medicine]), (20001, [medicine, medicine])] ∧
    ¬ ∃ result, listRange (listedBetween twiceADay_sorted) medicineTable ⟨"t", "u"⟩ 20000 20001 = .ok result ∧
      Right medicineTable ⟨"t", "u"⟩ 20000 20001 (listedRules twiceADay twiceADay_sorted) result := by
  have hlist : listRange (listedBetween twiceADay_sorted) medicineTable ⟨"t", "u"⟩ 20000 20001 =
      .ok [(20000, [medicine]), (20001, [medicine, medicine])] := by decide +kernel
  refine ⟨hlist, ?_⟩
  rintro ⟨result, hresult, hright⟩
  obtain rfl := Except.ok.inj (hlist.symm.trans hresult)
  exact absurd (hright.once (20001, [medicine, medicine]) (by simp)) (by simp)

end Sreda.Services.TaskRange
