import Sreda.Planner.Value
import Mathlib.Tactic.IntervalCases

/-!
# Quiet hours of the delivery policy

`decide_delivery` and the two functions that it reads a quiet-hours window with, and
`_validate_quiet_hours`, which the windows of a profile have passed.

Instants are microseconds since the epoch, a local time is an instant moved by the offset of
the time zone, and the offset is fixed. The time zone that a name stands for is a parameter,
as is `int` of a text; no window that `_validate_quiet_hours` accepts holds a text there.

`_in_window` asks for the weekday of the instant itself, `_next_exit` does not ask for
weekdays. A window such as 22..8 on Mondays is therefore left at the midnight after Monday,
and its exit is said to be at eight on Tuesday. `CarriedOver` is the condition on the windows
under which this does not show.
-/

namespace Sreda.Workers

open Sreda.Planner

/-! ## Local time -/

/-- The length of an hour. -/
def hourLength : ℤ := 3600000000

/-- The length of a day. -/
def dayLength : ℤ := 86400000000

/-- `now_local.weekday()`: Monday is 0, and the epoch is a Thursday. -/
def weekday (now : ℤ) : ℤ := (now / dayLength + 3) % 7

/-- `now_local.hour`. -/
def hourOf (now : ℤ) : ℤ := now % dayLength / hourLength

/-- `now_local.replace(hour=hour, minute=0, second=0, microsecond=0)`. -/
def replaceHour (now hour : ℤ) : ℤ := now / dayLength * dayLength + hour * hourLength

/-! ## The windows of a profile -/

/-- `isinstance(v, int)`, with the number: a bool is an int. -/
def asInt : Value → Option ℤ
  | .bool b => some (if b then 1 else 0)
  | .int n => some n
  | _ => none

/-- `list(range(7))`. -/
def everyDay : Value := .list ((List.range 7).map fun d => .int d)

/-- `isinstance(v, int) and 0 <= v <= top`. -/
def isIntUpTo (top : ℤ) (v : Value) : Bool :=
  match asInt v with
  | some n => 0 ≤ n && n ≤ top
  | none => false

/-- One round of the loop of `_validate_quiet_hours`. -/
def validateWindow (i : ℕ) : Value → Except String Unit
  | .dict window =>
    let fh := (window.lookup "from_hour").getD .null
    let th := (window.lookup "to_hour").getD .null
    let weekdays := (window.lookup "weekdays").getD everyDay
    if !isIntUpTo 23 fh then
      .error ("quiet_hours[" ++ toString i ++ "].from_hour must be int 0..23")
    else if !isIntUpTo 23 th then
      .error ("quiet_hours[" ++ toString i ++ "].to_hour must be int 0..23")
    else
      match weekdays with
      | .list days =>
        if days.all (isIntUpTo 6) then .ok ()
        else .error ("quiet_hours[" ++ toString i ++ "].weekdays must be list of 0..6")
      | _ => .error ("quiet_hours[" ++ toString i ++ "].weekdays must be list of 0..6")
  | _ => .error ("quiet_hours[" ++ toString i ++ "] must be a dict")

/-- The loop of `_validate_quiet_hours`, from window `i` on. -/
def validateWindows : ℕ → List Value → Except String Unit
  | _, [] => return ()
  | i, window :: windows => do
    validateWindow i window
    validateWindows (i + 1) windows

/-- `_validate_quiet_hours`. -/
def validateQuietHours : Value → Except String Unit
  | .list windows => validateWindows 0 windows
  | _ => throw "quiet_hours must be a list"

variable {v : Value} {windows : List Value} {ws : List QuietWindow}

section Policy

variable (py : Py) (parseInt : String → Option ℤ)

/-- `int(v)`, when it does not raise. -/
def intOf : Value → Option ℤ
  | .float q => some (q.num.tdiv q.den)
  | .str s => parseInt s
  | v => asInt v

/-- `day in weekdays`, for the truthy `weekdays`, when it does not raise. -/
def inWeekdays (day : ℤ) : Value → Option Bool
  | .list days => some (days.any fun d => (Value.int day).eq py d)
  | .dict _ => some false
  | _ => none

/-- Does `or` take its second operand. -/
def isFalsy : Value → Bool
  | .null => true
  | .bool b => !b
  | .int n => n == 0
  | .float q => q == 0
  | .str s => s == ""
  | .list xs => xs.isEmpty
  | .dict kvs => kvs.isEmpty
  | _ => false

/-- `value or default`. -/
def orElse (value : Option Value) (default : Value) : Value :=
  match value with
  | some v => if isFalsy v then default else v
  | none => default

/-- `_in_window`, when it does not raise. -/
def inWindow (nowLocal : ℤ) (window : Dict) : Option Bool :=
  match intOf parseInt ((window.lookup "from_hour").getD (.int 0)),
      intOf parseInt ((window.lookup "to_hour").getD (.int 0)) with
  | some fromHour, some toHour =>
    if fromHour = toHour then
      some false
    else
      match inWeekdays py (weekday nowLocal) (orElse (window.lookup "weekdays") everyDay) with
      | none => none
      | some false => some false
      | some true =>
        let h := hourOf nowLocal
        if fromHour < toHour then
          some (fromHour ≤ h && h < toHour)
        else
          some (h ≥ fromHour || h < toHour)
  | _, _ => some false

/-- `_next_exit`, when it does not raise. -/
def nextExit (nowLocal : ℤ) (window : Dict) : Option ℤ := do
  let toHour ← intOf parseInt ((window.lookup "to_hour").getD (.int 0))
  let candidate := replaceHour nowLocal toHour
  return if candidate ≤ nowLocal then candidate + dayLength else candidate

/-- `DeliveryDecision`, with its kind and its reason. -/
inductive DeliveryDecision where
  | send (reason : String)
  | defer (deferUntilUtc : ℤ) (reason : String)
  | drop (reason : String)
  deriving DecidableEq

/-- The list comprehension `active_exits`, when it does not raise. -/
def activeExits (nowLocal : ℤ) : List Value → Option (List ℤ)
  | [] => some []
  | .dict window :: windows => do
    if ← inWindow py parseInt nowLocal window then
      return (← nextExit parseInt nowLocal window) :: (← activeExits nowLocal windows)
    else
      activeExits nowLocal windows
  | _ :: _ => none

/-- `skill_config and skill_config.get("notification_priority") == priority`. -/
def hasPriority (skillConfig : Option Dict) (priority : String) : Bool :=
  match skillConfig with
  | some config => (config.lookup "notification_priority").any fun v => v.eq py (.str priority)
  | none => false

/-- `decide_delivery`, when it does not raise; `tzOffset` is the offset of the zone that
`_load_tz` finds for a name. -/
def decideDelivery (tzOffset : Value → ℤ) (profile skillConfig : Option Dict) (isInteractive : Bool)
    (nowUtc : ℤ) : Option DeliveryDecision :=
  if isInteractive then
    some (.send "interactive")
  else if hasPriority py skillConfig "mute" then
    some (.drop "muted_by_user")
  else if hasPriority py skillConfig "urgent" then
    some (.send "urgent")
  else
    match profile.filter fun p => !p.isEmpty with
    | none => some (.send "default")
    | some profile =>
      let offset := tzOffset (orElse (profile.lookup "timezone") (.str "UTC"))
      match orElse (profile.lookup "quiet_hours") (.list []) with
      | .list windows =>
        match activeExits py parseInt (nowUtc + offset) windows with
        | none => none
        | some exits =>
          match exits.max? with
          | some latestExitLocal => some (.defer (latestExitLocal - offset) "quiet_hours")
          | none => some (.send "default")
      | _ => none

/-! ## A window by its hours and days -/

/-- A quiet-hours window that `_validate_quiet_hours` accepts; no weekdays stand for all. -/
structure QuietWindow where
  fromHour : ℤ
  toHour : ℤ
  weekdays : List ℤ
  fromHour_mem : 0 ≤ fromHour ∧ fromHour ≤ 23
  toHour_mem : 0 ≤ toHour ∧ toHour ≤ 23

namespace QuietWindow

variable (w : QuietWindow)

/-- The window is one of the day. -/
def ListsDay (day : ℤ) : Prop := w.weekdays = [] ∨ day ∈ w.weekdays

/-- The window holds the hour of the day. -/
def Covers (day hour : ℤ) : Prop :=
  w.fromHour ≠ w.toHour ∧ w.ListsDay day ∧
    if w.fromHour < w.toHour then w.fromHour ≤ hour ∧ hour < w.toHour else w.fromHour ≤ hour ∨ hour < w.toHour

/-- The window is open at a local time. -/
def OpenAt (nowLocal : ℤ) : Prop := w.Covers (weekday nowLocal) (hourOf nowLocal)

instance (day : ℤ) : Decidable (w.ListsDay day) := inferInstanceAs (Decidable (_ ∨ _))

instance (day hour : ℤ) : Decidable (w.Covers day hour) := inferInstanceAs (Decidable (_ ∧ _ ∧ _))

instance (nowLocal : ℤ) : Decidable (w.OpenAt nowLocal) := inferInstanceAs (Decidable (w.Covers _ _))

/-- The next time that the clock shows `toHour`. -/
def exitAfter (nowLocal : ℤ) : ℤ :=
  if replaceHour nowLocal w.toHour ≤ nowLocal then replaceHour nowLocal w.toHour + dayLength
  else replaceHour nowLocal w.toHour

variable {w}

/-- The exit is today while the clock has not reached `toHour`, else tomorrow. -/
theorem exitAfter_cases (t : ℤ) :
    hourOf t < w.toHour ∧ w.exitAfter t = replaceHour t w.toHour ∨
      w.toHour ≤ hourOf t ∧ w.exitAfter t = replaceHour t w.toHour + dayLength := by
  by_cases hle : replaceHour t w.toHour ≤ t
  · refine .inr ⟨?_, if_pos hle⟩
    simp only [replaceHour, hourOf, dayLength, hourLength] at *
    omega
  · refine .inl ⟨?_, if_neg hle⟩
    simp only [replaceHour, hourOf, dayLength, hourLength] at *
    omega

theorem lt_exitAfter (t : ℤ) : t < w.exitAfter t := by
  have hto := w.toHour_mem
  rcases w.exitAfter_cases t with ⟨hhour, heq⟩ | ⟨-, heq⟩ <;> rw [heq] <;>
    simp only [replaceHour, hourOf, dayLength, hourLength] at * <;> omega

/-- Up to its exit a window stays open, except on the morning after a day that it lists. -/
theorem openAt_or_morning {t t' : ℤ} (h : w.OpenAt t) (hle : t ≤ t') (hlt : t' < w.exitAfter t) :
    w.OpenAt t' ∨ w.toHour < w.fromHour ∧ weekday t' = (weekday t + 1) % 7 ∧ hourOf t' < w.toHour := by
  obtain ⟨hne, hday, hhour⟩ := h
  have hto := w.toHour_mem
  by_cases hsame : t' / dayLength = t / dayLength
  · have hweekday : weekday t' = weekday t := by rw [weekday, hsame, weekday]
    have hmono : hourOf t ≤ hourOf t' := by
      simp only [hourOf, dayLength, hourLength] at *
      omega
    have hbefore : hourOf t < w.toHour → hourOf t' < w.toHour := by
      intro hhour
      rcases w.exitAfter_cases t with ⟨-, heq⟩ | ⟨hge, -⟩
      · rw [heq] at hlt
        simp only [replaceHour, hourOf, dayLength, hourLength] at *
        omega
      · omega
    refine .inl ⟨hne, hweekday ▸ hday, ?_⟩
    by_cases hday : w.fromHour < w.toHour
    · rw [if_pos hday] at hhour ⊢
      exact ⟨by omega, hbefore hhour.2⟩
    · rw [if_neg hday] at hhour ⊢
      exact hhour.imp (by omega) hbefore
  · -- Only a window that was entered in the evening lasts past midnight.
    rcases w.exitAfter_cases t with ⟨-, heq⟩ | ⟨hge, heq⟩ <;> rw [heq] at hlt
    · simp only [replaceHour, dayLength, hourLength] at *
      omega
    · refine .inr ⟨?_, ?_, ?_⟩
      · split at hhour <;> omega
      · simp only [weekday, replaceHour, dayLength, hourLength] at *
        omega
      · simp only [hourOf, replaceHour, dayLength, hourLength] at *
        omega

end QuietWindow

/-- What the hours of a valid window stand for. -/
def readWindow : Value → Option QuietWindow
  | .dict window =>
    match (window.lookup "from_hour").bind asInt, (window.lookup "to_hour").bind asInt,
        (window.lookup "weekdays").getD everyDay with
    | some fromHour, some toHour, .list days =>
      if h : (0 ≤ fromHour ∧ fromHour ≤ 23) ∧ (0 ≤ toHour ∧ toHour ≤ 23) ∧ days.all (isIntUpTo 6) then
        some ⟨fromHour, toHour, days.filterMap asInt, h.1, h.2.1⟩
      else none
    | _, _, _ => none
  | _ => none

/-- The windows of a valid list. -/
def readWindows (windows : List Value) : List QuietWindow := windows.filterMap readWindow

/-- **The condition**: on the morning after a day that a window past midnight lists, every
hour before its end lies in one of the windows. -/
def CarriedOver (windows : List QuietWindow) : Prop :=
  ∀ w ∈ windows, w.toHour < w.fromHour → ∀ day, 0 ≤ day → day < 7 → w.ListsDay day →
    ∀ hour, 0 ≤ hour → hour < w.toHour → ∃ v ∈ windows, v.Covers ((day + 1) % 7) hour

theorem isIntUpTo_iff {top : ℤ} : isIntUpTo top v = true ↔ ∃ n, asInt v = some n ∧ 0 ≤ n ∧ n ≤ top := by
  cases h : asInt v <;> simp [isIntUpTo, h]

theorem asInt_of_isIntUpTo {top : ℤ} {v? : Option Value} (h : isIntUpTo top (v?.getD .null) = true) :
    ∃ n, v?.bind asInt = some n ∧ 0 ≤ n ∧ n ≤ top := by
  obtain ⟨n, hn, hbounds⟩ := isIntUpTo_iff.1 h
  cases v? with
  | none => cases hn
  | some v => exact ⟨n, hn, hbounds⟩

/-- A window that `_validate_quiet_hours` accepts can be read. -/
theorem readWindow_of_validate {i : ℕ} (h : validateWindow i v = .ok ()) : ∃ w, readWindow v = some w := by
  cases v with
  | dict window =>
    simp only [validateWindow] at h
    split at h
    · cases h
    · rename_i hfrom
      split at h
      · cases h
      · rename_i hto
        split at h
        · rename_i days hdays
          obtain ⟨f, hf, hf'⟩ := asInt_of_isIntUpTo (by simpa using hfrom)
          obtain ⟨t, ht, ht'⟩ := asInt_of_isIntUpTo (by simpa using hto)
          have hall : days.all (isIntUpTo 6) = true := by
            by_contra hne
            rw [if_neg hne] at h
            cases h
          exact ⟨⟨f, t, days.filterMap asInt, hf', ht'⟩, by
            simp only [readWindow, hf, ht, hdays]
            rw [dif_pos ⟨hf', ht', hall⟩]⟩
        · cases h
  | _ => cases h

theorem exists_of_readWindow {w : QuietWindow} (h : readWindow v = some w) :
    ∃ window days, v = .dict window ∧ (window.lookup "from_hour").bind asInt = some w.fromHour ∧
      (window.lookup "to_hour").bind asInt = some w.toHour ∧
      (window.lookup "weekdays").getD everyDay = .list days ∧ days.all (isIntUpTo 6) ∧
      w.weekdays = days.filterMap asInt := by
  cases v with
  | dict window =>
    simp only [readWindow] at h
    split at h
    · rename_i f t days hf ht hdays
      split at h
      · rename_i hall
        cases h
        exact ⟨window, days, rfl, hf, ht, hdays, hall.2.2, rfl⟩
      · cases h
    · cases h
  | _ => cases h

theorem intOf_of_asInt {v? : Option Value} {n : ℤ} (h : v?.bind asInt = some n) :
    intOf parseInt (v?.getD (.int 0)) = some n := by
  cases v? with
  | none => cases h
  | some v =>
    cases v <;> first | exact h | cases h

theorem int_eq_of_asInt {n day : ℤ} (h : asInt v = some n) : (Value.int day).eq py v = decide (day = n) := by
  cases v with
  | bool b =>
    cases h
    simp only [Value.eq, Value.number?]
    rw [Bool.eq_iff_iff]
    cases b <;> simp
  | int m =>
    cases h
    simp only [Value.eq, Value.number?]
    rw [Bool.eq_iff_iff]
    simp
  | _ => cases h

theorem any_eq_days {days : List Value} (hall : days.all (isIntUpTo 6) = true) (day : ℤ) :
    days.any (fun d => (Value.int day).eq py d) = decide (day ∈ days.filterMap asInt) := by
  induction days with
  | nil => rfl
  | cons d days ih =>
    simp only [List.all_cons, Bool.and_eq_true] at hall
    obtain ⟨n, hn, -⟩ := isIntUpTo_iff.1 hall.1
    simp only [List.any_cons, ih hall.2, int_eq_of_asInt py hn, List.filterMap_cons, hn, List.mem_cons, Bool.decide_or]

theorem weekday_mem (t : ℤ) : 0 ≤ weekday t ∧ weekday t < 7 := by
  simp only [weekday]
  omega

theorem hourOf_mem (t : ℤ) : 0 ≤ hourOf t ∧ hourOf t < 24 := by
  simp only [hourOf, dayLength, hourLength]
  omega

theorem mem_everyDay {day : ℤ} (h0 : 0 ≤ day) (h7 : day < 7) :
    day ∈ ((List.range 7).map fun d => Value.int d).filterMap asInt := by
  interval_cases day <;> decide

theorem inWeekdays_eq {weekdays : Option Value} {days : List Value} (h : weekdays.getD everyDay = .list days)
    (hall : days.all (isIntUpTo 6) = true) {day : ℤ} (h0 : 0 ≤ day) (h7 : day < 7) :
    inWeekdays py day (orElse weekdays everyDay) =
      some (decide (days.filterMap asInt = [] ∨ day ∈ days.filterMap asInt)) := by
  have hevery : inWeekdays py day everyDay = some true := by
    simp only [everyDay, inWeekdays]
    rw [any_eq_days py (by decide) day, decide_eq_true (mem_everyDay h0 h7)]
  cases weekdays with
  | none =>
    obtain rfl : _ = days := by simpa [everyDay] using h
    rw [orElse, hevery, decide_eq_true (.inr (mem_everyDay h0 h7))]
  | some v =>
    obtain rfl : v = .list days := h
    cases days with
    | nil => exact hevery
    | cons d days =>
      have hne : (d :: days).filterMap asInt ≠ [] := by
        simp only [List.all_cons, Bool.and_eq_true] at hall
        obtain ⟨n, hn, -⟩ := isIntUpTo_iff.1 hall.1
        simp [hn]
      simp only [orElse, isFalsy, List.isEmpty_cons, Bool.false_eq_true, if_false, inWeekdays]
      rw [any_eq_days py hall day]
      simp only [hne, false_or]

/-- `_in_window` tells whether a valid window is open. -/
theorem inWindow_eq {window : Dict} {w : QuietWindow} (h : readWindow (.dict window) = some w) (t : ℤ) :
    inWindow py parseInt t window = some (decide (w.OpenAt t)) := by
  obtain ⟨_, days, heq, hfrom, hto, hdays, hall, hw⟩ := exists_of_readWindow h
  cases heq
  obtain ⟨h0, h7⟩ := weekday_mem t
  have hlists : inWeekdays py (weekday t) (orElse (window.lookup "weekdays") everyDay) =
      some (decide (w.ListsDay (weekday t))) := by
    rw [inWeekdays_eq py hdays hall h0 h7]
    simp only [QuietWindow.ListsDay, hw]
  simp only [inWindow, intOf_of_asInt parseInt hfrom, intOf_of_asInt parseInt hto, hlists]
  by_cases hne : w.fromHour = w.toHour
  · simp [hne, QuietWindow.OpenAt, QuietWindow.Covers]
  · by_cases hday : w.ListsDay (weekday t)
    · by_cases hlt : w.fromHour < w.toHour <;> simp [hne, hday, hlt, QuietWindow.OpenAt, QuietWindow.Covers]
    · simp [hne, hday, QuietWindow.OpenAt, QuietWindow.Covers]

theorem nextExit_eq {window : Dict} {w : QuietWindow} (h : readWindow (.dict window) = some w) (t : ℤ) :
    nextExit parseInt t window = some (w.exitAfter t) := by
  obtain ⟨_, days, heq, -, hto, -, -, -⟩ := exists_of_readWindow h
  cases heq
  simp only [nextExit, intOf_of_asInt parseInt hto]
  rfl

theorem readWindow_of_validateWindows {i : ℕ} (h : validateWindows i windows = .ok ()) :
    ∀ v ∈ windows, ∃ w, readWindow v = some w := by
  induction windows generalizing i with
  | nil => simp
  | cons v windows ih =>
    obtain ⟨_, hv, hrest⟩ := Value.bind_ok.1 h
    intro u hu
    rcases List.mem_cons.1 hu with rfl | hu
    · exact readWindow_of_validate hv
    · exact ih hrest u hu

theorem activeExits_eq (h : ∀ v ∈ windows, ∃ w, readWindow v = some w) (t : ℤ) : activeExits py parseInt t windows =
      some (((readWindows windows).filter fun w => decide (w.OpenAt t)).map fun w => w.exitAfter t) := by
  induction windows with
  | nil => rfl
  | cons v windows ih =>
    obtain ⟨w, hw⟩ := h v (by simp)
    have hrest := ih fun u hu => h u (List.mem_cons_of_mem _ hu)
    obtain ⟨window, -, rfl, -⟩ := exists_of_readWindow hw
    simp only [activeExits, inWindow_eq py parseInt hw t, nextExit_eq parseInt hw t, hrest, readWindows,
      List.filterMap_cons, hw, Option.bind_eq_bind, Option.bind_some]
    by_cases hopen : w.OpenAt t
    · simp [hopen]
    · simp [hopen]

/-- The decision on a message of normal priority, by the valid windows that are open. -/
theorem decideDelivery_eq (tzOffset : Value → ℤ) {profile : Dict} {skillConfig : Option Dict}
    (hwindows : profile.lookup "quiet_hours" = some (.list windows))
    (hvalid : ∀ v ∈ windows, ∃ w, readWindow v = some w)
    (hmute : hasPriority py skillConfig "mute" = false) (hurgent : hasPriority py skillConfig "urgent" = false) :
    ∃ offset, ∀ t, decideDelivery py parseInt tzOffset (some profile) skillConfig false t =
      match (((readWindows windows).filter fun w => decide (w.OpenAt (t + offset))).map
          fun w => w.exitAfter (t + offset)).max? with
      | some latest => some (.defer (latest - offset) "quiet_hours")
      | none => some (.send "default") := by
  refine ⟨tzOffset (orElse (profile.lookup "timezone") (.str "UTC")), fun t => ?_⟩
  have hprofile : (some profile).filter (fun p => !p.isEmpty) = some profile := by
    cases profile with
    | nil => cases hwindows
    | cons _ _ => rfl
  have hlist : orElse (profile.lookup "quiet_hours") (.list []) = .list windows := by
    rw [hwindows]
    cases windows <;> rfl
  simp only [decideDelivery, hmute, hurgent, hprofile, hlist, activeExits_eq py parseInt hvalid,
    Bool.false_eq_true, if_false]

/-- The latest exit is the exit of an open window, and no open window has a later one. -/
theorem latestExit_iff {t e : ℤ} :
    ((ws.filter fun w => decide (w.OpenAt t)).map fun w => w.exitAfter t).max? = some e ↔
      (∃ w ∈ ws, w.OpenAt t ∧ w.exitAfter t = e) ∧ ∀ w ∈ ws, w.OpenAt t → w.exitAfter t ≤ e := by
  rw [List.max?_eq_some_iff]
  simp only [List.mem_map, List.mem_filter, decide_eq_true_eq]
  constructor
  · rintro ⟨⟨w, ⟨hw, hopen⟩, hexit⟩, hle⟩
    exact ⟨⟨w, hw, hopen, hexit⟩, fun v hv hopen' => hle _ ⟨v, ⟨hv, hopen'⟩, rfl⟩⟩
  · rintro ⟨⟨w, hw, hopen, hexit⟩, hle⟩
    refine ⟨⟨w, ⟨hw, hopen⟩, hexit⟩, ?_⟩
    rintro _ ⟨v, ⟨hv, hopen'⟩, rfl⟩
    exact hle v hv hopen'

theorem exists_latestExit {t : ℤ} (h : ∃ w ∈ ws, w.OpenAt t) :
    ∃ e, ((ws.filter fun w => decide (w.OpenAt t)).map fun w => w.exitAfter t).max? = some e := by
  obtain ⟨w, hw, hopen⟩ := h
  refine Option.ne_none_iff_exists'.1 fun hnone => ?_
  rw [List.max?_eq_none_iff, List.map_eq_nil_iff, List.filter_eq_nil_iff] at hnone
  exact hnone w hw (by simpa using hopen)

/-- When the windows carry over, quiet time lasts from an open window to its exit. -/
theorem CarriedOver.open_until (h : CarriedOver ws) {w : QuietWindow} (hw : w ∈ ws)
    {t t' : ℤ} (hopen : w.OpenAt t) (hle : t ≤ t') (hlt : t' < w.exitAfter t) : ∃ v ∈ ws, v.OpenAt t' := by
  rcases w.openAt_or_morning hopen hle hlt with hopen' | ⟨hcross, hday, hhour⟩
  · exact ⟨w, hw, hopen'⟩
  · obtain ⟨v, hv, hcovers⟩ :=
      h w hw hcross (weekday t) (weekday_mem t).1 (weekday_mem t).2 hopen.2.1 (hourOf t') (hourOf_mem t').1 hhour
    exact ⟨v, hv, by rw [QuietWindow.OpenAt, hday]; exact hcovers⟩

/-- When quiet time lasts from each open window to its exit, the windows carry over: the
evening of a listed day shows it. -/
theorem carriedOver_of_open_until
    (h : ∀ w ∈ ws, ∀ t t', w.OpenAt t → t ≤ t' → t' < w.exitAfter t → ∃ v ∈ ws, v.OpenAt t') : CarriedOver ws := by
  intro w hw hcross day h0 h7 hlists hour hour0 hhour
  have hfrom := w.fromHour_mem
  have hto := w.toHour_mem
  -- The last hour of the day `day + 4` after the epoch.
  let t : ℤ := (day + 4) * dayLength + 23 * hourLength
  have hweekday : weekday t = day := by
    simp only [t, weekday, dayLength, hourLength]
    omega
  have hlast : hourOf t = 23 := by
    simp only [t, hourOf, dayLength, hourLength]
    omega
  have hopen : w.OpenAt t := by
    refine ⟨by omega, hweekday ▸ hlists, ?_⟩
    rw [if_neg (by omega), hlast]
    exact .inl hfrom.2
  have hexit : w.exitAfter t = (day + 5) * dayLength + w.toHour * hourLength := by
    rcases w.exitAfter_cases t with ⟨hbefore, -⟩ | ⟨-, heq⟩
    · omega
    · rw [heq]
      simp only [t, replaceHour, dayLength, hourLength]
      omega
  obtain ⟨v, hv, hcovers⟩ := h w hw t ((day + 5) * dayLength + hour * hourLength) hopen
    (by simp only [t, dayLength, hourLength]; omega)
    (by rw [hexit]; simp only [dayLength, hourLength]; omega)
  refine ⟨v, hv, ?_⟩
  have hday' : weekday ((day + 5) * dayLength + hour * hourLength) = (day + 1) % 7 := by
    simp only [weekday, dayLength, hourLength]
    omega
  have hhour' : hourOf ((day + 5) * dayLength + hour * hourLength) = hour := by
    simp only [hourOf, dayLength, hourLength]
    omega
  rwa [QuietWindow.OpenAt, hday', hhour'] at hcovers

/-- **Quiet time is one interval exactly when the windows carry over.** -/
theorem decideDelivery_contiguous_iff (tzOffset : Value → ℤ) (profile : Dict) (skillConfig : Option Dict)
    (windows : List Value) (hwindows : profile.lookup "quiet_hours" = some (.list windows))
    (hvalid : validateQuietHours (.list windows) = .ok ())
    (hmute : hasPriority py skillConfig "mute" = false) (hurgent : hasPriority py skillConfig "urgent" = false) :
    (∀ t e reason, decideDelivery py parseInt tzOffset (some profile) skillConfig false t = some (.defer e reason) →
      t < e ∧ ∀ t', t ≤ t' → t' < e →
        ∃ e' reason', decideDelivery py parseInt tzOffset (some profile) skillConfig false t' =
          some (.defer e' reason')) ↔
      CarriedOver (readWindows windows) := by
  have hread : ∀ v ∈ windows, ∃ w, readWindow v = some w := readWindow_of_validateWindows hvalid
  obtain ⟨offset, hdecide⟩ := decideDelivery_eq py parseInt tzOffset hwindows hread hmute hurgent
  have hdeferred : ∀ t, (∃ w ∈ readWindows windows, w.OpenAt (t + offset)) →
      ∃ e', decideDelivery py parseInt tzOffset (some profile) skillConfig false t =
        some (.defer (e' - offset) "quiet_hours") ∧ ∀ w ∈ readWindows windows, w.OpenAt (t + offset) →
          w.exitAfter (t + offset) ≤ e' := by
    intro t hopen
    obtain ⟨e', he'⟩ := exists_latestExit hopen
    exact ⟨e', by rw [hdecide, he'], (latestExit_iff.1 he').2⟩
  have hinv : ∀ t e reason, decideDelivery py parseInt tzOffset (some profile) skillConfig false t =
      some (.defer e reason) → ∃ w ∈ readWindows windows, w.OpenAt (t + offset) ∧
        w.exitAfter (t + offset) = e + offset := by
    intro t e reason h
    rw [hdecide] at h
    split at h
    · rename_i latest hlatest
      obtain ⟨⟨w, hw, hopen, hexit⟩, -⟩ := latestExit_iff.1 hlatest
      refine ⟨w, hw, hopen, ?_⟩
      simp only [Option.some.injEq, DeliveryDecision.defer.injEq] at h
      omega
    · cases h
  constructor
  · intro h
    refine carriedOver_of_open_until fun w hw t t' hopen hle hlt => ?_
    obtain ⟨e, he, hlatest⟩ := hdeferred (t - offset) ⟨w, hw, by rwa [Int.sub_add_cancel]⟩
    have hexit := hlatest w hw (by rwa [Int.sub_add_cancel])
    rw [Int.sub_add_cancel] at hexit
    obtain ⟨e', reason', h'⟩ := (h _ _ _ he).2 (t' - offset) (by omega) (by omega)
    obtain ⟨v, hv, hopen', -⟩ := hinv _ _ _ h'
    exact ⟨v, hv, by rwa [Int.sub_add_cancel] at hopen'⟩
  · intro hcarried t e reason h
    obtain ⟨w, hw, hopen, hexit⟩ := hinv t e reason h
    refine ⟨by have := w.lt_exitAfter (t + offset); omega, fun t' hle hlt => ?_⟩
    have hbefore : t' + offset < w.exitAfter (t + offset) := by omega
    obtain ⟨v, hv, hopen'⟩ := hcarried.open_until hw hopen (Int.add_le_add_right hle offset) hbefore
    obtain ⟨e', he', -⟩ := hdeferred t' ⟨v, hv, hopen'⟩
    exact ⟨_, _, he'⟩

end Policy

/-- The windows 22..8, on Mondays. -/
def mondayNight : List Value :=
  [.dict [("from_hour", .int 22), ("to_hour", .int 8), ("weekdays", .list [.int 0])]]

/-- Held back on Monday at 23:00 until Tuesday at 08:00, and what comes on Tuesday at 00:00 is
sent. -/
theorem decideDelivery_mondayNight :
    validateQuietHours (.list mondayNight) = .ok () ∧
      decideDelivery .ascii (fun _ => none) (fun _ => 0) (some [("quiet_hours", .list mondayNight)]) none false
        428400000000 = some (.defer 460800000000 "quiet_hours") ∧
      decideDelivery .ascii (fun _ => none) (fun _ => 0) (some [("quiet_hours", .list mondayNight)]) none false
        432000000000 = some (.send "default") :=
  ⟨rfl, rfl, rfl⟩

/-- With 0..8 on Tuesdays beside it, quiet time is one interval. -/
theorem decideDelivery_contiguous_monday_tuesday :
    let windows := mondayNight ++ [.dict [("from_hour", .int 0), ("to_hour", .int 8), ("weekdays", .list [.int 1])]]
    (∀ t e reason, decideDelivery .ascii (fun _ => none) (fun _ => 0) (some [("quiet_hours", .list windows)]) none
        false t = some (.defer e reason) →
      t < e ∧ ∀ t', t ≤ t' → t' < e →
        ∃ e' reason', decideDelivery .ascii (fun _ => none) (fun _ => 0) (some [("quiet_hours", .list windows)]) none
          false t' = some (.defer e' reason')) ↔
      CarriedOver (readWindows windows) :=
  decideDelivery_contiguous_iff .ascii (fun _ => none) (fun _ => 0) _ none _ rfl rfl rfl rfl

end Sreda.Workers
