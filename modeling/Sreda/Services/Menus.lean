import Mathlib.Algebra.Order.Ring.Int
import Sreda.Lib.Transition
import Sreda.Services.Reminders

/-!
# The weekly menu

`services/housewife_menu.py`: a plan for each user and week, and the cells of a plan under their day and
meal. `plan_week` writes the plan anew: the cells of the payload that hold something, and the items of the
old plan that no cell mentions. `update_item` changes one cell, `clear_menu` drops the plan.

No constraint of the database keeps the cells of a plan apart. A plan holds its items, which go with it; the
ids of the items are left out. Dates are numbers of days. What the other tables hold may be another thing at
each call.

## What is proved

* what a call that succeeds makes of the plans (`planWeek_ok`, `updateItem_ok`);
* on plans in order, `plan_week` overrides the plan by the cells exactly when each cell that holds
  something is the last one to mention its slot (`overrides_iff`);
* in every run in which all payloads are like that, each user has one plan a week and each plan one item
  in a slot, and `update_item` fails only on its arguments (`weekly_menu`); a payload that
  mentions a cell twice breaks that (`dinner_twice`).
-/

namespace Sreda.Services

open Sreda.Lib
open Sreda.Lib.PyText (strip)

/-! ### The tables -/

/-- A day of the week and a meal. -/
abbrev MenuSlot := ℤ × String

/-- `MenuPlanItem`. -/
structure MenuPlanItem where
  dayOfWeek : ℤ
  mealType : String
  recipeId : Option String
  freeText : Option String
  notes : Option String
  deriving DecidableEq

def MenuPlanItem.slot (item : MenuPlanItem) : MenuSlot := (item.dayOfWeek, item.mealType)

/-- A user and the Monday of a week. -/
structure MenuWeek where
  tenantId : String
  userId : String
  weekStartDate : ℤ
  deriving DecidableEq

/-- `MenuPlan`, with its items. -/
structure MenuPlan where
  id : String
  week : MenuWeek
  notes : Option String
  status : String
  createdAt : ℤ
  updatedAt : ℤ
  items : List MenuPlanItem
  deriving DecidableEq

/-- The tables `menu_plans` and `menu_plan_items`. -/
abbrev MenuPlans := Keyed MenuPlan.id

/-- What the foreign keys of a plan and of its items find. -/
structure MenuRefs where
  owner : String → String → Bool
  recipe : String → Bool

/-- `MEAL_TYPES`. -/
def mealTypes : List String := ["breakfast", "lunch", "dinner", "snack"]

/-! ### The arguments -/

/-- What a call raises. -/
inductive MenuError where
  /-- `date.fromisoformat` raises. -/
  | invalidWeek
  /-- `int()` of an infinite number. -/
  | overflow
  /-- A foreign key or a primary key is violated. -/
  | integrity
  | unknownMealType
  | dayOutOfRange
  /-- `one_or_none` finds several rows. -/
  | multipleResultsFound
  deriving DecidableEq

/-- The day of a week: a date, or a text and what `date.fromisoformat` makes of it. -/
inductive WeekStart where
  | date (day : ℤ)
  | text (parsed : Option ℤ)
  deriving DecidableEq

/-- `date.weekday`: day 0 is a Thursday. -/
def weekday (day : ℤ) : ℤ := (day + 3) % 7

/-- `_coerce_monday`. -/
def coerceMonday : WeekStart → Option ℤ
  | .date day => some (day - weekday day)
  | .text parsed => parsed.map fun day => day - weekday day

/-- `MenuCellInput`. -/
structure MenuCellInput where
  dayOfWeek : ℤ
  mealType : String
  recipeId : Option String
  freeText : Option String
  notes : Option String
  deriving DecidableEq

def MenuCellInput.slot (cell : MenuCellInput) : MenuSlot := (cell.dayOfWeek, cell.mealType)

/-- The cell holds something. -/
def MenuCellInput.filled (cell : MenuCellInput) : Bool :=
  cell.recipeId.isSome || strip (cell.freeText.getD "").toList ≠ []

/-- What is stored of a cell. -/
def MenuCellInput.item (cell : MenuCellInput) : MenuPlanItem :=
  ⟨cell.dayOfWeek, cell.mealType, cell.recipeId, truthy cell.freeText, truthy cell.notes⟩

/-- `int(item["day_of_week"])`. -/
inductive RawDay where
  | int (day : ℤ)
  /-- `KeyError`, `TypeError` or `ValueError`. -/
  | rejected
  /-- `OverflowError`. -/
  | overflow
  deriving DecidableEq

/-- A cell as it is passed: a `MenuCellInput`, a dict, or something else. -/
inductive RawCell where
  | input (cell : MenuCellInput)
  | dict (dayOfWeek : RawDay) (mealType recipeId freeText notes : Option String)
  | other
  deriving DecidableEq

/-- `_normalise_cells`, one of them. A cell that is passed as such is not looked at. -/
def normaliseCell : RawCell → Except MenuError (Option MenuCellInput)
  | .input cell => .ok (some cell)
  | .other => .ok none
  | .dict dayOfWeek mealType recipeId freeText notes =>
    match dayOfWeek with
    | .overflow => .error .overflow
    | .rejected => .ok none
    | .int day =>
      if ¬ (0 ≤ day ∧ day ≤ 6) then .ok none
      else
        let meal := String.ofList (strip (mealType.getD "").toList)
        if meal ∉ mealTypes then .ok none
        else .ok (some ⟨day, meal, truthy recipeId, truthy freeText, truthy notes⟩)

/-- `_normalise_cells`. -/
def normaliseCells (raw : List RawCell) : Except MenuError (List MenuCellInput) := do
  let cells ← raw.mapM normaliseCell
  return cells.reduceOption

/-! ### The service -/

section Service

variable (refs : MenuRefs) (M : MenuPlans)

/-- `_find_plans`. -/
def findPlans (week : MenuWeek) : List MenuPlan := M.rows.filter (·.week = week)

/-- `prior_items.setdefault`. -/
def setDefault (prior : List MenuPlanItem) (item : MenuPlanItem) : List MenuPlanItem :=
  if item.slot ∈ prior.map (·.slot) then prior else prior ++ [item]

/-- The items of some plans, the first one of each slot. -/
def priorItems (plans : List MenuPlan) : List MenuPlanItem := (plans.flatMap (·.items)).foldl setDefault []

/-- The arguments of `plan_week`. -/
structure PlanWeekArgs where
  tenantId : String
  userId : String
  weekStart : WeekStart
  cells : List RawCell
  notes : Option String
  deriving DecidableEq

/-- `plan_week`, the plan that is written. -/
def mergedPlan (week : MenuWeek) (cells : List MenuCellInput) (notes : Option String) (id : String) (now : ℤ) : MenuPlan where
  id := id
  week := week
  notes := notes
  status := "active"
  createdAt := now
  updatedAt := now
  items := (cells.filter (·.filled)).map (·.item) ++
    (priorItems (findPlans M week)).filter fun item => item.slot ∉ cells.map (·.slot)

/-- The foreign keys of a plan find their rows. -/
def MenuRefs.allow (plan : MenuPlan) : Bool :=
  refs.owner plan.week.tenantId plan.week.userId && plan.items.all fun item => item.recipeId.all refs.recipe

/-- `plan_week`. The new plan is inserted before the old ones are deleted. -/
def planWeek (args : PlanWeekArgs) (id : String) (now : ℤ) : Except MenuError (MenuPlans × MenuPlan) :=
  match coerceMonday args.weekStart with
  | none => .error .invalidWeek
  | some start => do
    let cells ← normaliseCells args.cells
    let week : MenuWeek := ⟨args.tenantId, args.userId, start⟩
    let plan := mergedPlan M week cells args.notes id now
    match M.insert? plan with
    | none => .error .integrity
    | some M' =>
      if refs.allow plan then .ok (M'.delete fun old => old.week = week && old.id ≠ id, plan)
      else .error .integrity

/-- The arguments of `update_item`. -/
structure UpdateItemArgs where
  tenantId : String
  userId : String
  planId : String
  cell : MenuCellInput
  deriving DecidableEq

/-- A plan without an item. -/
def MenuPlan.dropItem (plan : MenuPlan) (slot : MenuSlot) : MenuPlan :=
  { plan with items := plan.items.filter (·.slot ≠ slot) }

/-- A plan with an item, in the place of the one that its slot holds. -/
def MenuPlan.putItem (plan : MenuPlan) (item : MenuPlanItem) (now : ℤ) : MenuPlan :=
  { plan with
    items :=
      if item.slot ∈ plan.items.map (·.slot) then plan.items.map fun old => if old.slot = item.slot then item else old
      else plan.items ++ [item]
    updatedAt := now }

@[simp] theorem MenuPlan.id_dropItem (plan : MenuPlan) (slot : MenuSlot) : (plan.dropItem slot).id = plan.id := rfl

@[simp] theorem MenuPlan.id_putItem (plan : MenuPlan) (item : MenuPlanItem) (now : ℤ) :
    (plan.putItem item now).id = plan.id := rfl

/-- `update_item`. -/
def updateItem (args : UpdateItemArgs) (now : ℤ) : Except MenuError (MenuPlans × Option MenuPlanItem) :=
  match (M.get? args.planId).filter fun plan => plan.week.tenantId = args.tenantId ∧ plan.week.userId = args.userId with
  | none => .ok (M, none)
  | some plan =>
    if args.cell.mealType ∉ mealTypes then .error .unknownMealType
    else if ¬ (0 ≤ args.cell.dayOfWeek ∧ args.cell.dayOfWeek ≤ 6) then .error .dayOutOfRange
    else if 1 < plan.items.countP (·.slot = args.cell.slot) then .error .multipleResultsFound
    else if !args.cell.filled then
      .ok (M.update (·.id = args.planId) (·.dropItem args.cell.slot) (·.id_dropItem args.cell.slot), none)
    else if args.cell.recipeId.all refs.recipe then
      .ok (M.update (·.id = args.planId) (·.putItem args.cell.item now) (·.id_putItem args.cell.item now),
        some args.cell.item)
    else .error .integrity

/-- `clear_menu`. -/
def clearMenu (tenantId userId : String) (weekStart : WeekStart) : Except MenuError (MenuPlans × ℕ) :=
  match coerceMonday weekStart with
  | none => .error .invalidWeek
  | some start =>
    .ok (M.delete (·.week = ⟨tenantId, userId, start⟩), (findPlans M ⟨tenantId, userId, start⟩).length)

end Service

/-! ### The system -/

/-- A call. -/
inductive MenuEvent where
  | planWeek (refs : MenuRefs) (args : PlanWeekArgs) (id : String) (now : ℤ)
  | updateItem (refs : MenuRefs) (args : UpdateItemArgs) (now : ℤ)
  | clearMenu (tenantId userId : String) (weekStart : WeekStart)

/-- What a call commits: nothing when it raises. -/
def MenuEvent.commits (M : MenuPlans) : MenuEvent → MenuPlans
  | .planWeek refs args id now => match Services.planWeek refs M args id now with
    | .ok (M', _) => M'
    | .error _ => M
  | .updateItem refs args now => match Services.updateItem refs M args now with
    | .ok (M', _) => M'
    | .error _ => M
  | .clearMenu tenantId userId weekStart => match Services.clearMenu M tenantId userId weekStart with
    | .ok (M', _) => M'
    | .error _ => M

/-- The calls, one after the other. -/
def menus : Lts MenuPlans MenuEvent where
  init M := M.rows = []
  step M e M' := M' = e.commits M

/-- Each cell that holds something is the last one to mention its slot. -/
def FilledLast (cells : List MenuCellInput) : Prop := cells.Pairwise fun c d => c.filled = true → d.slot ≠ c.slot

instance (cells : List MenuCellInput) : Decidable (FilledLast cells) :=
  inferInstanceAs (Decidable (cells.Pairwise fun c d => c.filled = true → d.slot ≠ c.slot))

/-- The payload of a call of `plan_week` is like that. -/
def MenuEvent.FilledLast : MenuEvent → Prop
  | .planWeek _ args _ _ => ∀ cells, normaliseCells args.cells = .ok cells → Services.FilledLast cells
  | _ => True

/-! ### What is promised -/

/-- The items of a user in a slot of a week. -/
def itemsAt (M : MenuPlans) (week : MenuWeek) (slot : MenuSlot) : List MenuPlanItem :=
  ((findPlans M week).flatMap (·.items)).filter (·.slot = slot)

/-- The items of a slot, overridden by some cells: the last cell that mentions the slot wins, and an empty
one leaves nothing. -/
def overriddenAt (M : MenuPlans) (week : MenuWeek) (cells : List MenuCellInput) (slot : MenuSlot) : List MenuPlanItem :=
  match (cells.filter (·.slot = slot)).getLast? with
  | none => itemsAt M week slot
  | some cell => if cell.filled then [cell.item] else []

/-- The plan of a week is overridden by some cells. -/
structure Overrides (M M' : MenuPlans) (week : MenuWeek) (cells : List MenuCellInput) (plan : MenuPlan) : Prop where
  plan : findPlans M' week = [plan]
  slots : ∀ slot, itemsAt M' week slot = overriddenAt M week cells slot
  others : ∀ other, other ≠ week → findPlans M' other = findPlans M other

/-- Each user has one plan a week, and each plan one item in a slot. -/
structure MenuInv (M : MenuPlans) : Prop where
  onePlan : (M.rows.map (·.week)).Nodup
  oneItem : ∀ plan ∈ M.rows, (plan.items.map (·.slot)).Nodup

/-- The arguments of `update_item` are at fault. -/
def UpdateItemArgs.AtFault (refs : MenuRefs) (args : UpdateItemArgs) : MenuError → Prop
  | .unknownMealType => args.cell.mealType ∉ mealTypes
  | .dayOutOfRange => ¬ (0 ≤ args.cell.dayOfWeek ∧ args.cell.dayOfWeek ≤ 6)
  | .integrity => ∃ recipeId, args.cell.recipeId = some recipeId ∧ refs.recipe recipeId = false
  | _ => False

/-- What is promised of some plans, and of the calls that a system makes on them. -/
structure MenuGuarantees (L : Lts MenuPlans MenuEvent) (M : MenuPlans) : Prop where
  inv : MenuInv M
  override : ∀ refs args id now M' plan, L.step M (.planWeek refs args id now) M' →
    planWeek refs M args id now = .ok (M', plan) →
    ∃ start cells, coerceMonday args.weekStart = some start ∧ normaliseCells args.cells = .ok cells ∧
      Overrides M M' ⟨args.tenantId, args.userId, start⟩ cells plan
  update : ∀ refs args now error, updateItem refs M args now = .error error → args.AtFault refs error

/-! ### One plan -/

section Plans

variable {refs : MenuRefs} {M M' : MenuPlans} {week : MenuWeek} {cells : List MenuCellInput} {plan : MenuPlan}
  {id : String} {now : ℤ}

/-- No two elements share a key when at most one has each. -/
theorem nodup_map_iff {α κ : Type*} [DecidableEq κ] {key : α → κ} {l : List α} :
    (l.map key).Nodup ↔ ∀ k, (l.filter fun a => key a = k).length ≤ 1 := by
  rw [List.nodup_iff_count_le_one]
  refine forall_congr' fun k => ?_
  rw [List.count, List.countP_map, List.countP_eq_length_filter]
  simp [Function.comp_def, beq_eq_decide]

theorem foldl_setDefault (prior items : List MenuPlanItem) (h : ((prior ++ items).map (·.slot)).Nodup) :
    items.foldl setDefault prior = prior ++ items := by
  induction items generalizing prior with
  | nil => simp
  | cons item items ih =>
    have hnew : item.slot ∉ prior.map (·.slot) := by
      rw [List.map_append, List.nodup_append] at h
      intro hin
      exact h.2.2 _ hin item.slot (by simp) rfl
    rw [List.foldl_cons, setDefault, if_neg hnew, ih _ (by simpa using h)]
    simp

theorem priorItems_singleton (h : (plan.items.map (·.slot)).Nodup) : priorItems [plan] = plan.items := by
  rw [priorItems, foldl_setDefault _ _ (by simpa using h)]
  simp

/-- In plans in order a week has no plan, or one. -/
theorem MenuInv.findPlans (h : MenuInv M) (week : MenuWeek) :
    findPlans M week = [] ∨ ∃ plan ∈ M.rows, findPlans M week = [plan] := by
  have hlen : (Services.findPlans M week).length ≤ 1 := nodup_map_iff.mp h.onePlan week
  cases hplans : Services.findPlans M week with
  | nil => exact .inl rfl
  | cons plan rest =>
    have hrest : rest = [] := by
      rw [hplans, List.length_cons] at hlen
      exact List.length_eq_zero_iff.mp (by omega)
    have hmem : plan ∈ Services.findPlans M week := by simp [hplans]
    exact .inr ⟨plan, (List.mem_filter.mp hmem).1, by rw [hrest]⟩

theorem MenuInv.priorItems (h : MenuInv M) (week : MenuWeek) (slot : MenuSlot) :
    (Services.priorItems (Services.findPlans M week)).filter (·.slot = slot) = itemsAt M week slot := by
  rcases h.findPlans week with hnone | ⟨plan, hplan, hone⟩
  · rw [itemsAt, hnone]
    rfl
  · rw [itemsAt, hone, priorItems_singleton (h.oneItem plan hplan)]
    simp

/-- **`plan_week`**: the new plan stands in the place of the plans of its week. -/
theorem planWeek_ok {args : PlanWeekArgs} (h : planWeek refs M args id now = .ok (M', plan)) :
    ∃ start cells, coerceMonday args.weekStart = some start ∧ normaliseCells args.cells = .ok cells ∧
      plan = mergedPlan M ⟨args.tenantId, args.userId, start⟩ cells args.notes id now ∧
      M'.rows = (M.rows.filter (·.week ≠ ⟨args.tenantId, args.userId, start⟩)) ++ [plan] := by
  unfold planWeek at h
  cases hstart : coerceMonday args.weekStart with
  | none => simp [hstart] at h
  | some start =>
    cases hcells : normaliseCells args.cells with
    | error => simp [hstart, hcells, bind, Except.bind] at h
    | ok cells =>
      simp only [hstart, hcells, bind, Except.bind] at h
      split at h
      · cases h
      next M₁ hinsert =>
        split at h
        · obtain ⟨rfl, rfl⟩ : _ ∧ _ := by simpa using h
          refine ⟨start, cells, rfl, rfl, rfl, ?_⟩
          have hfresh : ∀ old ∈ M.rows, old.id ≠ id := by
            have hnone : M.insert? (mergedPlan M ⟨args.tenantId, args.userId, start⟩ cells args.notes id now) ≠ none := by
              rw [hinsert]
              exact Option.some_ne_none _
            intro old hold hid
            exact hnone (Keyed.insert?_eq_none.mpr ⟨old, hold, hid⟩)
          rw [Keyed.rows_delete, Keyed.rows_insert? hinsert, List.filter_append]
          congr 1
          · refine List.filter_congr fun old hold => ?_
            simp [hfresh old hold]
          · simp [mergedPlan]
        · cases h

theorem findPlans_rewritten (hrows : M'.rows = (M.rows.filter (·.week ≠ week)) ++ [plan]) (hweek : plan.week = week)
    (other : MenuWeek) : findPlans M' other = if other = week then [plan] else findPlans M other := by
  rw [findPlans, hrows, List.filter_append, List.filter_filter]
  split
  next heq =>
    subst heq
    rw [List.filter_eq_nil_iff.mpr (by simp), List.nil_append, List.filter_cons_of_pos (by simpa using hweek), List.filter_nil]
  next hne =>
    rw [List.filter_cons_of_neg (by simpa [hweek] using Ne.symm hne), List.filter_nil, List.append_nil, findPlans]
    refine List.filter_congr fun old _ => ?_
    by_cases hold : old.week = other
    · simp [hold, hne]
    · simp [hold]

/-- The items of the new plan in a slot: the cells that hold something, and the old items when no cell
mentions the slot. -/
theorem mergedPlan_filter (h : MenuInv M) (notes : Option String) (slot : MenuSlot) :
    (mergedPlan M week cells notes id now).items.filter (·.slot = slot) =
      ((cells.filter (·.slot = slot)).filter (·.filled)).map (·.item) ++
        if slot ∈ cells.map (·.slot) then [] else itemsAt M week slot := by
  rw [mergedPlan, List.filter_append, List.filter_map, List.filter_filter, List.filter_filter, List.filter_filter]
  congr 1
  · congr 1
    exact List.filter_congr fun c _ => Bool.and_comm _ _
  · split
    next hin =>
      refine List.filter_eq_nil_iff.mpr fun item _ => ?_
      simp only [Bool.and_eq_true, decide_eq_true_eq, not_and]
      rintro rfl
      simpa using hin
    next hout =>
      rw [← h.priorItems]
      refine List.filter_congr fun item _ => ?_
      by_cases hslot : item.slot = slot
      · simpa [hslot] using hout
      · simp [hslot]

/-! ### The last mention of a slot -/

/-- Of a list whose elements are all alike in what they mention, only the last one may hold something. -/
theorem filter_filled_iff (l : List MenuCellInput) :
    (l.filter (·.filled)).map (·.item) = (match l.getLast? with
      | none => []
      | some cell => if cell.filled then [cell.item] else []) ↔
    l.Pairwise fun c _ => c.filled = false := by
  rcases List.eq_nil_or_concat l with rfl | ⟨l, c, rfl⟩
  · simp
  · have hlast : (match (l ++ [c]).getLast? with
        | none => []
        | some cell => if cell.filled then [cell.item] else []) = ([c].filter (·.filled)).map (·.item) := by
      cases hc : c.filled <;> simp [hc]
    rw [List.concat_eq_append, hlast, List.filter_append, List.map_append, List.append_left_eq_self,
      List.map_eq_nil_iff, List.filter_eq_nil_iff, List.pairwise_append]
    constructor
    · intro h
      refine ⟨List.Pairwise.imp_of_mem (fun ha _ _ => by simpa using h _ ha) (List.pairwise_of_forall fun _ _ => trivial),
        List.pairwise_singleton _ _, fun a ha _ _ => by simpa using h a ha⟩
    · rintro ⟨-, -, h⟩ a ha
      simpa using h a ha c (by simp)

theorem filledLast_iff : FilledLast cells ↔ ∀ slot, (cells.filter (·.slot = slot)).Pairwise fun c _ => c.filled = false := by
  simp only [FilledLast, List.pairwise_filter, decide_eq_true_eq]
  constructor
  · refine fun h slot => h.imp fun hcd hc hd => ?_
    by_contra hfilled
    exact hcd (by simpa using hfilled) (hd.trans hc.symm)
  · intro h
    rw [List.pairwise_iff_forall_sublist]
    intro c d hsub hfilled heq
    have hc := List.pairwise_iff_forall_sublist.mp (h c.slot) hsub rfl heq
    rw [hfilled] at hc
    cases hc

/-- **`plan_week` overrides** a plan in order exactly when each cell that holds something is the last one
to mention its slot. -/
theorem overrides_iff (h : MenuInv M) (hrows : M'.rows = (M.rows.filter (·.week ≠ week)) ++ [plan])
    {notes : Option String} (hplan : plan = mergedPlan M week cells notes id now) :
    Overrides M M' week cells plan ↔ FilledLast cells := by
  have hweek : plan.week = week := by rw [hplan]; rfl
  have hfind := findPlans_rewritten hrows hweek
  have hslot : ∀ slot, itemsAt M' week slot = overriddenAt M week cells slot ↔
      (cells.filter (·.slot = slot)).Pairwise fun c _ => c.filled = false := by
    intro slot
    rw [itemsAt, hfind, if_pos rfl, List.flatMap_singleton, hplan, mergedPlan_filter h, overriddenAt,
      ← filter_filled_iff]
    by_cases hin : slot ∈ cells.map (·.slot)
    · have hne : cells.filter (·.slot = slot) ≠ [] := by simpa [List.filter_eq_nil_iff] using hin
      rw [if_pos hin, List.append_nil, List.getLast?_eq_some_getLast hne]
    · have hnil : cells.filter (·.slot = slot) = [] := by
        refine List.filter_eq_nil_iff.mpr fun c hc => ?_
        simp only [decide_eq_true_eq]
        rintro rfl
        exact hin (List.mem_map_of_mem hc)
      simp [hin, hnil]
  rw [filledLast_iff]
  constructor
  · exact fun hover slot => (hslot slot).mp (hover.slots slot)
  · intro hlast
    refine ⟨by rw [hfind, if_pos rfl], fun slot => (hslot slot).mpr (hlast slot), fun other hne => ?_⟩
    rw [hfind, if_neg hne]

/-- Plans in order are in order after an override. -/
theorem MenuInv.planWeek (h : MenuInv M) (hrows : M'.rows = (M.rows.filter (·.week ≠ week)) ++ [plan])
    (hover : Overrides M M' week cells plan) : MenuInv M' := by
  have hweek : plan.week = week := by
    have hmem : plan ∈ Services.findPlans M' week := by simp [hover.plan]
    simpa using (List.mem_filter.mp hmem).2
  refine ⟨nodup_map_iff.mpr fun other => ?_, ?_⟩
  · show (Services.findPlans M' other).length ≤ 1
    rw [findPlans_rewritten hrows hweek]
    split
    · exact Nat.le_refl 1
    · exact nodup_map_iff.mp h.onePlan other
  · rw [hrows]
    intro old hold
    rcases List.mem_append.mp hold with hold | hold
    · exact h.oneItem old (List.mem_filter.mp hold).1
    · obtain rfl := List.mem_singleton.mp hold
      refine nodup_map_iff.mpr fun slot => ?_
      have hitems := hover.slots slot
      rw [itemsAt, hover.plan, List.flatMap_singleton, overriddenAt] at hitems
      rw [hitems]
      split
      · rcases h.findPlans week with hnone | ⟨plan, hplan, hone⟩
        · rw [itemsAt, hnone]
          exact Nat.zero_le 1
        · rw [itemsAt, hone, List.flatMap_singleton]
          exact nodup_map_iff.mp (h.oneItem plan hplan) slot
      · split
        · exact Nat.le_refl 1
        · exact Nat.zero_le 1

/-! ### One cell -/

/-- An update that leaves the weeks, and the slots of each plan apart. -/
theorem MenuInv.update (h : MenuInv M) {p : MenuPlan → Bool} {set : MenuPlan → MenuPlan} (hset : ∀ plan, (set plan).id = plan.id)
    (hweek : ∀ plan, (set plan).week = plan.week)
    (hitems : ∀ plan, (plan.items.map (·.slot)).Nodup → ((set plan).items.map (·.slot)).Nodup) :
    MenuInv (M.update p set hset) := by
  refine ⟨?_, ?_⟩
  · have hsame : (M.update p set hset).rows.map (·.week) = M.rows.map (·.week) := by
      rw [Keyed.rows_update, List.map_map]
      refine List.map_congr_left fun plan _ => ?_
      by_cases hp : p plan <;> simp [hp, hweek]
    rw [hsame]
    exact h.onePlan
  · intro new hnew
    rw [Keyed.rows_update] at hnew
    obtain ⟨plan, hplan, rfl⟩ := List.mem_map.mp hnew
    split
    · exact hitems plan (h.oneItem plan hplan)
    · exact h.oneItem plan hplan

theorem MenuPlan.nodup_dropItem (plan : MenuPlan) (slot : MenuSlot) (h : (plan.items.map (·.slot)).Nodup) :
    ((plan.dropItem slot).items.map (·.slot)).Nodup :=
  h.sublist (List.filter_sublist.map _)

theorem MenuPlan.nodup_putItem (plan : MenuPlan) (item : MenuPlanItem) (now : ℤ) (h : (plan.items.map (·.slot)).Nodup) :
    ((plan.putItem item now).items.map (·.slot)).Nodup := by
  rw [MenuPlan.putItem]
  split
  · have hsame : (plan.items.map fun old => if old.slot = item.slot then item else old).map (·.slot) =
        plan.items.map (·.slot) := by
      rw [List.map_map]
      refine List.map_congr_left fun old _ => ?_
      by_cases hslot : old.slot = item.slot <;> simp [hslot]
    rw [hsame]
    exact h
  next hnew =>
    rw [List.map_append, List.map_singleton, List.nodup_append]
    refine ⟨h, List.nodup_singleton _, ?_⟩
    rintro slot hslot _ hitem rfl
    rw [List.mem_singleton] at hitem
    exact hnew (hitem ▸ hslot)

/-- **`update_item`** on plans in order: they stay in order, and it fails only on its arguments. -/
theorem updateItem_spec (refs : MenuRefs) (now : ℤ) (h : MenuInv M) (args : UpdateItemArgs) :
    (∃ M' item, updateItem refs M args now = .ok (M', item) ∧ MenuInv M') ∨
      ∃ error, updateItem refs M args now = .error error ∧ args.AtFault refs error := by
  unfold updateItem
  cases hget : (M.get? args.planId).filter fun plan =>
      plan.week.tenantId = args.tenantId ∧ plan.week.userId = args.userId with
  | none => exact .inl ⟨M, none, rfl, h⟩
  | some plan =>
    have hplan : plan ∈ M.rows := (Keyed.get?_eq_some.mp (Option.filter_eq_some_iff.mp hget).1).1
    have hone : ¬ 1 < plan.items.countP (·.slot = args.cell.slot) := by
      rw [List.countP_eq_length_filter]
      exact Nat.not_lt.mpr (nodup_map_iff.mp (h.oneItem plan hplan) args.cell.slot)
    dsimp only
    rw [if_neg hone]
    split
    next hmeal => exact .inr ⟨_, rfl, hmeal⟩
    split
    next hday => exact .inr ⟨_, rfl, hday⟩
    split
    · exact .inl ⟨_, _, rfl, h.update _ (fun _ => rfl) fun plan => plan.nodup_dropItem _⟩
    split
    · exact .inl ⟨_, _, rfl, h.update _ (fun _ => rfl) fun plan => plan.nodup_putItem _ _⟩
    next hrecipe =>
      refine .inr ⟨_, rfl, ?_⟩
      obtain ⟨recipeId, hid, hmissing⟩ : ∃ recipeId, args.cell.recipeId = some recipeId ∧ refs.recipe recipeId = false := by
        cases hid : args.cell.recipeId with
        | none => simp [hid] at hrecipe
        | some recipeId => exact ⟨recipeId, rfl, by simpa [hid] using hrecipe⟩
      exact ⟨recipeId, hid, hmissing⟩

theorem MenuInv.delete (h : MenuInv M) (p : MenuPlan → Bool) : MenuInv (M.delete p) :=
  ⟨h.onePlan.sublist (List.filter_sublist.map _), fun plan hplan => h.oneItem plan (List.mem_filter.mp hplan).1⟩

end Plans

/-! ### Every run -/

/-- **One call** keeps plans in order, when each cell of its payload that holds something is the last one
to mention its slot. -/
theorem menuInv_step {M M' : MenuPlans} {e : MenuEvent} (h : MenuInv M) (hs : menus.step M e M') (hlast : e.FilledLast) :
    MenuInv M' := by
  obtain rfl := hs
  cases e with
  | planWeek refs args id now =>
    simp only [MenuEvent.commits]
    split
    next M' plan hok =>
      obtain ⟨start, cells, -, hcells, hplan, hrows⟩ := planWeek_ok hok
      exact h.planWeek hrows ((overrides_iff h hrows hplan).mpr (hlast cells hcells))
    · exact h
  | updateItem refs args now =>
    simp only [MenuEvent.commits]
    rcases updateItem_spec refs now h args with ⟨M', item, hok, hinv⟩ | ⟨error, herror, -⟩
    · rw [hok]
      exact hinv
    · rw [herror]
      exact h
  | clearMenu tenantId userId weekStart =>
    simp only [MenuEvent.commits, clearMenu]
    cases coerceMonday weekStart with
    | none => exact h
    | some start => exact h.delete _

theorem menuInv_hist {M : MenuPlans} {as : List MenuEvent} (h : (menus.guard fun _ e => e.FilledLast).Hist as M) : MenuInv M := by
  refine h.reachable.induct (P := MenuInv) ?_ ?_
  · intro M hM
    have hnil : M.rows = [] := hM
    exact ⟨by simp [hnil], by simp [hnil]⟩
  · rintro M e M' - hinv ⟨hs, hlast⟩
    exact menuInv_step hinv hs hlast

/-- **The weekly menu**: in every run whose payloads mention no slot after a cell for it that holds
something, each user has one plan a week and each plan one item in a slot, `plan_week` overrides the
plan by its cells, and `update_item` fails only on its arguments. -/
theorem weekly_menu (as : List MenuEvent) (M : MenuPlans) (h : (menus.guard fun _ e => e.FilledLast).Hist as M) :
    MenuGuarantees (menus.guard fun _ e => e.FilledLast) M := by
  have hinv := menuInv_hist h
  refine ⟨hinv, ?_, ?_⟩
  · rintro refs args id now M' plan ⟨-, hlast⟩ hok
    obtain ⟨start, cells, hstart, hcells, hplan, hrows⟩ := planWeek_ok hok
    exact ⟨start, cells, hstart, hcells, (overrides_iff hinv hrows hplan).mpr (hlast cells hcells)⟩
  · intro refs args now error herror
    rcases updateItem_spec refs now hinv args with ⟨M', item, hok, -⟩ | ⟨error', herror', hfault⟩
    · rw [hok] at herror
      cases herror
    · rw [herror'] at herror
      cases herror
      exact hfault

/-! ### A dinner -/

def anyRefs : MenuRefs := ⟨fun _ _ => true, fun _ => true⟩

/-- A dinner on Monday. -/
def dinner (freeText : String) : RawCell := .dict (.int 0) (some "dinner") none (some freeText) none

/-- The week of 20 April 2026. -/
def planDinners (dishes : List String) : MenuEvent :=
  .planWeek anyRefs ⟨"tenant_1", "user_1", .date 20563, dishes.map dinner, none⟩ "menu_1" 0

theorem weekly_menu_dinner : MenuGuarantees (menus.guard fun _ e => e.FilledLast)
    ((planDinners ["борщ"]).commits .empty) := by
  refine weekly_menu [planDinners ["борщ"]] _ (.snoc (.init rfl) ⟨rfl, ?_⟩)
  rintro cells hcells
  obtain rfl : cells = [⟨0, "dinner", none, some "борщ", none⟩] := by
    have hok : normaliseCells ([ "борщ" ].map dinner) = .ok [⟨0, "dinner", none, some "борщ", none⟩] := by decide +kernel
    exact Except.ok.inj (hcells.symm.trans hok)
  exact List.pairwise_singleton _ _

/-- **Two dinners in one payload** leave two items in the slot. -/
theorem dinner_twice : ¬ ∀ as M, menus.Hist as M → MenuGuarantees menus M := by
  intro h
  have hrun : menus.Hist [planDinners ["борщ", "суп"]] ((planDinners ["борщ", "суп"]).commits .empty) :=
    .snoc (.init rfl) rfl
  have hinv := (h _ _ hrun).inv.oneItem
  exact absurd hinv (by decide +kernel)

end Sreda.Services
