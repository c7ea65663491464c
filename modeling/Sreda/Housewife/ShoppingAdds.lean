import Mathlib.Data.Int.Notation
import Sreda.Housewife.Rows
import Sreda.Lib.Transition

/-!
# Adding items to the shopping list

`add_items_detailed` adds a batch of items to the list of one user. Outside a plan it skips titles
that are pending. In a step of a plan each row also carries an operation id, made of the execution,
the step and the lemmatised title; an insert that meets its operation id again does nothing, and
the row is reported as replayed.

An operation id is taken by the fields that are hashed into it. The normal form of Unicode, the
lower case, the lemmas of words and the order in which the database lists rows are parameters. The
audit event of a step is left out.

## What is proved

* when the report of a call is right, and that of a repeated call (`addItems_accountable_iff`);
* a call that is repeated at once meets what the repetition needs (`repeatable_self`).
-/

namespace Sreda.Housewife.Shopping

open Sreda.Lib.PyText

inductive ShoppingStatus where
  | pending | bought | cancelled
  deriving DecidableEq

/-- What `compute_operation_id_create` hashes. -/
structure OperationId where
  planId : Text
  stepId : Text
  action : Text
  entityType : Text
  logicalKey : Text
  deriving DecidableEq

/-- `ShoppingListItem`. The ids are drawn in order. -/
structure ShoppingRow where
  id : ℕ
  title : Text
  quantityText : Option Text
  category : Text
  status : ShoppingStatus
  sourceRecipeId : Option Text
  addedAt : ℤ
  operationId : Option OperationId
  normalizedTitleHash : Option Text
  deriving DecidableEq

/-- The rows of one user. -/
structure ShoppingTable where
  rows : List ShoppingRow
  nextId : ℕ

/-- `ShoppingItemInput`. -/
structure ItemInput where
  title : Text
  quantityText : Option Text
  category : Option Text
  sourceRecipeId : Option Text

/-- An entry of `items`. -/
inductive RawItem where
  | typed (item : ItemInput)
  | dict (title quantityText category sourceRecipeId : Option Text)
  | other

/-- What the service relies on. -/
structure ShoppingEnv where
  /-- `unicodedata.normalize("NFC", ·)`. -/
  nfc : Text → Text
  lower : Text → Text
  /-- `_lemmatize_word`. -/
  lemmatizeWord : Text → Text
  /-- `_guess_category`. -/
  guessCategory : Text → Text
  /-- `compute_normalized_title_hash`, for the user of the table. -/
  normalizedTitleHash : Text → Text
  /-- The order in which `_list_by_status` lists rows. -/
  order : List ShoppingRow → List ShoppingRow
  order_perm : ∀ rows, (order rows).Perm rows

/-! ## The two normal forms of a title -/

variable (env : ShoppingEnv)

/-- `_normalise_title`. -/
def normaliseTitle (title : Text) : Text :=
  if title = [] then [] else joinWords (words (env.lower (strip title)))

def foldYo (t : Text) : Text := t.map fun c => if c = 'ё' then 'е' else c

/-- `_BOUNDARY_PUNCT`. -/
def isBoundary (c : Char) : Bool := "!\"#$%&'()*+,-./:;<=>?@[\\]^_`\x7b|\x7d~ \t\r\n".toList.contains c

/-- `s.strip(_BOUNDARY_PUNCT)`. -/
def stripBoundary (s : Text) : Text := rstripWhile isBoundary (s.dropWhile isBoundary)

/-- `normalize_for_dedup`. -/
def normalizeForDedup (title : Text) : Text :=
  let text := stripBoundary (foldYo (env.lower (env.nfc title)))
  let parts := ((words text).map stripBoundary).filter (· ≠ [])
  if title = [] then [] else foldYo (joinWords (parts.map env.lemmatizeWord))

/-! ## The batch -/

/-- The input of the loop, or none for an entry that is dropped. -/
def acceptItem : RawItem → Option ItemInput
  | .typed item => some item
  | .dict title quantityText category sourceRecipeId =>
    let title := strip (title.getD [])
    let quantity := (strip (quantityText.getD [])).take 64
    if title = [] then none
    else some { title := title.take 500, quantityText := if quantity = [] then none else some quantity
                category := category, sourceRecipeId := sourceRecipeId }
  | .other => none

/-- The items that are accepted. -/
def accepted (items : List RawItem) : List ItemInput := items.filterMap acceptItem

/-- The category of a new row. -/
def resolvedCategory (item : ItemInput) : Text :=
  match item.category with
  | some (c :: raw) => coerceCategory env.lower (c :: raw)
  | _ => env.guessCategory item.title

/-- `AddItemsResult`. -/
structure AddItemsResult where
  orderedRows : List ShoppingRow := []
  created : List ShoppingRow := []
  duplicatesExisting : List Text := []
  duplicatesInBatch : List Text := []
  replayed : List ShoppingRow := []
  duplicateItemIds : List ℕ := []

/-- What the loop does with one item. -/
inductive Outcome where
  | created (row : ShoppingRow)
  | replayed (row : ShoppingRow)
  | existing (row : ShoppingRow)
  | inBatch (title : Text)
  deriving DecidableEq

/-- The result with one more item reported. -/
def AddItemsResult.record (result : AddItemsResult) : Outcome → AddItemsResult
  | .created row => { result with orderedRows := result.orderedRows ++ [row], created := result.created ++ [row] }
  | .replayed row => { result with orderedRows := result.orderedRows ++ [row], replayed := result.replayed ++ [row] }
  | .existing row =>
    { result with orderedRows := result.orderedRows ++ [row]
                  duplicatesExisting := result.duplicatesExisting ++ [row.title]
                  duplicateItemIds := result.duplicateItemIds ++ [row.id] }
  | .inBatch title => { result with duplicatesInBatch := result.duplicatesInBatch ++ [title] }

/-- The pending rows as they are listed. -/
def listPending (table : ShoppingTable) : List ShoppingRow :=
  env.order (table.rows.filter fun row => decide (row.status = .pending))

/-- `pending_by_title.get(norm)`: the first pending row with the title. -/
def pendingByTitle (table : ShoppingTable) (norm : Text) : Option ShoppingRow :=
  (listPending env table).find? fun row => decide (normaliseTitle env row.title = norm)

/-- The titles that are pending. -/
def pendingTitles (table : ShoppingTable) : List Text := (listPending env table).map fun row => normaliseTitle env row.title

/-! ### In a step of a plan -/

/-- The `ToolRuntimeContext` of a step. -/
structure StepContext where
  executionId : Text
  stepId : Text
  tenantId : Text

/-- The operation id of one item. -/
def itemOperationId (ctx : StepContext) (item : ItemInput) : OperationId where
  planId := ctx.executionId
  stepId := ctx.stepId
  action := "create".toList
  entityType := "shopping_list_item".toList
  logicalKey := normalizeForDedup env item.title

/-- `INSERT … ON CONFLICT (operation_id) DO NOTHING`, and whether a row was inserted. -/
def insertRow (table : ShoppingTable) (row : ShoppingRow) : ShoppingTable × Bool :=
  if row.operationId ∈ table.rows.map ShoppingRow.operationId then (table, false)
  else ({ rows := table.rows ++ [row], nextId := table.nextId + 1 }, true)

/-- The state of the loop. -/
structure AddLoop where
  table : ShoppingTable
  seen : List Text
  result : AddItemsResult

variable (ctx : StepContext) (now : ℤ)

/-- The row of an item. -/
def newRow (table : ShoppingTable) (item : ItemInput) (operationId : Option OperationId)
    (normalizedTitleHash : Option Text) : ShoppingRow where
  id := table.nextId
  title := item.title
  quantityText := item.quantityText
  category := resolvedCategory env item
  status := .pending
  sourceRecipeId := item.sourceRecipeId
  addedAt := now
  operationId := operationId
  normalizedTitleHash := normalizedTitleHash

/-- The row of an item in a step. -/
def stepRow (table : ShoppingTable) (item : ItemInput) : ShoppingRow :=
  newRow env now table item (some (itemOperationId env ctx item)) (some (env.normalizedTitleHash item.title))

/-- What the loop reports of an item, and the table after it; `start` is the table of the call. -/
def addOne (start : ShoppingTable) (loop : AddLoop) (item : ItemInput) : Option Outcome × ShoppingTable :=
  let norm := normaliseTitle env item.title
  let opId := some (itemOperationId env ctx item)
  if norm ∈ loop.seen then
    match pendingByTitle env start norm with
    | some row => (some (if row.operationId = opId then .replayed row else .existing row), loop.table)
    | none => (some (.inBatch item.title), loop.table)
  else
    let inserted := insertRow loop.table (stepRow env ctx now loop.table item)
    let actual := inserted.1.rows.find? fun row => decide (row.operationId = opId)
    (actual.map fun row => if inserted.2 then .created row else .replayed row, inserted.1)

/-- One turn of the loop. -/
def addItem (start : ShoppingTable) (loop : AddLoop) (item : ItemInput) : AddLoop :=
  let one := addOne env ctx now start loop item
  { table := one.2
    seen := loop.seen.insert (normaliseTitle env item.title)
    result := match one.1 with
      | some outcome => loop.result.record outcome
      | none => loop.result }

def startLoop (table : ShoppingTable) : AddLoop := ⟨table, pendingTitles env table, {}⟩

/-- The loop over the accepted items. -/
def addLoop (table : ShoppingTable) (items : List ItemInput) : AddLoop :=
  items.foldl (addItem env ctx now table) (startLoop env table)

/-- What an item is reported as, after the items before it. -/
def outcomeAt (table : ShoppingTable) (before : List ItemInput) (item : ItemInput) : Option Outcome :=
  (addOne env ctx now table (addLoop env ctx now table before) item).1

/-! ### Outside a plan -/

/-- One turn of the loop outside a plan. -/
def addItemLegacy (start : ShoppingTable) (loop : AddLoop) (item : ItemInput) : AddLoop :=
  let norm := normaliseTitle env item.title
  if norm ∈ loop.seen then
    match pendingByTitle env start norm with
    | some row =>
      { loop with result := { loop.result with
          duplicatesExisting := loop.result.duplicatesExisting ++ [row.title]
          duplicateItemIds := loop.result.duplicateItemIds ++ [row.id] } }
    | none => { loop with result := loop.result.record (.inBatch item.title) }
  else
    let row := newRow env now loop.table item none none
    { table := { rows := loop.table.rows ++ [row], nextId := loop.table.nextId + 1 }
      seen := norm :: loop.seen
      result := loop.result.record (.created row) }

/-- `add_items_detailed`: none when the context belongs to another tenant. -/
def addItemsDetailed (context : Option StepContext) (tenantId : Text) (table : ShoppingTable) (items : List RawItem) :
    Option (AddItemsResult × ShoppingTable) :=
  match context with
  | none =>
    let loop := (accepted items).foldl (addItemLegacy env now table) (startLoop env table)
    some ({ loop.result with orderedRows := loop.result.created }, loop.table)
  | some ctx =>
    if ctx.tenantId ≠ [] ∧ ctx.tenantId ≠ tenantId then none
    else
      let loop := addLoop env ctx now table (accepted items)
      some (loop.result, loop.table)

/-! ## The tables -/

/-- Ids are unique and below the next one, and operation ids are unique. -/
structure Sound (table : ShoppingTable) : Prop where
  id_lt : ∀ row ∈ table.rows, row.id < table.nextId
  id_inj : ∀ row ∈ table.rows, ∀ row' ∈ table.rows, row.id = row'.id → row = row'
  op_inj : ∀ row ∈ table.rows, ∀ row' ∈ table.rows, ∀ op, row.operationId = some op → row'.operationId = some op → row = row'

variable {env ctx now} {table : ShoppingTable}

variable {row : ShoppingRow} {item x : ItemInput} {start : ShoppingTable} {before items : List ItemInput}
variable {loop : AddLoop} {as : List ShoppingEvent}

theorem mem_listPending : row ∈ listPending env table ↔ row ∈ table.rows ∧ row.status = .pending := by
  rw [listPending, (env.order_perm _).mem_iff, List.mem_filter, decide_eq_true_eq]

theorem mem_pendingTitles {norm : Text} :
    norm ∈ pendingTitles env table ↔ ∃ row ∈ table.rows, row.status = .pending ∧ normaliseTitle env row.title = norm := by
  simp only [pendingTitles, List.mem_map, mem_listPending, and_assoc]

theorem pendingByTitle_eq_some {norm : Text} (h : pendingByTitle env table norm = some row) :
    row ∈ table.rows ∧ row.status = .pending ∧ normaliseTitle env row.title = norm := by
  have hmem := mem_listPending.1 (List.mem_of_find?_eq_some h)
  exact ⟨hmem.1, hmem.2, by simpa using List.find?_some h⟩

theorem pendingByTitle_eq_none {norm : Text} : pendingByTitle env table norm = none ↔ norm ∉ pendingTitles env table := by
  simp [pendingByTitle, pendingTitles]

theorem Sound.find_operation (h : Sound table) {op : OperationId} (hrow : row ∈ table.rows)
    (hop : row.operationId = some op) : (table.rows.find? fun row => decide (row.operationId = some op)) = some row := by
  cases hfind : table.rows.find? fun row => decide (row.operationId = some op) with
  | none => exact absurd (List.find?_eq_none.1 hfind row hrow) (by simpa using hop)
  | some found =>
    have hfound : found.operationId = some op := by simpa using List.find?_some hfind
    rw [h.op_inj found (List.mem_of_find?_eq_some hfind) row hrow op hfound hop]

/-- The insert of a row whose operation id is not there. -/
theorem Sound.insert (h : Sound table)
    (hnew : ∀ row ∈ table.rows, row.operationId ≠ some (itemOperationId env ctx item)) :
    Sound { rows := table.rows ++ [stepRow env ctx now table item], nextId := table.nextId + 1 } := by
  have hid : ∀ row ∈ table.rows, row.id ≠ table.nextId := fun row hrow => Nat.ne_of_lt (h.id_lt row hrow)
  constructor
  · intro row hrow
    rcases List.mem_append.1 hrow with hrow | hrow
    · exact Nat.lt_succ_of_lt (h.id_lt row hrow)
    · rw [List.mem_singleton.1 hrow]
      exact Nat.lt_succ_self _
  · intro row hrow row' hrow' heq
    rcases List.mem_append.1 hrow with hrow | hrow <;> rcases List.mem_append.1 hrow' with hrow' | hrow'
    · exact h.id_inj row hrow row' hrow' heq
    · rw [List.mem_singleton.1 hrow'] at heq
      exact absurd heq (hid row hrow)
    · rw [List.mem_singleton.1 hrow] at heq
      exact absurd heq.symm (hid row' hrow')
    · rw [List.mem_singleton.1 hrow, List.mem_singleton.1 hrow']
  · intro row hrow row' hrow' op hop hop'
    rcases List.mem_append.1 hrow with hrow | hrow <;> rcases List.mem_append.1 hrow' with hrow' | hrow'
    · exact h.op_inj row hrow row' hrow' op hop hop'
    · rw [List.mem_singleton.1 hrow'] at hop'
      exact absurd (hop.trans hop'.symm) (hnew row hrow)
    · rw [List.mem_singleton.1 hrow] at hop
      exact absurd (hop'.trans hop.symm) (hnew row' hrow')
    · rw [List.mem_singleton.1 hrow, List.mem_singleton.1 hrow']

/-! ## One turn of the loop -/

/-- The title is not pending, and it is the first of the batch with its normal form. -/
def Fresh (env : ShoppingEnv) (table : ShoppingTable) (before : List ItemInput) (item : ItemInput) : Prop :=
  normaliseTitle env item.title ∉ pendingTitles env table ∧
    ∀ x ∈ before, normaliseTitle env x.title ≠ normaliseTitle env item.title

/-- The state of the loop after the first items of a batch. -/
structure LoopInv (env : ShoppingEnv) (ctx : StepContext) (start : ShoppingTable) (before : List ItemInput)
    (loop : AddLoop) : Prop where
  sound : Sound loop.table
  seen : ∀ norm, norm ∈ loop.seen ↔
    norm ∈ pendingTitles env start ∨ ∃ x ∈ before, normaliseTitle env x.title = norm
  rows : loop.table.rows = start.rows ++ loop.result.created
  nextId_le : start.nextId ≤ loop.table.nextId
  /-- A created row is that of a fresh item, and its operation id was not there. -/
  created : ∀ row ∈ loop.result.created, row.status = .pending ∧ start.nextId ≤ row.id ∧
    ∃ a x b, before = a ++ x :: b ∧ Fresh env start a x ∧ row.title = x.title ∧
      row.operationId = some (itemOperationId env ctx x) ∧
      ∀ row' ∈ start.rows, row'.operationId ≠ some (itemOperationId env ctx x)
  /-- The step has a row for every fresh item. -/
  ops : ∀ a x b, before = a ++ x :: b → Fresh env start a x →
    ∃ row ∈ loop.table.rows, row.operationId = some (itemOperationId env ctx x)
  titles : (loop.result.created.map fun row => normaliseTitle env row.title).Nodup

/-- What one turn does. -/
inductive Turn (env : ShoppingEnv) (ctx : StepContext) (now : ℤ) (start : ShoppingTable) (before : List ItemInput)
    (loop : AddLoop) (item : ItemInput) : Option Outcome × ShoppingTable → Prop
  /-- The title is pending. -/
  | pending {row : ShoppingRow} : pendingByTitle env start (normaliseTitle env item.title) = some row →
      Turn env ctx now start before loop item
        (some (if row.operationId = some (itemOperationId env ctx item) then .replayed row else .existing row), loop.table)
  /-- The title came before in the batch. -/
  | inBatch {x : ItemInput} : normaliseTitle env item.title ∉ pendingTitles env start → x ∈ before →
      normaliseTitle env x.title = normaliseTitle env item.title →
      Turn env ctx now start before loop item (some (.inBatch item.title), loop.table)
  /-- The insert meets its operation id. -/
  | conflict {row : ShoppingRow} : Fresh env start before item → row ∈ loop.table.rows →
      row.operationId = some (itemOperationId env ctx item) →
      Turn env ctx now start before loop item (some (.replayed row), loop.table)
  | insert : Fresh env start before item →
      (∀ row ∈ loop.table.rows, row.operationId ≠ some (itemOperationId env ctx item)) →
      Turn env ctx now start before loop item
        (some (.created (stepRow env ctx now loop.table item)),
          { rows := loop.table.rows ++ [stepRow env ctx now loop.table item], nextId := loop.table.nextId + 1 })

theorem addOne_turn (h : LoopInv env ctx start before loop) (item : ItemInput) :
    Turn env ctx now start before loop item (addOne env ctx now start loop item) := by
  simp only [addOne]
  split
  · rename_i hseen
    cases hpending : pendingByTitle env start (normaliseTitle env item.title) with
    | some row => exact .pending hpending
    | none =>
      have hnot := pendingByTitle_eq_none.1 hpending
      obtain ⟨x, hx, heq⟩ := ((h.seen _).1 hseen).resolve_left hnot
      exact .inBatch hnot hx heq
  · rename_i hseen
    have hfresh : Fresh env start before item :=
      ⟨fun hmem => hseen ((h.seen _).2 (.inl hmem)), fun x hx heq => hseen ((h.seen _).2 (.inr ⟨x, hx, heq⟩))⟩
    by_cases hop : ∃ row ∈ loop.table.rows, row.operationId = some (itemOperationId env ctx item)
    · obtain ⟨row, hrow, hop⟩ := hop
      have hinsert : insertRow loop.table (stepRow env ctx now loop.table item) = (loop.table, false) :=
        if_pos (List.mem_map.2 ⟨row, hrow, hop⟩)
      rw [hinsert, h.sound.find_operation hrow hop]
      exact .conflict hfresh hrow hop
    · simp only [not_exists, not_and] at hop
      have hinsert : insertRow loop.table (stepRow env ctx now loop.table item) =
          ({ rows := loop.table.rows ++ [stepRow env ctx now loop.table item], nextId := loop.table.nextId + 1 }, true) := by
        refine if_neg fun hmem => ?_
        obtain ⟨row, hrow, heq⟩ := List.mem_map.1 hmem
        exact hop row hrow heq
      have hsound : Sound { rows := loop.table.rows ++ [stepRow env ctx now loop.table item]
                            nextId := loop.table.nextId + 1 } := h.sound.insert hop
      rw [hinsert, hsound.find_operation (List.mem_append_right _ (List.mem_singleton_self _)) rfl]
      exact .insert hfresh hop

/-! ## The loop -/

theorem loopInv_start (h : Sound start) : LoopInv env ctx start [] (startLoop env start) where
  sound := h
  seen norm := by simp [startLoop]
  rows := by simp [startLoop]
  nextId_le := Nat.le_refl _
  created row hrow := by cases hrow
  ops a x b heq := by simp at heq
  titles := List.nodup_nil

/-- The last item of a batch is one of those before it, or the last. -/
theorem concat_eq_append {a b : List ItemInput} (h : before ++ [item] = a ++ x :: b) :
    (∃ b', before = a ++ x :: b' ∧ b = b' ++ [item]) ∨ (before = a ∧ item = x ∧ b = []) := by
  rcases List.eq_nil_or_concat b with rfl | ⟨b', y, rfl⟩
  · exact .inr ⟨(List.append_inj' h rfl).1, by simpa using (List.append_inj' h rfl).2, rfl⟩
  · rw [List.concat_eq_append, ← List.cons_append, ← List.append_assoc] at h
    obtain ⟨hbefore, hlast⟩ := List.append_inj' h rfl
    obtain rfl : item = y := by simpa using hlast
    exact .inl ⟨b', hbefore, List.concat_eq_append⟩

theorem LoopInv.seen_insert (h : LoopInv env ctx start before loop) (item : ItemInput) (norm : Text) :
    norm ∈ loop.seen.insert (normaliseTitle env item.title) ↔
      norm ∈ pendingTitles env start ∨ ∃ x ∈ before ++ [item], normaliseTitle env x.title = norm := by
  rw [List.mem_insert_iff, h.seen]
  simp only [List.mem_append, List.mem_singleton, or_and_right, exists_or, exists_eq_left]
  rw [eq_comm, or_comm, or_assoc]

/-- What a turn keeps, when it inserts nothing. -/
theorem LoopInv.keep (h : LoopInv env ctx start before loop) {outcome : Outcome}
    (hcreated : (loop.result.record outcome).created = loop.result.created)
    (hop : Fresh env start before item → ∃ row ∈ loop.table.rows, row.operationId = some (itemOperationId env ctx item)) :
    LoopInv env ctx start (before ++ [item])
      ⟨loop.table, loop.seen.insert (normaliseTitle env item.title), loop.result.record outcome⟩ where
  sound := h.sound
  seen norm := h.seen_insert item norm
  rows := by rw [hcreated]; exact h.rows
  nextId_le := h.nextId_le
  created row hrow := by
    rw [hcreated] at hrow
    obtain ⟨hstatus, hid, a, x, b, rfl, hrest⟩ := h.created row hrow
    exact ⟨hstatus, hid, a, x, b ++ [item], by simp, hrest⟩
  ops a x b heq hfresh := by
    rcases concat_eq_append heq with ⟨b', rfl, -⟩ | ⟨rfl, rfl, -⟩
    · exact h.ops a x b' rfl hfresh
    · exact hop hfresh
  titles := by rw [hcreated]; exact h.titles

theorem LoopInv.insert (h : LoopInv env ctx start before loop) (hfresh : Fresh env start before item)
    (hop : ∀ row ∈ loop.table.rows, row.operationId ≠ some (itemOperationId env ctx item)) :
    LoopInv env ctx start (before ++ [item])
      ⟨{ rows := loop.table.rows ++ [stepRow env ctx now loop.table item], nextId := loop.table.nextId + 1 },
        loop.seen.insert (normaliseTitle env item.title),
        loop.result.record (.created (stepRow env ctx now loop.table item))⟩ where
  sound := h.sound.insert hop
  seen norm := h.seen_insert item norm
  rows := by simp only [h.rows, AddItemsResult.record, List.append_assoc]
  nextId_le := Nat.le_succ_of_le h.nextId_le
  created row hrow := by
    rcases List.mem_append.1 hrow with hrow | hrow
    · obtain ⟨hstatus, hid, a, x, b, rfl, hrest⟩ := h.created row hrow
      exact ⟨hstatus, hid, a, x, b ++ [item], by simp, hrest⟩
    · rw [List.mem_singleton.1 hrow]
      refine ⟨rfl, h.nextId_le, before, item, [], rfl, hfresh, rfl, rfl, fun row' hrow' => hop row' ?_⟩
      rw [h.rows]
      exact List.mem_append_left _ hrow'
  ops a x b heq hfresh' := by
    rcases concat_eq_append heq with ⟨b', rfl, -⟩ | ⟨rfl, rfl, -⟩
    · obtain ⟨row, hrow, hrowOp⟩ := h.ops a x b' rfl hfresh'
      exact ⟨row, List.mem_append_left _ hrow, hrowOp⟩
    · exact ⟨_, List.mem_append_right _ (List.mem_singleton_self _), rfl⟩
  titles := by
    simp only [AddItemsResult.record, List.map_append, List.map_singleton]
    refine List.nodup_append.2 ⟨h.titles, by simp, fun norm hnorm norm' hnorm' => ?_⟩
    obtain ⟨row, hrow, rfl⟩ := List.mem_map.1 hnorm
    rw [List.mem_singleton.1 hnorm']
    obtain ⟨-, -, a, x, b, rfl, -, htitle, -⟩ := h.created row hrow
    rw [htitle]
    exact hfresh.2 x (by simp)

/-- **The step lemma of the loop**, with what the turn reports. -/
theorem LoopInv.step (h : LoopInv env ctx start before loop) (item : ItemInput) :
    LoopInv env ctx start (before ++ [item]) (addItem env ctx now start loop item) := by
  have hturn : Turn env ctx now start before loop item (addOne env ctx now start loop item) := addOne_turn h item
  rw [addItem]
  generalize addOne env ctx now start loop item = one at hturn
  cases hturn with
  | pending hpending =>
    obtain ⟨hrow, hstatus, hnorm⟩ := pendingByTitle_eq_some hpending
    refine h.keep (by split <;> rfl) fun hfresh => absurd ?_ hfresh.1
    exact mem_pendingTitles.2 ⟨_, hrow, hstatus, hnorm⟩
  | inBatch hnot hx heq => exact h.keep rfl fun hfresh => absurd heq (hfresh.2 _ hx)
  | conflict hfresh hrow hop => exact h.keep rfl fun _ => ⟨_, hrow, hop⟩
  | insert hfresh hop => exact h.insert hfresh hop

theorem addLoop_concat (table : ShoppingTable) (before : List ItemInput) (item : ItemInput) :
    addLoop env ctx now table (before ++ [item]) = addItem env ctx now table (addLoop env ctx now table before) item := by
  rw [addLoop, List.foldl_append]
  rfl

/-- **The run lemma of the loop.** -/
theorem loopInv_addLoop (hsound : Sound table) (before : List ItemInput) :
    LoopInv env ctx table before (addLoop env ctx now table before) := by
  induction before using List.reverseRecOn with
  | nil => exact loopInv_start hsound
  | append_singleton before item ih =>
    rw [addLoop_concat]
    exact ih.step item

theorem turnAt (hsound : Sound table) (before : List ItemInput) (item : ItemInput) :
    Turn env ctx now table before (addLoop env ctx now table before) item
      (addOne env ctx now table (addLoop env ctx now table before) item) :=
  addOne_turn (loopInv_addLoop hsound before) item

/-! ## What is reported -/

/-- What an outcome says of its item. -/
def Accounts (env : ShoppingEnv) (ctx : StepContext) (item : ItemInput) : Outcome → Prop
  | .created row => row.title = item.title ∧ row.status = .pending ∧
      row.operationId = some (itemOperationId env ctx item)
  | .replayed row => row.operationId = some (itemOperationId env ctx item)
  | .existing row => row.status = .pending ∧ normaliseTitle env row.title = normaliseTitle env item.title ∧
      row.operationId ≠ some (itemOperationId env ctx item)
  | .inBatch title => title = item.title

/-- Each item of a batch with its one outcome, in order. -/
inductive Reported (env : ShoppingEnv) (ctx : StepContext) (now : ℤ) (table : ShoppingTable) :
    List ItemInput → List Outcome → Prop
  | nil : Reported env ctx now table [] []
  | snoc {before : List ItemInput} {item : ItemInput} {os : List Outcome} {outcome : Outcome} :
      Reported env ctx now table before os → outcomeAt env ctx now table before item = some outcome →
      Accounts env ctx item outcome → Reported env ctx now table (before ++ [item]) (os ++ [outcome])

/-- Every item is accounted for: the result consists of one outcome for each. -/
def Accounted (env : ShoppingEnv) (ctx : StepContext) (now : ℤ) (table : ShoppingTable) (items : List ItemInput)
    (result : AddItemsResult) : Prop :=
  ∃ os, Reported env ctx now table items os ∧ os.length = items.length ∧ result = os.foldl AddItemsResult.record {}

theorem outcomeAt_accounts (hsound : Sound table) (before : List ItemInput) (item : ItemInput) :
    ∃ outcome, outcomeAt env ctx now table before item = some outcome ∧ Accounts env ctx item outcome := by
  have hturn : Turn env ctx now table before _ item _ := turnAt hsound before item
  rw [outcomeAt]
  generalize addOne env ctx now table (addLoop env ctx now table before) item = one at hturn
  cases hturn with
  | @pending row hpending =>
    obtain ⟨-, hstatus, hnorm⟩ := pendingByTitle_eq_some hpending
    refine ⟨_, rfl, ?_⟩
    split
    · rename_i hop
      exact hop
    · rename_i hop
      exact ⟨hstatus, hnorm, hop⟩
  | inBatch => exact ⟨_, rfl, rfl⟩
  | conflict _ _ hop => exact ⟨_, rfl, hop⟩
  | insert => exact ⟨_, rfl, rfl, rfl, rfl⟩

theorem accounted_addLoop (hsound : Sound table) (items : List ItemInput) :
    Accounted env ctx now table items (addLoop env ctx now table items).result := by
  induction items using List.reverseRecOn with
  | nil => exact ⟨[], .nil, rfl, rfl⟩
  | append_singleton before item ih =>
    obtain ⟨os, hos, hlen, hresult⟩ := ih
    obtain ⟨outcome, hat, haccounts⟩ := @outcomeAt_accounts env ctx now table hsound before item
    refine ⟨os ++ [outcome], hos.snoc hat haccounts, by simp [hlen], ?_⟩
    rw [addLoop_concat, List.foldl_append, ← hresult]
    rw [outcomeAt] at hat
    simp only [addItem, hat, List.foldl_cons, List.foldl_nil]

theorem Reported.mem {os : List Outcome} (h : Reported env ctx now table items os) {outcome : Outcome} :
    outcome ∈ os ↔ ∃ before item after, items = before ++ item :: after ∧
      outcomeAt env ctx now table before item = some outcome := by
  induction h with
  | nil => simp
  | @snoc before item os last hos hat _ ih =>
    rw [List.mem_append, ih, List.mem_singleton]
    constructor
    · rintro (⟨a, x, b, rfl, hx⟩ | rfl)
      · exact ⟨a, x, b ++ [item], by simp, hx⟩
      · exact ⟨before, item, [], rfl, hat⟩
    · rintro ⟨a, x, b, heq, hx⟩
      rcases concat_eq_append heq with ⟨b', rfl, -⟩ | ⟨rfl, rfl, -⟩
      · exact .inl ⟨a, x, b', rfl, hx⟩
      · exact .inr (Option.some_inj.1 (hx.symm.trans hat))

theorem replayed_foldl (os : List Outcome) (result : AddItemsResult) (row : ShoppingRow) :
    row ∈ (os.foldl AddItemsResult.record result).replayed ↔ row ∈ result.replayed ∨ .replayed row ∈ os := by
  induction os generalizing result with
  | nil => simp
  | cons outcome os ih =>
    rw [List.foldl_cons, ih]
    cases outcome <;> simp [AddItemsResult.record, or_assoc]

theorem mem_replayed (hsound : Sound table) : row ∈ (addLoop env ctx now table items).result.replayed ↔
      ∃ before item after, items = before ++ item :: after ∧
        outcomeAt env ctx now table before item = some (.replayed row) := by
  obtain ⟨os, hos, -, hresult⟩ : Accounted env ctx now table items _ := accounted_addLoop hsound items
  rw [hresult, replayed_foldl, ← hos.mem]
  simp

/-! ## The history of a list -/

inductive ShoppingEvent where
  /-- A call in a step of a plan, with the ids of the rows that it inserted. -/
  | add (executionId stepId : Text) (created : List ℕ)
  /-- Anything else: rows are edited, deleted, or added outside a plan. -/
  | other

/-- What happens outside the calls keeps the operation ids and gives none. -/
structure Other (s t : ShoppingTable) : Prop where
  sound : Sound t
  nextId_le : s.nextId ≤ t.nextId
  rows : ∀ row ∈ t.rows, row.operationId = none ∨ ∃ old ∈ s.rows, old.id = row.id ∧ old.operationId = row.operationId

/-- The list of a user. -/
def shoppingSystem (env : ShoppingEnv) : Lib.Lts ShoppingTable ShoppingEvent where
  init t := Sound t ∧ ∀ row ∈ t.rows, row.operationId = none
  step s e t :=
    match e with
    | .add executionId stepId created => ∃ (ctx : StepContext) (now : ℤ) (items : List ItemInput),
        ctx.executionId = executionId ∧ ctx.stepId = stepId ∧ t = (addLoop env ctx now s items).table ∧
          created = (addLoop env ctx now s items).result.created.map ShoppingRow.id
    | .other => Other s t

/-- An earlier call of the execution and the step inserted the row. -/
def InsertedBefore (as : List ShoppingEvent) (ctx : StepContext) (row : ShoppingRow) : Prop :=
  ∃ created, .add ctx.executionId ctx.stepId created ∈ as ∧ row.id ∈ created

/-- What the history says of a table. -/
structure Known (as : List ShoppingEvent) (table : ShoppingTable) : Prop where
  sound : Sound table
  ops : ∀ row ∈ table.rows, ∀ op, row.operationId = some op →
    ∃ created, .add op.planId op.stepId created ∈ as ∧ row.id ∈ created
  ids : ∀ e s created, .add e s created ∈ as → ∀ id ∈ created, id < table.nextId

theorem Known.call (h : Known as table) (items : List ItemInput) :
    Known (as ++ [.add ctx.executionId ctx.stepId ((addLoop env ctx now table items).result.created.map ShoppingRow.id)])
      (addLoop env ctx now table items).table := by
  have hinv : LoopInv env ctx table items (addLoop env ctx now table items) := loopInv_addLoop h.sound items
  refine ⟨hinv.sound, fun row hrow op hop => ?_, fun e s created hmem id hid => ?_⟩
  · rw [hinv.rows] at hrow
    rcases List.mem_append.1 hrow with hrow | hrow
    · obtain ⟨created, hmem, hid⟩ := h.ops row hrow op hop
      exact ⟨created, List.mem_append_left _ hmem, hid⟩
    · obtain ⟨-, -, _, x, _, -, -, -, hrowOp, -⟩ := hinv.created row hrow
      obtain rfl := Option.some_inj.1 (hop.symm.trans hrowOp)
      exact ⟨_, List.mem_append_right _ (List.mem_singleton_self _), List.mem_map.2 ⟨row, hrow, rfl⟩⟩
  · rcases List.mem_append.1 hmem with hmem | hmem
    · exact Nat.lt_of_lt_of_le (h.ids e s created hmem id hid) hinv.nextId_le
    · obtain ⟨-, -, rfl⟩ : e = ctx.executionId ∧ s = ctx.stepId ∧ created = _ := by
        simpa using hmem
      obtain ⟨row, hrow, rfl⟩ := List.mem_map.1 hid
      refine hinv.sound.id_lt row ?_
      rw [hinv.rows]
      exact List.mem_append_right _ hrow

/-- **The history of a list.** -/
theorem known_of_hist (h : (shoppingSystem env).Hist as table) : Known as table := by
  refine Lib.Lts.Hist.induct (P := Known) (fun s hs => ?_) (fun as s e t _ ih hstep => ?_) h
  · refine ⟨hs.1, fun row hrow op hop => ?_, fun e s created hmem => ?_⟩
    · rw [hs.2 row hrow] at hop
      cases hop
    · cases hmem
  · cases e with
    | add executionId stepId created =>
      obtain ⟨ctx, now, items, rfl, rfl, rfl, rfl⟩ := hstep
      exact ih.call items
    | other =>
      obtain ⟨hsound, hle, hrows⟩ := hstep
      refine ⟨hsound, fun row hrow op hop => ?_, fun e s created hmem id hid => ?_⟩
      · rcases hrows row hrow with hnone | ⟨old, hold, hid, hoper⟩
        · rw [hnone] at hop
          cases hop
        · obtain ⟨created, hmem, hin⟩ := ih.ops old hold op (hoper.trans hop)
          exact ⟨created, List.mem_append_left _ hmem, hid ▸ hin⟩
      · have hmem' : ShoppingEvent.add e s created ∈ as := by simpa using hmem
        exact Nat.lt_of_lt_of_le (ih.ids e s created hmem' id hid) hle

/-! ## When the report is right -/

/-- Titles of a batch that are different and neither of them pending have different lemmatised forms,
unless the step has a row for them already. -/
def LemmasApart (env : ShoppingEnv) (ctx : StepContext) (table : ShoppingTable) (items : List ItemInput) : Prop :=
  ∀ before x between y after, items = before ++ x :: (between ++ y :: after) → Fresh env table before x →
    Fresh env table (before ++ x :: between) y → normalizeForDedup env x.title = normalizeForDedup env y.title →
    ∃ row ∈ table.rows, row.operationId = some (itemOperationId env ctx x)

/-- Each title of a batch is pending, or the step has a row for it. -/
def Listed (env : ShoppingEnv) (ctx : StepContext) (table : ShoppingTable) (items : List ItemInput) : Prop :=
  ∀ before item after, items = before ++ item :: after →
    (∀ x ∈ before, normaliseTitle env x.title ≠ normaliseTitle env item.title) →
    normaliseTitle env item.title ∈ pendingTitles env table ∨
      ∃ row ∈ table.rows, row.operationId = some (itemOperationId env ctx item)

/-- Where the step's row of an item it had to insert is pending later, it is the first that is
pending with the title of the item, or the title is not pending. -/
def OwnFirst (env : ShoppingEnv) (ctx : StepContext) (table : ShoppingTable) (items : List ItemInput)
    (later : ShoppingTable) : Prop :=
  ∀ before item after, items = before ++ item :: after → Fresh env table before item →
    (∀ row ∈ table.rows, row.operationId ≠ some (itemOperationId env ctx item)) →
    ∀ row ∈ later.rows, row.operationId = some (itemOperationId env ctx item) → row.status = .pending →
    ∀ first, pendingByTitle env later (normaliseTitle env item.title) = some first → first = row

theorem itemOperationId_inj {y : ItemInput} : itemOperationId env ctx x = itemOperationId env ctx y ↔
      normalizeForDedup env x.title = normalizeForDedup env y.title := by
  simp [itemOperationId]

theorem replayed_iff (hknown : Known as table) (items : List ItemInput) :
    (∀ row ∈ (addLoop env ctx now table items).result.replayed, InsertedBefore as ctx row) ↔
      LemmasApart env ctx table items := by
  have hold : ∀ row ∈ table.rows, ∀ item, row.operationId = some (itemOperationId env ctx item) →
      InsertedBefore as ctx row := fun row hrow item hop => hknown.ops row hrow _ hop
  constructor
  · intro hall before x between y after heq hx hy hkey
    by_contra hnone
    simp only [not_exists, not_and] at hnone
    have hinv : LoopInv env ctx table (before ++ x :: between) (addLoop env ctx now table (before ++ x :: between)) :=
      loopInv_addLoop hknown.sound _
    obtain ⟨row, hrow, hop⟩ := hinv.ops before x between rfl hx
    have hopy : row.operationId = some (itemOperationId env ctx y) := by rw [hop, itemOperationId_inj.2 hkey]
    -- The second title meets the row that the first one inserted.
    have hturn : Turn env ctx now table (before ++ x :: between) _ y _ := turnAt hknown.sound _ y
    have hat : outcomeAt env ctx now table (before ++ x :: between) y = some (.replayed row) := by
      rw [outcomeAt]
      generalize addOne env ctx now table (addLoop env ctx now table (before ++ x :: between)) y = one at hturn
      cases hturn with
      | pending hpending =>
        obtain ⟨hmem, hstatus, hnorm⟩ := pendingByTitle_eq_some hpending
        exact absurd (mem_pendingTitles.2 ⟨_, hmem, hstatus, hnorm⟩) hy.1
      | inBatch _ hmem hnorm => exact absurd hnorm (hy.2 _ hmem)
      | conflict _ hmem hop' => rw [hinv.sound.op_inj _ hmem row hrow _ hop' hopy]
      | insert _ hnew => exact absurd hopy (hnew row hrow)
    have hsplit : items = (before ++ x :: between) ++ y :: after := by rw [heq]; simp
    obtain ⟨created, hadd, hid⟩ := hall row ((mem_replayed hknown.sound).2 ⟨_, y, after, hsplit, hat⟩)
    have hlt := hknown.ids _ _ _ hadd _ hid
    rw [hinv.rows] at hrow
    rcases List.mem_append.1 hrow with hrow | hrow
    · exact hnone row hrow hop
    · exact absurd (hinv.created row hrow).2.1 (Nat.not_le.2 hlt)
  · intro hapart row hrow
    obtain ⟨before, item, after, rfl, hat⟩ := (mem_replayed hknown.sound).1 hrow
    have hinv : LoopInv env ctx table before (addLoop env ctx now table before) := loopInv_addLoop hknown.sound before
    have hturn : Turn env ctx now table before _ item _ := turnAt hknown.sound before item
    rw [outcomeAt] at hat
    generalize addOne env ctx now table (addLoop env ctx now table before) item = one at hturn hat
    cases hturn with
    | pending hpending =>
      obtain ⟨hmem, -, -⟩ := pendingByTitle_eq_some hpending
      simp only [Option.some_inj] at hat
      split at hat
      · rename_i hop
        cases hat
        exact hold row hmem item hop
      · cases hat
    | inBatch => cases hat
    | conflict hfresh hmem hop =>
      cases hat
      rw [hinv.rows] at hmem
      rcases List.mem_append.1 hmem with hmem | hmem
      · exact hold row hmem item hop
      · obtain ⟨-, -, a, x, b, rfl, hx, -, hopx, hnone⟩ := hinv.created row hmem
        have hkey := itemOperationId_inj.1 (Option.some_inj.1 (hopx.symm.trans hop))
        obtain ⟨row', hrow', hop'⟩ := hapart a x b item after (by simp) hx hfresh hkey
        exact absurd hop' (hnone row' hrow')
    | insert => cases hat

theorem created_eq_nil_iff (hsound : Sound table) (items : List ItemInput) :
    (addLoop env ctx now table items).result.created = [] ↔ Listed env ctx table items := by
  constructor
  · intro hnil before item after heq hfirst
    by_contra hnot
    simp only [not_or, not_exists, not_and] at hnot
    have hinv : LoopInv env ctx table items (addLoop env ctx now table items) := loopInv_addLoop hsound items
    obtain ⟨row, hrow, hop⟩ := hinv.ops before item after heq ⟨hnot.1, hfirst⟩
    rw [hinv.rows, hnil, List.append_nil] at hrow
    exact hnot.2 row hrow hop
  · intro hlisted
    refine List.eq_nil_iff_forall_not_mem.2 fun row hrow => ?_
    obtain ⟨-, -, a, x, b, heq, hfresh, -, -, hnone⟩ := (loopInv_addLoop hsound items).created row hrow
    rcases hlisted a x b heq hfresh.2 with hpending | ⟨row', hrow', hop⟩
    · exact hfresh.1 hpending
    · exact hnone row' hrow' hop

/-- What the first call created is created because the step has no row for it. -/
theorem outcomeAt_created (hsound : Sound table) (h : outcomeAt env ctx now table before item = some (.created row)) :
    Fresh env table before item ∧ row.operationId = some (itemOperationId env ctx item) ∧
      ∀ row' ∈ table.rows, row'.operationId ≠ some (itemOperationId env ctx item) := by
  have hinv : LoopInv env ctx table before (addLoop env ctx now table before) := loopInv_addLoop hsound before
  have hturn : Turn env ctx now table before _ item _ := turnAt hsound before item
  rw [outcomeAt] at h
  generalize addOne env ctx now table (addLoop env ctx now table before) item = one at hturn h
  cases hturn with
  | pending => split at h <;> cases h
  | inBatch => cases h
  | conflict => cases h
  | insert hfresh hnew =>
    cases h
    refine ⟨hfresh, rfl, fun row' hrow' => hnew row' ?_⟩
    rw [hinv.rows]
    exact List.mem_append_left _ hrow'

theorem outcomeAt_of_fresh (hsound : Sound table) {after : List ItemInput}
    (hapart : LemmasApart env ctx table items) (heq : items = before ++ item :: after)
    (hfresh : Fresh env table before item)
    (hnone : ∀ row ∈ table.rows, row.operationId ≠ some (itemOperationId env ctx item)) :
    ∃ row, outcomeAt env ctx now table before item = some (.created row) := by
  have hinv : LoopInv env ctx table before (addLoop env ctx now table before) := loopInv_addLoop hsound before
  have hturn : Turn env ctx now table before _ item _ := turnAt hsound before item
  rw [outcomeAt]
  generalize addOne env ctx now table (addLoop env ctx now table before) item = one at hturn
  cases hturn with
  | pending hpending =>
    obtain ⟨hmem, hstatus, hnorm⟩ := pendingByTitle_eq_some hpending
    exact absurd (mem_pendingTitles.2 ⟨_, hmem, hstatus, hnorm⟩) hfresh.1
  | inBatch _ hmem hnorm => exact absurd hnorm (hfresh.2 _ hmem)
  | conflict _ hmem hop =>
    rw [hinv.rows] at hmem
    rcases List.mem_append.1 hmem with hmem | hmem
    · exact absurd hop (hnone _ hmem)
    · obtain ⟨-, -, a, x, b, rfl, hx, -, hopx, hnonex⟩ := hinv.created _ hmem
      have hkey := itemOperationId_inj.1 (Option.some_inj.1 (hopx.symm.trans hop))
      obtain ⟨row', hrow', hop'⟩ := hapart a x b item after (by rw [heq]; simp) hx hfresh hkey
      exact absurd hop' (hnonex row' hrow')
  | insert => exact ⟨_, rfl⟩

/-- What a later call reports of an item whose row is pending. -/
theorem outcomeAt_replayed_iff (hsound : Sound table)
    (hfirst : ∀ x ∈ before, normaliseTitle env x.title ≠ normaliseTitle env item.title) (hrow : row ∈ table.rows)
    (hop : row.operationId = some (itemOperationId env ctx item)) :
    outcomeAt env ctx now table before item = some (.replayed row) ↔
      ∀ first, pendingByTitle env table (normaliseTitle env item.title) = some first → first = row := by
  have hinv : LoopInv env ctx table before (addLoop env ctx now table before) := loopInv_addLoop hsound before
  have hturn : Turn env ctx now table before _ item _ := turnAt hsound before item
  have hmem : row ∈ (addLoop env ctx now table before).table.rows := by
    rw [hinv.rows]
    exact List.mem_append_left _ hrow
  rw [outcomeAt]
  generalize addOne env ctx now table (addLoop env ctx now table before) item = one at hturn
  cases hturn with
  | @pending existing hpending =>
    simp only [hpending, Option.some_inj, forall_eq']
    split
    · simp
    · rename_i hnot
      constructor
      · intro h
        cases h
      · rintro rfl
        exact absurd hop hnot
  | inBatch _ hx heq => exact absurd heq (hfirst _ hx)
  | @conflict other hfresh hother hop' =>
    rw [hinv.sound.op_inj other hother row hmem _ hop' hop, pendingByTitle_eq_none.2 hfresh.1]
    simp
  | insert _ hnew => exact absurd hop (hnew row hmem)

theorem stillReplayed_iff {later : ShoppingTable} {now' : ℤ} (hsound : Sound table) (hlater : Sound later)
    (hapart : LemmasApart env ctx table items) :
    (∀ before item after, items = before ++ item :: after → ∀ row row',
        outcomeAt env ctx now table before item = some (.created row) → row' ∈ later.rows →
        row'.operationId = row.operationId → row'.status = .pending →
        outcomeAt env ctx now' later before item = some (.replayed row')) ↔
      OwnFirst env ctx table items later := by
  constructor
  · intro h before item after heq hfresh hnone row hrow hop hstatus
    obtain ⟨created, hcreated⟩ : ∃ row, outcomeAt env ctx now table before item = some (.created row) :=
      outcomeAt_of_fresh hsound hapart heq hfresh hnone
    have hop' := (outcomeAt_created hsound hcreated).2.1
    have hat := h before item after heq created row hcreated hrow (hop.trans hop'.symm) hstatus
    exact (outcomeAt_replayed_iff hlater hfresh.2 hrow hop).1 hat
  · intro h before item after heq row row' hcreated hrow' hoper hstatus
    obtain ⟨hfresh, hop, hnone⟩ := outcomeAt_created hsound hcreated
    exact (outcomeAt_replayed_iff hlater hfresh.2 hrow' (hoper.trans hop)).2
      (h before item after heq hfresh hnone row' hrow' (hoper.trans hop) hstatus)

/-- The first item with a normal form is the only first one. -/
theorem first_unique {a b after : List ItemInput} (h : a ++ x :: b = before ++ item :: after)
    (hx : ∀ y ∈ a, normaliseTitle env y.title ≠ normaliseTitle env x.title)
    (hitem : ∀ y ∈ before, normaliseTitle env y.title ≠ normaliseTitle env item.title)
    (heq : normaliseTitle env x.title = normaliseTitle env item.title) : a = before ∧ x = item := by
  rcases List.append_eq_append_iff.1 h with ⟨c, rfl, hc⟩ | ⟨c, rfl, hc⟩
  · cases c with
    | nil =>
      rw [List.nil_append, List.cons.injEq] at hc
      exact ⟨by simp, hc.1⟩
    | cons y c =>
      rw [List.cons_append, List.cons.injEq] at hc
      exact absurd (hc.1 ▸ heq) (hitem y (by simp))
  · cases c with
    | nil =>
      rw [List.nil_append, List.cons.injEq] at hc
      exact ⟨by simp, hc.1.symm⟩
    | cons y c =>
      rw [List.cons_append, List.cons.injEq] at hc
      exact absurd (hc.1 ▸ heq.symm) (hx y (by simp))

/-- **A call that is repeated at once** finds each title pending or its row, and its own row first. -/
theorem repeatable_self (hsound : Sound table) (items : List ItemInput) :
    Listed env ctx (addLoop env ctx now table items).table items ∧
      OwnFirst env ctx table items (addLoop env ctx now table items).table := by
  have hinv : LoopInv env ctx table items (addLoop env ctx now table items) := loopInv_addLoop hsound items
  constructor
  · intro before item after heq hfirst
    by_cases hpending : normaliseTitle env item.title ∈ pendingTitles env table
    · obtain ⟨row, hrow, hstatus, hnorm⟩ := mem_pendingTitles.1 hpending
      refine .inl (mem_pendingTitles.2 ⟨row, ?_, hstatus, hnorm⟩)
      rw [hinv.rows]
      exact List.mem_append_left _ hrow
    · exact .inr (hinv.ops before item after heq ⟨hpending, hfirst⟩)
  · intro before item after heq hfresh hnone row hrow hop hstatus first hpending
    obtain ⟨hmem, hstatus', hnorm⟩ := pendingByTitle_eq_some hpending
    have hmem' := hmem
    rw [hinv.rows] at hmem'
    rcases List.mem_append.1 hmem' with hold | hnew
    · exact absurd (mem_pendingTitles.2 ⟨first, hold, hstatus', hnorm⟩) hfresh.1
    · obtain ⟨-, -, a, x, b, hsplit, hx, htitle, hopx, -⟩ := hinv.created first hnew
      rw [htitle] at hnorm
      obtain ⟨-, rfl⟩ := first_unique (hsplit.symm.trans heq) hx.2 hfresh.2 hnorm
      exact hinv.sound.op_inj first hmem row hrow _ hopx hop

/-- The report of a call and of the same call repeated later is right. -/
structure Accountable (env : ShoppingEnv) (as : List ShoppingEvent) (ctx : StepContext) (now now' : ℤ)
    (table later : ShoppingTable) (items : List ItemInput) (result result' : AddItemsResult) : Prop where
  /-- Every accepted item has one outcome. -/
  accounted : Accounted env ctx now table items result
  /-- What is reported as replayed was inserted by an earlier call of the step. -/
  replayed : ∀ row ∈ result.replayed, InsertedBefore as ctx row
  /-- The inserted rows have different titles. -/
  titles : (result.created.map fun row => normaliseTitle env row.title).Nodup
  /-- The repeated call inserts nothing. -/
  noneCreated : result'.created = []
  /-- What the first call inserted is reported as replayed while its row is pending. -/
  stillReplayed : ∀ before item after, items = before ++ item :: after → ∀ row row',
    outcomeAt env ctx now table before item = some (.created row) → row' ∈ later.rows →
    row'.operationId = row.operationId → row'.status = .pending →
    outcomeAt env ctx now' later before item = some (.replayed row')

theorem addItemsDetailed_eq {tenantId : Text} {items : List RawItem} {result : AddItemsResult} {after : ShoppingTable}
    (h : addItemsDetailed env now (some ctx) tenantId table items = some (result, after)) :
    result = (addLoop env ctx now table (accepted items)).result ∧
      after = (addLoop env ctx now table (accepted items)).table := by
  simp only [addItemsDetailed] at h
  split at h
  · cases h
  · cases h
    exact ⟨rfl, rfl⟩

/-- **When the report of a call is right**: exactly when titles of the batch that are different have
different lemmatised forms and, for the repeated call, each title is pending or has its row, which is
the first that is pending with its title. -/
theorem addItems_accountable_iff {as bs : List ShoppingEvent} (tenantId : Text) {items : List RawItem}
    {after later final : ShoppingTable} {result result' : AddItemsResult} {now' : ℤ}
    (hist : (shoppingSystem env).Hist as table)
    (hcall : addItemsDetailed env now (some ctx) tenantId table items = some (result, after))
    (hlater : (shoppingSystem env).Run after bs later)
    (hagain : addItemsDetailed env now' (some ctx) tenantId later items = some (result', final)) :
    Accountable env as ctx now now' table later (accepted items) result result' ↔
      LemmasApart env ctx table (accepted items) ∧ Listed env ctx later (accepted items) ∧
        OwnFirst env ctx table (accepted items) later := by
  obtain ⟨rfl, rfl⟩ := addItemsDetailed_eq hcall
  obtain ⟨rfl, -⟩ := addItemsDetailed_eq hagain
  have hknown := known_of_hist hist
  have hstep : (shoppingSystem env).step table (.add ctx.executionId ctx.stepId
      ((addLoop env ctx now table (accepted items)).result.created.map ShoppingRow.id))
      (addLoop env ctx now table (accepted items)).table := ⟨ctx, now, accepted items, rfl, rfl, rfl, rfl⟩
  have hsound : Sound later := (known_of_hist ((hist.snoc hstep).trans hlater)).sound
  constructor
  · rintro ⟨-, hreplayed, -, hnone, hstill⟩
    have hapart := (replayed_iff hknown _).1 hreplayed
    exact ⟨hapart, (created_eq_nil_iff hsound _).1 hnone, (stillReplayed_iff hknown.sound hsound hapart).1 hstill⟩
  · rintro ⟨hapart, hlisted, hown⟩
    exact ⟨accounted_addLoop hknown.sound _, (replayed_iff hknown _).2 hapart,
      (loopInv_addLoop hknown.sound _).titles, (created_eq_nil_iff hsound _).2 hlisted,
      (stillReplayed_iff hknown.sound hsound hapart).2 hown⟩

/-- One pair of word forms. -/
def milkEnv : ShoppingEnv where
  nfc t := t
  lower := lower
  lemmatizeWord w := if w = "молока".toList then "молоко".toList else w
  guessCategory _ := "молочные".toList
  normalizedTitleHash t := t
  order rows := rows
  order_perm _ := .refl _

def milkStep : StepContext := ⟨"exec_1".toList, "s1".toList, []⟩

def milk (titles : List String) : List RawItem := titles.map fun t => .dict (some t.toList) none none none

/-- One title, added to an empty list and once more. -/
theorem accountable_milk :
    Accountable milkEnv [] milkStep 0 0 ⟨[], 0⟩ (addLoop milkEnv milkStep 0 ⟨[], 0⟩ (accepted (milk ["молоко"]))).table
      (accepted (milk ["молоко"])) (addLoop milkEnv milkStep 0 ⟨[], 0⟩ (accepted (milk ["молоко"]))).result
      (addLoop milkEnv milkStep 0 (addLoop milkEnv milkStep 0 ⟨[], 0⟩ (accepted (milk ["молоко"]))).table
        (accepted (milk ["молоко"]))).result := by
  have hsound : Sound ⟨[], 0⟩ := by constructor <;> simp
  have hinit : (shoppingSystem milkEnv).init ⟨[], 0⟩ := ⟨hsound, by simp⟩
  refine (addItems_accountable_iff [] (Lib.Lts.Hist.init hinit) rfl (.nil _) rfl).2 ⟨?_, repeatable_self hsound _⟩
  intro before x between y after heq
  have hlen := congrArg List.length heq
  have hone : (accepted (milk ["молоко"])).length = 1 := rfl
  rw [hone] at hlen
  simp only [List.length_append, List.length_cons] at hlen
  omega

/-- Two forms of one word: the second is reported as replayed, and no call came before. -/
theorem not_replayed_forms :
    ∃ result after, addItemsDetailed milkEnv 0 (some milkStep) [] ⟨[], 0⟩ (milk ["молоко", "молока"]) = some (result, after) ∧
      result.created.map ShoppingRow.title = ["молоко".toList] ∧ result.replayed = result.created ∧
      ¬ ∀ row ∈ result.replayed, InsertedBefore [] milkStep row := by
  refine ⟨_, _, rfl, by decide, by decide, fun h => ?_⟩
  obtain ⟨created, hmem, -⟩ := h _ (List.mem_singleton_self _)
  cases hmem

end Sreda.Housewife.Shopping
