import Sreda.Housewife.Rows
import Sreda.Services.Tasks

/-!
# Checklists

`services/checklists.py`, `ChecklistService`: the operations that create, change and delete checklists
and their items. A list is deleted together with its items. Inside a turn `create_list` writes two
keys on the new row; how they are made is a parameter, and so is `str.lower`.

A call that raises commits nothing. `create_list_no_commit` and `add_items_no_commit` leave the commit
to the caller; a call whose caller rolls back is no call.

Left out: the status and the notes of an item, the embeddings, and the lookups by a part of a title.
-/

namespace Sreda.Services

open Sreda.Lib
open Sreda.Lib.PyText (Text strip digits)
open Sreda.Housewife (words joinWords normalise)

/-! ### The tables -/

/-- `CHECKLIST_STATUSES`. -/
inductive ChecklistStatus where
  | active | archived
  deriving DecidableEq

/-- `Checklist`. -/
structure Checklist where
  id : String
  tenantId : String
  userId : String
  title : Text
  status : ChecklistStatus := .active
  createdAt : ℤ
  updatedAt : ℤ
  operationId : Option String := none
  normalizedTitleHash : Option String := none
  deriving DecidableEq

/-- The entry of a list in `ix_checklists_operation_id`. -/
def Checklist.operation (list : Checklist) : Option (String × String × String) :=
  list.operationId.map fun operationId => (list.tenantId, list.userId, operationId)

/-- `ChecklistItem`. -/
structure ChecklistItem where
  id : String
  checklistId : String
  tenantId : String
  position : ℤ
  title : Text
  createdAt : ℤ
  updatedAt : ℤ
  deriving DecidableEq

/-- The checklists of everybody. -/
structure ChecklistDb where
  lists : Indexed Checklist.id Checklist.operation
  items : Keyed ChecklistItem.id

/-- The items of a list. -/
def ChecklistDb.itemsOf (db : ChecklistDb) (listId : String) : List ChecklistItem :=
  db.items.rows.filter (·.checklistId = listId)

/-- The keys that `create_list` writes inside a turn. -/
structure ChecklistKeys where
  /-- `compute_operation_id_create`: of a plan, a step and a title. -/
  operation : String → String → Text → String
  /-- `compute_normalized_title_hash`: of a title, a tenant and a user. -/
  titleHash : Text → String → String → String

/-- What a call finds around it. -/
structure ChecklistEnv where
  now : ℤ
  /-- `current_tool_runtime()`. -/
  ctx : Option ToolRuntimeContext := none
  /-- The database checks the length of `String(200)`, as Postgres does and SQLite does not. -/
  checksLength : Bool := true

/-- What a call raises. -/
inductive ChecklistError where
  /-- `title required` -/
  | titleRequired
  /-- `create_list ctx path: user_id обязателен (fail-closed).` -/
  | userRequired
  /-- `create_list ctx path: ctx.tenant_id=… != tenant_id=… — leak across tenant.` -/
  | tenantLeak
  /-- `create_list_no_commit: cannot find unique title after 1000 suffix attempts …` -/
  | noUniqueTitle
  /-- `checklist … not found` -/
  | notFound
  /-- `IntegrityError`. -/
  | integrity
  /-- `DataError`. -/
  | tooLong
  deriving DecidableEq

variable (lower : Text → Text) (K : ChecklistKeys) (env : ChecklistEnv)

/-- `_normalise_title`. -/
def normaliseTitle (title : Text) : Text := joinWords (words (lower title))

/-! ### Creating a list -/

/-- The normal form under which an active list of a user is found. -/
def Checklist.activeTitle (list : Checklist) : Option (String × String × Text) :=
  if list.status = .active then some (list.tenantId, list.userId, normaliseTitle lower list.title) else none

/-- The active list of the user with the normal form. -/
def findByTitle (db : ChecklistDb) (tenantId userId : String) (norm : Text) : Option Checklist :=
  db.lists.rows.rows.find? fun list => list.activeTitle lower = some (tenantId, userId, norm)

/-- `INSERT` and `COMMIT`. -/
def ChecklistDb.insertList (db : ChecklistDb) (list : Checklist) : Except ChecklistError (Checklist × ChecklistDb) :=
  if env.checksLength ∧ 200 < list.title.length then .error .tooLong
  else
    match (db.lists.rows.insert? list).bind Indexed.commit? with
    | none => .error .integrity
    | some lists => .ok (list, { db with lists })

/-- The row of a new list. -/
def newList (id tenantId userId : String) (title : Text) (operationId normalizedTitleHash : Option String) :
    Checklist where
  id := id
  tenantId := tenantId
  userId := userId
  title := title
  createdAt := env.now
  updatedAt := env.now
  operationId := operationId
  normalizedTitleHash := normalizedTitleHash

/-- `create_list`; `id` is the fresh one. Returns the new list, or one that is there. -/
def createList (db : ChecklistDb) (id tenantId userId : String) (title : Text) :
    Except ChecklistError (Checklist × ChecklistDb) :=
  if strip title = [] then .error .titleRequired
  else
    let clean := normalise 200 title
    match findByTitle lower db tenantId userId (normaliseTitle lower clean) with
    | some list => .ok (list, db)
    | none =>
      match env.ctx with
      | none => db.insertList env (newList env id tenantId userId clean none none)
      | some ctx =>
        if userId = "" then .error .userRequired
        else if ctx.tenantId ≠ "" ∧ ctx.tenantId ≠ tenantId then .error .tenantLeak
        else
          let operationId := K.operation ctx.executionId ctx.stepId clean
          -- an empty hash stands for none
          let hash := truthy (some (K.titleHash clean tenantId userId))
          match db.lists.rows.rows.find? fun list => list.operation = some (tenantId, userId, operationId) with
          | some list => .ok (list, db)
          | none =>
            match db.lists.rows.rows.find? fun list => list.tenantId = tenantId ∧ list.userId = userId ∧
              list.status = .active ∧ hash.isSome ∧ list.normalizedTitleHash = hash with
            | some list => .ok (list, db)
            | none => db.insertList env (newList env id tenantId userId clean (some operationId) hash)

/-- `f"{clean} ({n})"`. -/
def suffixed (clean : Text) (n : ℕ) : Text := clean ++ " (".toList ++ digits n ++ ")".toList

/-- The title that `create_list_no_commit` gives to a list that has to be new. -/
def uniqueTitle (db : ChecklistDb) (tenantId userId : String) (clean : Text) : Option Text :=
  (clean :: (List.range' 2 998).map (suffixed clean)).find? fun title =>
    (findByTitle lower db tenantId userId (normaliseTitle lower title)).isNone

/-- `create_list_no_commit`. -/
def createListNoCommit (db : ChecklistDb) (id tenantId userId : String) (title : Text) (forceNew : Bool) :
    Except ChecklistError (Checklist × ChecklistDb) :=
  if strip title = [] then .error .titleRequired
  else
    let clean := normalise 200 title
    if forceNew then
      match uniqueTitle lower db tenantId userId clean with
      | none => .error .noUniqueTitle
      | some title => db.insertList env (newList env id tenantId userId title none none)
    else
      match findByTitle lower db tenantId userId (normaliseTitle lower clean) with
      | some list => .ok (list, db)
      | none => db.insertList env (newList env id tenantId userId clean none none)

/-! ### Adding items -/

/-- The titles of a batch whose normal form is neither known nor that of an earlier title, and the
others. -/
def splitNew (known : List Text) : List Text → List Text × List Text
  | [] => ([], [])
  | title :: rest =>
    if normaliseTitle lower title ∈ known then
      let (fresh, skipped) := splitNew known rest
      (fresh, title :: skipped)
    else
      let (fresh, skipped) := splitNew (normaliseTitle lower title :: known) rest
      (title :: fresh, skipped)

/-- The normal forms of the items of a list. -/
def ChecklistDb.itemNorms (db : ChecklistDb) (listId : String) : List Text :=
  (db.itemsOf listId).map fun item => normaliseTitle lower item.title

/-- The position after the last one. -/
def ChecklistDb.nextPosition (db : ChecklistDb) (listId : String) : ℤ :=
  ((db.itemsOf listId).map (·.position)).max?.getD (-1) + 1

/-- The texts of a batch that are not blank. -/
def cleanTexts (items : List Text) : List Text := (items.map strip).filter (· ≠ [])

/-- The rows of new items, from a position on. -/
def newItems (parent : Checklist) (newId : ℕ → String) (position : ℤ) (titles : List Text) : List ChecklistItem :=
  titles.zipIdx.map fun (title, offset) =>
    { id := newId offset, checklistId := parent.id, tenantId := parent.tenantId, position := position + offset,
      title := title, createdAt := env.now, updatedAt := env.now }

/-- The `INSERT`s. -/
def ChecklistDb.insertItems (db : ChecklistDb) (items : List ChecklistItem) (skipped : List Text) :
    Except ChecklistError ((List ChecklistItem × List Text) × ChecklistDb) :=
  match db.items.insertAll? items with
  | none => .error .integrity
  | some rows => .ok ((items, skipped), { db with items := rows })

/-- `add_items`: the titles are compared before they are cut. `newId` gives the fresh ids. -/
def addItems (db : ChecklistDb) (listId : String) (newId : ℕ → String) (items : List Text) :
    Except ChecklistError ((List ChecklistItem × List Text) × ChecklistDb) :=
  let (fresh, skipped) := splitNew lower (db.itemNorms lower listId) (cleanTexts items)
  if fresh = [] then .ok (([], skipped), db)
  else
    match db.lists.get? listId with
    -- an item has a parent
    | none => .error .integrity
    | some parent =>
      db.insertItems (newItems env parent newId (db.nextPosition listId) (fresh.map (·.take 1000))) skipped

/-- `cl.updated_at = now`. -/
def ChecklistDb.touchList (db : ChecklistDb) (listId : String) : ChecklistDb :=
  { db with
    lists := db.lists.retire (·.id = listId) (fun list => { list with updatedAt := env.now }) (fun _ => rfl)
      fun _ => .inr rfl }

/-- `add_items_no_commit`: the titles are cut before they are compared. -/
def addItemsNoCommit (db : ChecklistDb) (listId : String) (newId : ℕ → String) (items : List Text) :
    Except ChecklistError ((List ChecklistItem × List Text) × ChecklistDb) :=
  match db.lists.get? listId with
  | none => .error .notFound
  | some parent =>
    let cleaned := (cleanTexts items).map (·.take 200)
    if cleaned = [] then .ok (([], []), db)
    else
      let (fresh, skipped) := splitNew lower (db.itemNorms lower listId) cleaned
      (db.touchList env listId).insertItems (newItems env parent newId (db.nextPosition listId) fresh) skipped

/-! ### Changing and deleting -/

/-- `_owned_active_item_exists`: the list of the item is active, and the user's. -/
def ChecklistDb.ownedActive (db : ChecklistDb) (tenantId userId : String) (item : ChecklistItem) : Bool :=
  db.lists.rows.rows.any fun list =>
    list.id = item.checklistId && list.tenantId = tenantId && list.userId = userId && list.status = .active

/-- The item under a new title. -/
def ChecklistItem.rename (now : ℤ) (title : Text) (item : ChecklistItem) : ChecklistItem :=
  { item with title := title, updatedAt := now }

theorem ChecklistItem.id_rename (now : ℤ) (title : Text) (item : ChecklistItem) : (item.rename now title).id = item.id :=
  rfl

/-- `update_owned_item`. -/
def updateOwnedItem (db : ChecklistDb) (itemId tenantId userId : String) (newTitle : Text) :
    Option (String × Text) × ChecklistDb :=
  if strip newTitle = [] then (none, db)
  else
    let clean := normalise 1000 newTitle
    (((db.items.get? itemId).filter (db.ownedActive tenantId userId)).map fun item => (item.id, clean),
      { db with
        items := db.items.update (fun item => item.id = itemId && db.ownedActive tenantId userId item)
          (ChecklistItem.rename env.now clean) (ChecklistItem.id_rename env.now clean) })

/-- `delete_item`. -/
def deleteItem (db : ChecklistDb) (itemId : String) : Bool × ChecklistDb :=
  ((db.items.get? itemId).isSome, { db with items := db.items.delete (·.id = itemId) })

/-- `delete_owned_item`. -/
def deleteOwnedItem (db : ChecklistDb) (itemId tenantId userId : String) : Option (String × Text) × ChecklistDb :=
  (((db.items.get? itemId).filter (db.ownedActive tenantId userId)).map fun item => (item.id, item.title),
    { db with items := db.items.delete fun item => item.id = itemId && db.ownedActive tenantId userId item })

/-- `_get_owned`. -/
def getOwned (db : ChecklistDb) (tenantId userId listId : String) : Option Checklist :=
  (db.lists.get? listId).filter fun list => list.tenantId = tenantId && list.userId = userId

/-- `archive_list`. -/
def archiveList (db : ChecklistDb) (tenantId userId listId : String) : Option Checklist × ChecklistDb :=
  match getOwned db tenantId userId listId with
  | none => (none, db)
  | some list =>
    (some { list with status := .archived, updatedAt := env.now },
      { db with
        lists := db.lists.retire (·.id = listId) (fun list => { list with status := .archived, updatedAt := env.now })
          (fun _ => rfl) fun _ => .inr rfl })

/-- `delete_list`. -/
def deleteList (db : ChecklistDb) (tenantId userId listId : String) : Bool × ChecklistDb :=
  match getOwned db tenantId userId listId with
  | none => (false, db)
  | some _ => (true, ⟨db.lists.delete (·.id = listId), db.items.delete (·.checklistId = listId)⟩)

end Sreda.Services
