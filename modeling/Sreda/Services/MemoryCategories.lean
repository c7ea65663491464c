import Mathlib.Data.Fintype.Basic
import Mathlib.Data.Int.Notation
import Mathlib.Logic.Function.Basic
import Sreda.Housewife.Rows
import Sreda.Lib.Keyed
import Sreda.Lib.Transition

/-!
# Memory categories

`memory_categories` and `assistant_memories` (`db/models/memory.py`), and the operations of `MemoryRepository`
(`db/repositories/memory.py`), each in a transaction of its own. Statements are atomic and read what is committed. A write
and the commit behind it are one step: what is written is locked until then, and nobody else reads it. `SELECT … FOR UPDATE`
holds the row of a category against every write that needs it.

The ids of categories are never used twice. What is left out: embeddings and times, the tables of tenants and of users.

## What is proved

* in every run a user has one Common at most, nobody else carries its name, a fact lies in a category of its own user, and a
  deletion takes the category with the number of facts that was confirmed, or nothing; the names of a user differ in their
  normal forms as long as no rename that keeps the normal form it has read comes after another (`memory_runs`).
  `renamed_twice` is a run in which one does.
-/

namespace Sreda.Services

open Sreda.Lib
open Sreda.Lib.PyText (Text strip rstripWhile)

/-! ### Names -/

/-- What `normalize_for_dedup` takes from the libraries. -/
structure Morphology where
  /-- `unicodedata.normalize("NFC", …)`. -/
  nfc : Text → Text
  /-- `str.lower`. -/
  lower : Text → Text
  /-- `_lemmatize_word`: the first parse of `pymorphy3`. -/
  lemmatizeWord : Text → Text

/-- `_BOUNDARY_PUNCT`. -/
def boundaryPunct : Text := "!\"#$%&'()*+,-./:;<=>?@[\\]^_`\x7b|\x7d~ \t\r\n".toList

/-- `text.strip(_BOUNDARY_PUNCT)`. -/
def stripPunct (text : Text) : Text :=
  rstripWhile (boundaryPunct.contains ·) (text.dropWhile (boundaryPunct.contains ·))

/-- `text.replace("ё", "е")`. -/
def foldYo (text : Text) : Text := text.map fun c => if c = 'ё' then 'е' else c

/-- `normalize_for_dedup`. -/
def normalizeForDedup (lib : Morphology) (title : String) : String :=
  if title = "" then ""
  else
    let text := stripPunct (foldYo (lib.lower (lib.nfc title.toList)))
    let words := ((Housewife.words text).map stripPunct).filter (· ≠ [])
    String.ofList (foldYo (Housewife.joinWords (words.map lib.lemmatizeWord)))

def commonSlug : String := "common"
def commonDisplayName : String := "Общее"

/-- `COMMON_NAME_NORMALIZED`. -/
def commonNameNormalized (lib : Morphology) : String := normalizeForDedup lib commonDisplayName

/-! ### The tables -/

/-- A tenant and one of its users. -/
structure MemoryScope where
  tenantId : String
  userId : String
  deriving DecidableEq

/-- `MemoryCategory`. -/
structure MemoryCategory where
  id : String
  scope : MemoryScope
  slug : Option String
  name : String
  nameNormalized : String
  isSystem : Bool
  deriving DecidableEq

/-- `AssistantMemory`. -/
structure AssistantMemory where
  id : String
  scope : MemoryScope
  tier : String
  content : String
  source : String
  categoryId : String
  deriving DecidableEq

/-- The unique indexes and the foreign key. -/
structure MemoryIntegrity (categories : List MemoryCategory) (memories : List AssistantMemory) : Prop where
  /-- `uq_memory_categories_name`. -/
  name : (categories.map fun category => (category.scope, category.nameNormalized)).Nodup
  /-- `uq_memory_categories_one_system`. -/
  oneSystem : ((categories.filter (·.isSystem)).map (·.scope)).Nodup
  /-- `fk_assistant_memories_category`. -/
  category : ∀ memory ∈ memories, ∃ category ∈ categories, category.id = memory.categoryId ∧ category.scope = memory.scope

instance (categories : List MemoryCategory) (memories : List AssistantMemory) :
    Decidable (MemoryIntegrity categories memories) :=
  decidable_of_iff
    ((categories.map fun category => (category.scope, category.nameNormalized)).Nodup ∧
      ((categories.filter (·.isSystem)).map (·.scope)).Nodup ∧
      ∀ memory ∈ memories, ∃ category ∈ categories, category.id = memory.categoryId ∧ category.scope = memory.scope)
    ⟨fun h => ⟨h.1, h.2.1, h.2.2⟩, fun h => ⟨h.name, h.oneSystem, h.category⟩⟩

/-- The two tables. -/
structure MemoryDb where
  categories : Keyed MemoryCategory.id
  memories : Keyed AssistantMemory.id
  integrity : MemoryIntegrity categories.rows memories.rows

namespace MemoryDb

variable (lib : Morphology) (db : MemoryDb)

/-- The tables after a write: nothing when they refuse it. -/
def commit? (categories : Keyed MemoryCategory.id) (memories : Keyed AssistantMemory.id) : Option MemoryDb :=
  if h : MemoryIntegrity categories.rows memories.rows then some ⟨categories, memories, h⟩ else none

/-- `_find_common`. -/
def findCommon (scope : MemoryScope) : Option MemoryCategory :=
  db.categories.rows.find? fun category => category.scope = scope ∧ category.isSystem ∧ category.slug = some commonSlug

/-- `_own_category`. -/
def ownCategory (scope : MemoryScope) (categoryId : String) : Option MemoryCategory :=
  (db.categories.get? categoryId).filter (·.scope = scope)

/-- `_own_memory`. -/
def ownMemory (scope : MemoryScope) (memoryId : String) : Option AssistantMemory :=
  (db.memories.get? memoryId).filter (·.scope = scope)

/-- `INSERT` of a category. -/
def insertCategory (category : MemoryCategory) : Option MemoryDb :=
  (db.categories.insert? category).bind fun categories => commit? categories db.memories

/-- `INSERT` of a fact. -/
def insertMemory (memory : AssistantMemory) : Option MemoryDb :=
  (db.memories.insert? memory).bind fun memories => commit? db.categories memories

/-- The columns that the session has changed in a category. -/
structure NameChange where
  name : Option String
  nameNormalized : Option String

/-- The category with these columns set. -/
def NameChange.apply (change : NameChange) (category : MemoryCategory) : MemoryCategory :=
  { category with
    name := change.name.getD category.name, nameNormalized := change.nameNormalized.getD category.nameNormalized }

theorem NameChange.id_apply (change : NameChange) (category : MemoryCategory) : (change.apply category).id = category.id := rfl

theorem NameChange.scope_apply (change : NameChange) (category : MemoryCategory) :
    (change.apply category).scope = category.scope := rfl

theorem NameChange.isSystem_apply (change : NameChange) (category : MemoryCategory) :
    (change.apply category).isSystem = category.isSystem := rfl

/-- Nothing has changed. -/
def NameChange.IsEmpty (change : NameChange) : Prop := change.name = none ∧ change.nameNormalized = none

instance (change : NameChange) : Decidable change.IsEmpty := inferInstanceAs (Decidable (_ ∧ _))

/-- `UPDATE memory_categories SET … WHERE id = …`. -/
def updateCategory (categoryId : String) (change : NameChange) : Option MemoryDb :=
  commit? (db.categories.update (·.id = categoryId) change.apply change.id_apply) db.memories

/-- `DELETE` of a fact. -/
def deleteMemory (scope : MemoryScope) (memoryId : String) : MemoryDb where
  categories := db.categories
  memories := db.memories.delete fun memory => memory.id = memoryId ∧ memory.scope = scope
  integrity := ⟨db.integrity.name, db.integrity.oneSystem,
    fun memory hmem => db.integrity.category memory (List.mem_filter.mp hmem).1⟩

/-- `UPDATE assistant_memories SET category_id = … WHERE id = …`. -/
def updateMemory (memoryId categoryId : String) : Option MemoryDb :=
  commit? db.categories (db.memories.update (·.id = memoryId) (fun memory => { memory with categoryId }) fun _ => rfl)

end MemoryDb

/-! ### The operations -/

/-- A call of the repository. -/
inductive MemoryCall where
  | ensureCommon (scope : MemoryScope)
  | createCategory (scope : MemoryScope) (name : String)
  | renameCategory (scope : MemoryScope) (categoryId name : String)
  | moveMemory (scope : MemoryScope) (memoryId targetCategoryId : String)
  | save (scope : MemoryScope) (tier content source : String) (categoryId : Option String)
  | deleteMemory (scope : MemoryScope) (memoryId : String)
  | deleteCategory (scope : MemoryScope) (categoryId : String) (confirmCount : ℤ)
  deriving DecidableEq

/-- What a call returns or raises. -/
inductive MemoryOutcome where
  | category (id : String)
  | memory (id : String)
  | memoryDeleted (deleted : Bool)
  | categoryDeleted (facts : ℕ)
  /-- It returns `None`. -/
  | missing
  | valueError (message : String)
  /-- `ValueError(f"unknown tier: {tier!r}")`. -/
  | unknownTier (tier : String)
  /-- `ValueError(f"unknown source: {source!r}")`. -/
  | unknownSource (source : String)
  | categoryNameConflict (name : String)
  | categoryNotFound (categoryId : String)
  | categoryImmutable (message : String)
  | categoryConfirmMismatch (expected : ℕ) (given : ℤ)
  | integrityError
  /-- An `UPDATE` or a `DELETE` of a row that is gone. -/
  | staleDataError
  /-- Anything else has failed. -/
  | failed
  deriving DecidableEq

def memoryTiers : List String := ["core", "episodic"]
def memorySources : List String := ["user_direct", "agent_inferred", "system"]

/-- The Common that `ensure_common` inserts. -/
def commonCategory (lib : Morphology) (scope : MemoryScope) (id : String) : MemoryCategory where
  id := id
  scope := scope
  slug := some commonSlug
  name := commonDisplayName
  nameNormalized := commonNameNormalized lib
  isSystem := true

/-- The category that `create_category` inserts. -/
def newCategory (scope : MemoryScope) (id name nameNormalized : String) : MemoryCategory where
  id := id
  scope := scope
  slug := none
  name := name
  nameNormalized := nameNormalized
  isSystem := false

/-- `(name or "").strip()`. -/
def displayName (name : String) : String := String.ofList (strip name.toList)

/-- The checks of a new name: what they raise. -/
def checkName (lib : Morphology) (name : String) : Option MemoryOutcome :=
  let norm := normalizeForDedup lib (displayName name)
  if norm = "" then some (.valueError "category name cannot be empty")
  else if norm = commonNameNormalized lib then some (.categoryNameConflict (displayName name))
  else none

/-- The columns that `rename_category` changes in a category as it has read it. -/
def renameChange (lib : Morphology) (category : MemoryCategory) (name : String) : MemoryDb.NameChange :=
  let norm := normalizeForDedup lib (displayName name)
  { name := if displayName name = category.name then none else some (displayName name)
    nameNormalized := if norm = category.nameNormalized then none else some norm }

/-- Where a transaction is. -/
inductive MemoryStage where
  | begun
  /-- `ensure_common` is at the `INSERT`. -/
  | ensuring
  /-- Its `INSERT` was refused, and it reads again. -/
  | raced
  /-- `save` is at the `INSERT` of the fact. -/
  | saving (categoryId : String)
  /-- `rename_category` has read the category. -/
  | toRename (category : MemoryCategory)
  /-- `move_memory` has read the fact. -/
  | moving (memory : AssistantMemory)
  /-- It has found the category, too. -/
  | moved (memory : AssistantMemory)
  /-- `delete_category` holds the row. -/
  | toDelete (category : MemoryCategory)
  | done (outcome : MemoryOutcome)
  deriving DecidableEq

/-- The category whose row a transaction holds. -/
def MemoryStage.held : MemoryStage → Option String
  | .toDelete category => some category.id
  | .begun | .ensuring | .raced | .saving _ | .toRename _ | .moving _ | .moved _ | .done _ => none

/-! ### The statements -/

namespace MemoryCall

variable (lib : Morphology) (db : MemoryDb)

/-- `save`, up to its first `SELECT`. -/
def beginSave (scope : MemoryScope) (tier content source : String) (categoryId : Option String) : MemoryStage :=
  if tier ∉ memoryTiers then .done (.unknownTier tier)
  else if source ∉ memorySources then .done (.unknownSource source)
  else if strip content.toList = [] then .done (.valueError "memory content cannot be empty")
  else
    match categoryId with
    | none =>
      match db.findCommon scope with
      | some category => .saving category.id
      | none => .ensuring
    | some categoryId =>
      match db.ownCategory scope categoryId with
      | some _ => .saving categoryId
      | none => .done (.categoryNotFound categoryId)

/-- `rename_category`, up to its `UPDATE`. -/
def beginRename (scope : MemoryScope) (categoryId name : String) : MemoryStage :=
  match db.ownCategory scope categoryId with
  | none => .done .missing
  | some category =>
    if category.isSystem then .done (.categoryImmutable "Common cannot be renamed")
    else
      match checkName lib name with
      | some outcome => .done outcome
      | none => .toRename category

/-- `delete_category`, up to its `DELETE`s. -/
def beginDelete (scope : MemoryScope) (categoryId : String) : MemoryStage :=
  match db.ownCategory scope categoryId with
  | none => .done .missing
  | some category =>
    if category.isSystem then .done (.categoryImmutable "Common cannot be deleted") else .toDelete category

/-- `create_category`. -/
def createStep (scope : MemoryScope) (name newId : String) : MemoryDb × MemoryStage :=
  match checkName lib name with
  | some outcome => (db, .done outcome)
  | none =>
    match db.insertCategory (newCategory scope newId (displayName name) (normalizeForDedup lib (displayName name))) with
    | some db' => (db', .done (.category newId))
    | none => (db, .done (.categoryNameConflict (displayName name)))

/-- The first statement. -/
def begin (newId : String) : MemoryCall → MemoryDb × MemoryStage
  | .ensureCommon scope =>
    match db.findCommon scope with
    | some category => (db, .done (.category category.id))
    | none => (db, .ensuring)
  | .createCategory scope name => createStep lib db scope name newId
  | .renameCategory scope categoryId name => (db, beginRename lib db scope categoryId name)
  | .moveMemory scope memoryId _ =>
    match db.ownMemory scope memoryId with
    | some memory => (db, .moving memory)
    | none => (db, .done .missing)
  | .save scope tier content source categoryId => (db, beginSave db scope tier content source categoryId)
  | .deleteMemory scope memoryId =>
    (db.deleteMemory scope memoryId, .done (.memoryDeleted (db.ownMemory scope memoryId).isSome))
  | .deleteCategory scope categoryId _ => (db, beginDelete db scope categoryId)

/-- The fact that `save` inserts. -/
def savedMemory (scope : MemoryScope) (tier content source newMemoryId categoryId : String) : AssistantMemory where
  id := newMemoryId
  scope := scope
  tier := tier
  content := String.ofList (strip content.toList)
  source := source
  categoryId := categoryId

/-- The `INSERT` of a fact. -/
def saveStep (memory : AssistantMemory) : MemoryDb × MemoryStage :=
  match db.insertMemory memory with
  | some db' => (db', .done (.memory memory.id))
  | none => (db, .done .integrityError)

/-- The `INSERT` of a Common, and what follows in the transaction. -/
def ensureStep (newId newMemoryId : String) : MemoryCall → MemoryDb × MemoryStage
  | .ensureCommon scope =>
    match db.insertCategory (commonCategory lib scope newId) with
    | some db' => (db', .done (.category newId))
    | none => (db, .raced)
  | .save scope tier content source _ =>
    match db.insertCategory (commonCategory lib scope newId) with
    | some db' =>
      match db'.insertMemory (savedMemory scope tier content source newMemoryId newId) with
      | some db'' => (db'', .done (.memory newMemoryId))
      | none => (db, .done .integrityError)
    | none => (db, .raced)
  | _ => (db, .done .failed)

/-- `ensure_common` reads again. -/
def racedStep : MemoryCall → MemoryDb × MemoryStage
  | .ensureCommon scope =>
    match db.findCommon scope with
    | some category => (db, .done (.category category.id))
    | none => (db, .done .integrityError)
  | .save scope _ _ _ _ =>
    match db.findCommon scope with
    | some category => (db, .saving category.id)
    | none => (db, .done .integrityError)
  | _ => (db, .done .failed)

/-- The `UPDATE` of `rename_category`: the columns that have changed, if there are any. -/
def renameStep (category : MemoryCategory) (name : String) : MemoryDb × MemoryStage :=
  let change := renameChange lib category name
  if change.IsEmpty then (db, .done (.category category.id))
  else if db.categories.get? category.id = none then (db, .done .staleDataError)
  else
    match db.updateCategory category.id change with
    | some db' => (db', .done (.category category.id))
    | none => (db, .done (.categoryNameConflict (displayName name)))

/-- The `UPDATE` of `move_memory`. -/
def moveStep (memory : AssistantMemory) (targetCategoryId : String) : MemoryDb × MemoryStage :=
  if memory.categoryId = targetCategoryId then (db, .done (.memory memory.id))
  else if db.memories.get? memory.id = none then (db, .done .staleDataError)
  else
    match db.updateMemory memory.id targetCategoryId with
    | some db' => (db', .done (.memory memory.id))
    | none => (db, .done .integrityError)

/-- The `DELETE`s of `delete_category`. -/
def deleteStep (scope : MemoryScope) (category : MemoryCategory) (confirmCount : ℤ) : MemoryDb × MemoryStage :=
  let inCategory : AssistantMemory → Bool := fun memory => memory.scope = scope ∧ memory.categoryId = category.id
  let deleted := (db.memories.rows.filter inCategory).length
  if (deleted : ℤ) ≠ confirmCount then (db, .done (.categoryConfirmMismatch deleted confirmCount))
  else if db.categories.get? category.id = none then (db, .done .staleDataError)
  else
    match MemoryDb.commit? (db.categories.delete (·.id = category.id)) (db.memories.delete inCategory) with
    | some db' => (db', .done (.categoryDeleted deleted))
    | none => (db, .done .integrityError)

/-- The next statement of a transaction. -/
def statement (call : MemoryCall) (stage : MemoryStage) (newId newMemoryId : String) : MemoryDb × MemoryStage :=
  match stage, call with
  | .begun, call => begin lib db newId call
  | .ensuring, call => ensureStep lib db newId newMemoryId call
  | .raced, call => racedStep db call
  | .saving categoryId, .save scope tier content source _ =>
    saveStep db (savedMemory scope tier content source newMemoryId categoryId)
  | .toRename category, .renameCategory _ _ name => renameStep lib db category name
  | .moving memory, .moveMemory scope _ targetCategoryId =>
    match db.ownCategory scope targetCategoryId with
    | some _ => (db, .moved memory)
    | none => (db, .done .missing)
  | .moved memory, .moveMemory _ _ targetCategoryId => moveStep db memory targetCategoryId
  | .toDelete category, .deleteCategory scope _ confirmCount => deleteStep db scope category confirmCount
  | .done outcome, _ => (db, .done outcome)
  | _, _ => (db, .done .failed)

/-- The category whose row the next statement needs. -/
def needs (call : MemoryCall) (stage : MemoryStage) : Option String :=
  match stage, call with
  | .begun, .deleteCategory scope categoryId _ => (db.ownCategory scope categoryId).map (·.id)
  | .saving categoryId, _ => some categoryId
  | .toRename category, .renameCategory _ _ name =>
    if (renameChange lib category name).IsEmpty then none else some category.id
  | .moved memory, .moveMemory _ _ targetCategoryId =>
    if memory.categoryId = targetCategoryId then none else some targetCategoryId
  | _, _ => none

end MemoryCall

/-! ### The transactions -/

/-- The tables, the ids of categories that have been used, and the transactions. -/
structure MemoryState (ι : Type) where
  db : MemoryDb
  usedIds : List String
  stage : ι → MemoryStage

/-- A step: the next statement of a transaction, with the ids that it may use; or its failure. -/
inductive MemoryAct (ι : Type) where
  | statement (t : ι) (newId newMemoryId : String)
  | fail (t : ι)
  deriving DecidableEq

namespace MemoryState

variable {ι : Type} [DecidableEq ι] (lib : Morphology) (calls : ι → MemoryCall)

/-- The row of a category is held by another transaction than `t`. -/
def HeldFrom (s : MemoryState ι) (t : ι) (categoryId : String) : Prop :=
  ∃ t', t' ≠ t ∧ (s.stage t').held = some categoryId

/-- The state after a step. -/
def next (s : MemoryState ι) : MemoryAct ι → MemoryState ι
  | .statement t newId newMemoryId =>
    let result := (calls t).statement lib s.db (s.stage t) newId newMemoryId
    { db := result.1, usedIds := newId :: s.usedIds, stage := Function.update s.stage t result.2 }
  | .fail t => { s with stage := Function.update s.stage t (.done .failed) }

/-- A statement may run: its new id has not been used, and it waits for nobody. -/
def Ready (s : MemoryState ι) : MemoryAct ι → Prop
  | .statement t newId _ => newId ∉ s.usedIds ∧ ∀ id ∈ (calls t).needs lib s.db (s.stage t), ¬ s.HeldFrom t id
  | .fail _ => True

instance [Fintype ι] (s : MemoryState ι) (t : ι) (categoryId : String) : Decidable (s.HeldFrom t categoryId) :=
  inferInstanceAs (Decidable (∃ t', t' ≠ t ∧ (s.stage t').held = some categoryId))

instance [Fintype ι] (s : MemoryState ι) (act : MemoryAct ι) : Decidable (s.Ready lib calls act) :=
  match act with
  | .statement t newId _ =>
    inferInstanceAs (Decidable (newId ∉ s.usedIds ∧ ∀ id ∈ (calls t).needs lib s.db (s.stage t), ¬ s.HeldFrom t id))
  | .fail _ => instDecidableTrue

/-- The state after a step that may be taken. -/
def exec [Fintype ι] (s : MemoryState ι) (act : MemoryAct ι) : Option (MemoryState ι) :=
  if s.Ready lib calls act then some (s.next lib calls act) else none

/-- What the rows of `memory_categories` are like. -/
structure SoundRows (lib : Morphology) (categories : List MemoryCategory) : Prop where
  common : ∀ category ∈ categories, category.isSystem = true →
    category.slug = some commonSlug ∧ normalizeForDedup lib category.name = commonNameNormalized lib
  user : ∀ category ∈ categories, category.isSystem = false →
    normalizeForDedup lib category.name ≠ commonNameNormalized lib

/-- The indexed name is the normal form of the name. -/
def Normalized (lib : Morphology) (categories : List MemoryCategory) : Prop :=
  ∀ category ∈ categories, category.nameNormalized = normalizeForDedup lib category.name

/-- The transactions, from tables as they may be. -/
def transactions : Lts (MemoryState ι) (MemoryAct ι) where
  init s := SoundRows lib s.db.categories.rows ∧ Normalized lib s.db.categories.rows ∧
    (∀ category ∈ s.db.categories.rows, category.id ∈ s.usedIds) ∧ ∀ t, s.stage t = .begun
  step s act s' := s.Ready lib calls act ∧ s' = s.next lib calls act

theorem step_of_exec [Fintype ι] {s s' : MemoryState ι} {act : MemoryAct ι} (h : s.exec lib calls act = some s') :
    (transactions lib calls).step s act s' := by
  unfold exec at h
  split at h
  · next hready => exact ⟨hready, (Option.some.inj h).symm⟩
  · cases h

end MemoryState

/-! ### What a write leaves -/

namespace MemoryDb

variable {db db' : MemoryDb}

theorem commit?_eq_some {categories : Keyed MemoryCategory.id} {memories : Keyed AssistantMemory.id}
    (h : commit? categories memories = some db') : db'.categories = categories ∧ db'.memories = memories := by
  unfold commit? at h
  split at h
  · cases h
    exact ⟨rfl, rfl⟩
  · cases h

variable {category : MemoryCategory} {scope : MemoryScope}

theorem categories_insertCategory (h : db.insertCategory category = some db') :
    db'.categories.rows = db.categories.rows ++ [category] := by
  obtain ⟨categories, hinsert, hcommit⟩ := Option.bind_eq_some_iff.mp h
  rw [(commit?_eq_some hcommit).1, Keyed.rows_insert? hinsert]

theorem categories_insertMemory {memory : AssistantMemory} (h : db.insertMemory memory = some db') :
    db'.categories = db.categories := by
  obtain ⟨memories, -, hcommit⟩ := Option.bind_eq_some_iff.mp h
  exact (commit?_eq_some hcommit).1

theorem mem_ownCategory {categoryId : String} (h : db.ownCategory scope categoryId = some category) :
    category ∈ db.categories.rows ∧ category.id = categoryId ∧ category.scope = scope := by
  obtain ⟨hget, hscope⟩ := Option.filter_eq_some_iff.mp h
  obtain ⟨hmem, hid⟩ := Keyed.get?_eq_some.mp hget
  exact ⟨hmem, hid, of_decide_eq_true hscope⟩

end MemoryDb

/-! ### What a statement does -/

section Statements

variable {lib : Morphology} {db : MemoryDb} {call : MemoryCall} {stage : MemoryStage} {newId newMemoryId : String}

/-- **What a statement does** to the categories. -/
inductive CategoriesEffect (lib : Morphology) (call : MemoryCall) (stage : MemoryStage) (newId : String)
    (categories : List MemoryCategory) : List MemoryCategory → Prop where
  | same : CategoriesEffect lib call stage newId categories categories
  | common (scope : MemoryScope) :
      CategoriesEffect lib call stage newId categories (categories ++ [commonCategory lib scope newId])
  | created (scope : MemoryScope) (name : String) (hcheck : checkName lib name = none) :
      CategoriesEffect lib call stage newId categories
        (categories ++ [newCategory scope newId (displayName name) (normalizeForDedup lib (displayName name))])
  | renamed (scope : MemoryScope) (categoryId name : String) (category : MemoryCategory) (hstage : stage = .toRename category)
      (hcall : call = .renameCategory scope categoryId name) (hchange : ¬ (renameChange lib category name).IsEmpty) :
      CategoriesEffect lib call stage newId categories
        (categories.map fun c => if c.id = category.id then (renameChange lib category name).apply c else c)
  | deleted (categoryId : String) :
      CategoriesEffect lib call stage newId categories (categories.filter fun c => !decide (c.id = categoryId))

/-- A category that a transaction goes on to rename or to delete has `P`, and its call says so. -/
def StageInv (lib : Morphology) (P : MemoryCategory → Prop) (call : MemoryCall) : MemoryStage → Prop
  | .toRename category => P category ∧ category.isSystem = false ∧
      ∃ name, call = .renameCategory category.scope category.id name ∧ checkName lib name = none
  | .toDelete category => P category ∧ category.isSystem = false ∧
      ∃ confirmCount, call = .deleteCategory category.scope category.id confirmCount
  | .begun | .ensuring | .raced | .saving _ | .moving _ | .moved _ | .done _ => True

theorem StageInv.mono {P Q : MemoryCategory → Prop} (h : StageInv lib P call stage)
    (hmono : ∀ category, P category → Q category) : StageInv lib Q call stage := by
  cases stage with
  | toRename category => exact ⟨hmono category h.1, h.2⟩
  | toDelete category => exact ⟨hmono category h.1, h.2⟩
  | begun | ensuring | raced | saving | moving | moved | done => trivial

/-- A statement: its effect on the categories, and where it leaves the transaction. A category that is to be renamed or to be
deleted has just been read. -/
structure StatementSpec (lib : Morphology) (db : MemoryDb) (call : MemoryCall) (stage : MemoryStage) (newId : String)
    (result : MemoryDb × MemoryStage) : Prop where
  categories : CategoriesEffect lib call stage newId db.categories.rows result.1.categories.rows
  stage : StageInv lib (· ∈ db.categories.rows) call result.2

theorem beginRename_inv (scope : MemoryScope) (categoryId name : String) :
    StageInv lib (· ∈ db.categories.rows) (.renameCategory scope categoryId name)
      (MemoryCall.beginRename lib db scope categoryId name) := by
  unfold MemoryCall.beginRename
  split
  · trivial
  · next category hown =>
    obtain ⟨hmem, rfl, rfl⟩ := MemoryDb.mem_ownCategory hown
    split
    · trivial
    · next hsystem =>
      split
      · trivial
      · next hcheck => exact ⟨hmem, Bool.not_eq_true _ ▸ hsystem, name, rfl, hcheck⟩

theorem beginDelete_inv (scope : MemoryScope) (categoryId : String) (confirmCount : ℤ) :
    StageInv lib (· ∈ db.categories.rows) (.deleteCategory scope categoryId confirmCount)
      (MemoryCall.beginDelete db scope categoryId) := by
  unfold MemoryCall.beginDelete
  split
  · trivial
  · next category hown =>
    obtain ⟨hmem, rfl, rfl⟩ := MemoryDb.mem_ownCategory hown
    split
    · trivial
    · next hsystem => exact ⟨hmem, Bool.not_eq_true _ ▸ hsystem, confirmCount, rfl⟩

theorem beginSave_inv (scope : MemoryScope) (tier content source : String) (categoryId : Option String) :
    StageInv lib (· ∈ db.categories.rows) call (MemoryCall.beginSave db scope tier content source categoryId) := by
  unfold MemoryCall.beginSave
  split
  · trivial
  · split
    · trivial
    · split
      · trivial
      · split
        · split <;> trivial
        · split <;> trivial

theorem createStep_spec (scope : MemoryScope) (name : String) :
    StatementSpec lib db call stage newId (MemoryCall.createStep lib db scope name newId) := by
  unfold MemoryCall.createStep
  split
  · exact ⟨.same, trivial⟩
  · next hcheck =>
    split
    · next db' hinsert =>
      refine ⟨?_, trivial⟩
      rw [MemoryDb.categories_insertCategory hinsert]
      exact .created scope name hcheck
    · exact ⟨.same, trivial⟩

theorem begin_spec : StatementSpec lib db call stage newId (MemoryCall.begin lib db newId call) := by
  cases call with
  | createCategory scope name => exact createStep_spec scope name
  | ensureCommon scope | moveMemory scope _ _ =>
    simp only [MemoryCall.begin]
    split
    · exact ⟨.same, trivial⟩
    · exact ⟨.same, trivial⟩
  | renameCategory scope categoryId name => exact ⟨.same, beginRename_inv scope categoryId name⟩
  | save scope tier content source categoryId => exact ⟨.same, beginSave_inv scope tier content source categoryId⟩
  | deleteMemory scope memoryId => exact ⟨.same, trivial⟩
  | deleteCategory scope categoryId confirmCount => exact ⟨.same, beginDelete_inv scope categoryId confirmCount⟩

theorem ensureStep_spec : StatementSpec lib db call stage newId (MemoryCall.ensureStep lib db newId newMemoryId call) := by
  cases call with
  | ensureCommon scope =>
    simp only [MemoryCall.ensureStep]
    split
    · next db' hinsert =>
      refine ⟨?_, trivial⟩
      rw [MemoryDb.categories_insertCategory hinsert]
      exact .common scope
    · exact ⟨.same, trivial⟩
  | save scope tier content source categoryId =>
    simp only [MemoryCall.ensureStep]
    split
    · next db' hinsert =>
      split
      · next db'' hmemory =>
        refine ⟨?_, trivial⟩
        rw [MemoryDb.categories_insertMemory hmemory, MemoryDb.categories_insertCategory hinsert]
        exact .common scope
      · exact ⟨.same, trivial⟩
    · exact ⟨.same, trivial⟩
  | createCategory | renameCategory | moveMemory | deleteMemory | deleteCategory => exact ⟨.same, trivial⟩

theorem racedStep_spec : StatementSpec lib db call stage newId (MemoryCall.racedStep db call) := by
  cases call with
  | ensureCommon scope | save scope _ _ _ _ =>
    simp only [MemoryCall.racedStep]
    split
    · exact ⟨.same, trivial⟩
    · exact ⟨.same, trivial⟩
  | createCategory | renameCategory | moveMemory | deleteMemory | deleteCategory => exact ⟨.same, trivial⟩

theorem saveStep_spec (memory : AssistantMemory) :
    StatementSpec lib db call stage newId (MemoryCall.saveStep db memory) := by
  unfold MemoryCall.saveStep
  split
  · next db' hinsert =>
    refine ⟨?_, trivial⟩
    rw [MemoryDb.categories_insertMemory hinsert]
    exact .same
  · exact ⟨.same, trivial⟩

theorem renameStep_spec (scope : MemoryScope) (categoryId name : String) (category : MemoryCategory) :
    StatementSpec lib db (.renameCategory scope categoryId name) (.toRename category) newId
      (MemoryCall.renameStep lib db category name) := by
  unfold MemoryCall.renameStep
  dsimp only
  split
  · exact ⟨.same, trivial⟩
  · next hchange =>
    split
    · exact ⟨.same, trivial⟩
    · split
      · next db' hupdate =>
        refine ⟨?_, trivial⟩
        rw [(MemoryDb.commit?_eq_some hupdate).1, Keyed.rows_update]
        simp only [decide_eq_true_eq]
        exact .renamed scope categoryId name category rfl rfl hchange
      · exact ⟨.same, trivial⟩

theorem moveStep_spec (memory : AssistantMemory) (targetCategoryId : String) :
    StatementSpec lib db call stage newId (MemoryCall.moveStep db memory targetCategoryId) := by
  unfold MemoryCall.moveStep
  split
  · exact ⟨.same, trivial⟩
  · split
    · exact ⟨.same, trivial⟩
    · split
      · next db' hupdate =>
        refine ⟨?_, trivial⟩
        rw [(MemoryDb.commit?_eq_some hupdate).1]
        exact .same
      · exact ⟨.same, trivial⟩

theorem deleteStep_spec (scope : MemoryScope) (category : MemoryCategory) (confirmCount : ℤ) :
    StatementSpec lib db call stage newId (MemoryCall.deleteStep db scope category confirmCount) := by
  unfold MemoryCall.deleteStep
  dsimp only
  split
  · exact ⟨.same, trivial⟩
  · split
    · exact ⟨.same, trivial⟩
    · split
      · next db' hcommit =>
        refine ⟨?_, trivial⟩
        rw [(MemoryDb.commit?_eq_some hcommit).1, Keyed.rows_delete]
        exact .deleted category.id
      · exact ⟨.same, trivial⟩

theorem statement_spec (lib : Morphology) (db : MemoryDb) (call : MemoryCall) (stage : MemoryStage) (newId newMemoryId : String) :
    StatementSpec lib db call stage newId (call.statement lib db stage newId newMemoryId) := by
  cases stage with
  | begun => exact begin_spec
  | ensuring => exact ensureStep_spec
  | raced => exact racedStep_spec
  | saving categoryId =>
    cases call with
    | save => exact saveStep_spec _
    | ensureCommon | createCategory | renameCategory | moveMemory | deleteMemory | deleteCategory => exact ⟨.same, trivial⟩
  | toRename category =>
    cases call with
    | renameCategory scope categoryId name => exact renameStep_spec scope categoryId name category
    | ensureCommon | createCategory | moveMemory | save | deleteMemory | deleteCategory => exact ⟨.same, trivial⟩
  | moving memory =>
    cases call with
    | moveMemory scope memoryId targetCategoryId =>
      simp only [MemoryCall.statement]
      split
      · exact ⟨.same, trivial⟩
      · exact ⟨.same, trivial⟩
    | ensureCommon | createCategory | renameCategory | save | deleteMemory | deleteCategory => exact ⟨.same, trivial⟩
  | moved memory =>
    cases call with
    | moveMemory scope memoryId targetCategoryId => exact moveStep_spec memory targetCategoryId
    | ensureCommon | createCategory | renameCategory | save | deleteMemory | deleteCategory => exact ⟨.same, trivial⟩
  | toDelete category =>
    cases call with
    | deleteCategory scope categoryId confirmCount => exact deleteStep_spec scope category confirmCount
    | ensureCommon | createCategory | renameCategory | moveMemory | save | deleteMemory => exact ⟨.same, trivial⟩
  | done outcome => exact ⟨.same, trivial⟩

end Statements

/-! ### What every statement keeps -/

section Keeps

variable {lib : Morphology} {call : MemoryCall} {stage : MemoryStage} {newId : String}
variable {usedIds : List String} {categories categories' : List MemoryCategory}

/-- A category as it was once read: its row, if there is one, is of the same user, and is Common if it was. -/
structure Known (usedIds : List String) (categories : List MemoryCategory) (read : MemoryCategory) : Prop where
  used : read.id ∈ usedIds
  row : ∀ category ∈ categories, category.id = read.id → category.scope = read.scope ∧ category.isSystem = read.isSystem

theorem CategoriesEffect.mem (h : CategoriesEffect lib call stage newId categories categories')
    (hmem : category ∈ categories') :
    (∃ old ∈ categories, old.id = category.id ∧ old.scope = category.scope ∧ old.isSystem = category.isSystem) ∨
      category.id = newId := by
  cases h with
  | same => exact .inl ⟨category, hmem, rfl, rfl, rfl⟩
  | common scope =>
    rcases List.mem_append.mp hmem with hold | hnew
    · exact .inl ⟨category, hold, rfl, rfl, rfl⟩
    · rw [List.mem_singleton.mp hnew]
      exact .inr rfl
  | created scope name hcheck =>
    rcases List.mem_append.mp hmem with hold | hnew
    · exact .inl ⟨category, hold, rfl, rfl, rfl⟩
    · rw [List.mem_singleton.mp hnew]
      exact .inr rfl
  | renamed scope categoryId name read hstage hcall hchange =>
    obtain ⟨old, hold, rfl⟩ := List.mem_map.mp hmem
    refine .inl ⟨old, hold, ?_⟩
    generalize renameChange lib read name = change
    split
    · exact ⟨(change.id_apply old).symm, (change.scope_apply old).symm, (change.isSystem_apply old).symm⟩
    · exact ⟨rfl, rfl, rfl⟩
  | deleted categoryId => exact .inl ⟨category, (List.mem_filter.mp hmem).1, rfl, rfl, rfl⟩

theorem Known.step {read : MemoryCategory} (h : Known usedIds categories read) (hfresh : newId ∉ usedIds)
    (heffect : CategoriesEffect lib call stage newId categories categories') :
    Known (newId :: usedIds) categories' read where
  used := List.mem_cons_of_mem newId h.used
  row := by
    intro category hmem hid
    obtain ⟨old, hold, holdId, hscope, hsystem⟩ | hnew := heffect.mem hmem
    · rw [← hscope, ← hsystem]
      exact h.row old hold (holdId.trans hid)
    · rw [← hnew, hid] at hfresh
      exact absurd h.used hfresh

theorem checkName_eq_none {name : String} :
    checkName lib name = none ↔ normalizeForDedup lib (displayName name) ≠ "" ∧
      normalizeForDedup lib (displayName name) ≠ commonNameNormalized lib := by
  unfold checkName
  dsimp only
  split
  · next hempty => simp [hempty]
  · next hne =>
    split
    · next hcommon => simp [hcommon]
    · next hcommon => simp [hne, hcommon]

/-- The name of a renamed row: the new one, or the one it had. -/
theorem name_renameChange (lib : Morphology) (read category : MemoryCategory) (name : String) :
    ((renameChange lib read name).apply category).name = displayName name ∨
      ((renameChange lib read name).apply category).name = category.name := by
  unfold renameChange MemoryDb.NameChange.apply
  dsimp only
  split
  · exact .inr rfl
  · exact .inl rfl

/-- **The name of the Common** stays with it. -/
theorem CategoriesEffect.sound (h : CategoriesEffect lib call stage newId categories categories')
    (hstage : StageInv lib (Known usedIds categories) call stage) (hsound : MemoryState.SoundRows lib categories) :
    MemoryState.SoundRows lib categories' := by
  cases h with
  | same => exact hsound
  | common scope =>
    constructor
    · intro category hmem hsystem
      rcases List.mem_append.mp hmem with hold | hnew
      · exact hsound.common category hold hsystem
      · rw [List.mem_singleton.mp hnew]
        exact ⟨rfl, rfl⟩
    · intro category hmem huser
      rcases List.mem_append.mp hmem with hold | hnew
      · exact hsound.user category hold huser
      · rw [List.mem_singleton.mp hnew] at huser
        cases huser
  | created scope name hcheck =>
    constructor
    · intro category hmem hsystem
      rcases List.mem_append.mp hmem with hold | hnew
      · exact hsound.common category hold hsystem
      · rw [List.mem_singleton.mp hnew] at hsystem
        cases hsystem
    · intro category hmem huser
      rcases List.mem_append.mp hmem with hold | hnew
      · exact hsound.user category hold huser
      · rw [List.mem_singleton.mp hnew]
        exact (checkName_eq_none.mp hcheck).2
  | renamed scope categoryId name read hstageEq hcallEq hchange =>
    subst hstageEq hcallEq
    obtain ⟨hknown, hread, name', hname, hcheck⟩ := hstage
    obtain ⟨-, -, rfl⟩ : _ ∧ _ ∧ name = name' := by simpa using hname
    constructor
    · intro category hmem hsystem
      obtain ⟨old, hold, rfl⟩ := List.mem_map.mp hmem
      split at hsystem
      · next hid =>
        -- the row that is renamed is not a Common
        have hold' : old.isSystem = false := (hknown.row old hold hid).2.trans hread
        rw [MemoryDb.NameChange.isSystem_apply, hold'] at hsystem
        cases hsystem
      · next hid =>
        rw [if_neg hid]
        exact hsound.common old hold hsystem
    · intro category hmem huser
      obtain ⟨old, hold, rfl⟩ := List.mem_map.mp hmem
      split at huser
      · next hid =>
        rw [MemoryDb.NameChange.isSystem_apply] at huser
        rw [if_pos hid]
        rcases name_renameChange lib read old name with hnew | hsame
        · rw [hnew]
          exact (checkName_eq_none.mp hcheck).2
        · rw [hsame]
          exact hsound.user old hold huser
      · next hid =>
        rw [if_neg hid]
        exact hsound.user old hold huser
  | deleted categoryId =>
    exact ⟨fun category hmem => hsound.common category (List.mem_filter.mp hmem).1,
      fun category hmem => hsound.user category (List.mem_filter.mp hmem).1⟩

end Keeps

namespace MemoryState

variable {ι : Type} [DecidableEq ι] {lib : Morphology} {calls : ι → MemoryCall} {s s' : MemoryState ι} {act : MemoryAct ι}

/-- **The invariant** of every run. -/
structure Inv (lib : Morphology) (calls : ι → MemoryCall) (s : MemoryState ι) : Prop where
  rows : SoundRows lib s.db.categories.rows
  used : ∀ category ∈ s.db.categories.rows, category.id ∈ s.usedIds
  stages : ∀ t, StageInv lib (Known s.usedIds s.db.categories.rows) (calls t) (s.stage t)

omit [DecidableEq ι] in
theorem Inv.known (h : s.Inv lib calls) (hmem : category ∈ s.db.categories.rows) :
    Known s.usedIds s.db.categories.rows category where
  used := h.used category hmem
  row := by
    intro row hrow hid
    rw [s.db.categories.eq_of_key hrow hmem hid]
    exact ⟨rfl, rfl⟩

theorem Inv.next (h : s.Inv lib calls) (hready : s.Ready lib calls act) : (s.next lib calls act).Inv lib calls := by
  cases act with
  | statement t newId newMemoryId =>
    obtain ⟨hcategories, hstage⟩ := statement_spec lib s.db (calls t) (s.stage t) newId newMemoryId
    have hstep : ∀ read, Known s.usedIds s.db.categories.rows read →
        Known (newId :: s.usedIds) (s.next lib calls (.statement t newId newMemoryId)).db.categories.rows read :=
      fun read hread => hread.step hready.1 hcategories
    refine ⟨hcategories.sound (h.stages t) h.rows, ?_, ?_⟩
    · intro category hmem
      obtain ⟨old, hold, hid, -, -⟩ | hnew := hcategories.mem hmem
      · rw [← hid]
        exact List.mem_cons_of_mem newId (h.used old hold)
      · rw [hnew]
        exact List.mem_cons_self
    · refine (Function.forall_update_iff s.stage fun t' stage => StageInv lib _ (calls t') stage).mpr ⟨?_, ?_⟩
      · exact hstage.mono fun category hmem => hstep category (h.known hmem)
      · intro t' _
        exact (h.stages t').mono hstep
  | fail t =>
    refine ⟨h.rows, h.used, ?_⟩
    refine (Function.forall_update_iff s.stage fun t' stage => StageInv lib _ (calls t') stage).mpr ⟨trivial, ?_⟩
    intro t' _
    exact h.stages t'

theorem inv_of_reachable (h : (transactions lib calls).Reachable s) : s.Inv lib calls := by
  refine h.induct (P := Inv lib calls) ?_ ?_
  · rintro s ⟨hrows, -, hused, hbegun⟩
    refine ⟨hrows, hused, fun t => ?_⟩
    rw [hbegun t]
    trivial
  · rintro s act s' - ih ⟨hready, rfl⟩
    exact ih.next hready

/-- A row that is renamed has the normal form of its name, if it has the normal form that was read. -/
theorem normalized_renameChange {rows : List MemoryCategory} {read row : MemoryCategory} {name : String}
    (hread : read.nameNormalized = normalizeForDedup lib read.name)
    (hcurrent : (renameChange lib read name).name ≠ none → (renameChange lib read name).nameNormalized = none →
      ∀ row ∈ rows, row.id = read.id → row.nameNormalized = read.nameNormalized)
    (hmem : row ∈ rows) (hid : row.id = read.id) (hchange : ¬ (renameChange lib read name).IsEmpty) :
    ((renameChange lib read name).apply row).nameNormalized =
      normalizeForDedup lib ((renameChange lib read name).apply row).name := by
  by_cases hname : displayName name = read.name
  · -- the name that was read has the normal form that was read, and nothing changes
    refine absurd ⟨?_, ?_⟩ hchange
    · simp only [renameChange, hname, if_true]
    · simp only [renameChange, hname, hread, if_true]
  · by_cases hnorm : normalizeForDedup lib (displayName name) = read.nameNormalized
    · have hrow := hcurrent (by simp [renameChange, hname]) (by simp [renameChange, hnorm]) row hmem hid
      simp [renameChange, MemoryDb.NameChange.apply, hname, hnorm, hrow]
    · simp [renameChange, MemoryDb.NameChange.apply, hname, hnorm]

/-- **The condition**: a rename that changes the name and not its normal form finds the normal form that it has read. -/
def Current (lib : Morphology) (calls : ι → MemoryCall) (s : MemoryState ι) : MemoryAct ι → Prop
  | .statement t _ _ => ∀ read scope categoryId name, s.stage t = .toRename read →
      calls t = .renameCategory scope categoryId name → (renameChange lib read name).name ≠ none →
      (renameChange lib read name).nameNormalized = none →
      ∀ row ∈ s.db.categories.rows, row.id = read.id → row.nameNormalized = read.nameNormalized
  | .fail _ => True

/-- What is kept under the condition: the normal forms are those of the names, also where they have been read. -/
structure NormalInv (lib : Morphology) (calls : ι → MemoryCall) (s : MemoryState ι) : Prop where
  rows : Normalized lib s.db.categories.rows
  stages : ∀ t, StageInv lib (fun read => read.nameNormalized = normalizeForDedup lib read.name) (calls t) (s.stage t)

theorem NormalInv.next (h : s.NormalInv lib calls) (hcurrent : s.Current lib calls act) :
    (s.next lib calls act).NormalInv lib calls := by
  cases act with
  | statement t newId newMemoryId =>
    obtain ⟨hcategories, hstage⟩ := statement_spec lib s.db (calls t) (s.stage t) newId newMemoryId
    refine ⟨?_, ?_⟩
    · have hread := h.stages t
      change Normalized lib ((calls t).statement lib s.db (s.stage t) newId newMemoryId).1.categories.rows
      generalize ((calls t).statement lib s.db (s.stage t) newId newMemoryId).1.categories.rows = categories' at hcategories
      cases hcategories with
      | same => exact h.rows
      | common scope =>
        intro category hmem
        rcases List.mem_append.mp hmem with hold | hnew
        · exact h.rows category hold
        · rw [List.mem_singleton.mp hnew]
          rfl
      | created scope name hcheck =>
        intro category hmem
        rcases List.mem_append.mp hmem with hold | hnew
        · exact h.rows category hold
        · rw [List.mem_singleton.mp hnew]
          rfl
      | renamed scope categoryId name read hstageEq hcallEq hchange =>
        rw [hstageEq] at hread
        intro category hmem
        obtain ⟨old, hold, rfl⟩ := List.mem_map.mp hmem
        split
        · next hid => exact normalized_renameChange hread.1 (hcurrent read scope categoryId name hstageEq hcallEq) hold hid hchange
        · exact h.rows old hold
      | deleted categoryId => exact fun category hmem => h.rows category (List.mem_filter.mp hmem).1
    · refine (Function.forall_update_iff s.stage fun t' stage => StageInv lib _ (calls t') stage).mpr ⟨?_, ?_⟩
      · exact hstage.mono fun category hmem => h.rows category hmem
      · intro t' _
        exact h.stages t'
  | fail t =>
    refine ⟨h.rows, ?_⟩
    refine (Function.forall_update_iff s.stage fun t' stage => StageInv lib _ (calls t') stage).mpr ⟨trivial, ?_⟩
    intro t' _
    exact h.stages t'

/-- The transactions whose renames meet the condition. -/
def current (lib : Morphology) (calls : ι → MemoryCall) : Lts (MemoryState ι) (MemoryAct ι) :=
  (transactions lib calls).guard fun s act => s.Current lib calls act

theorem normalInv_of_reachable (h : (current lib calls).Reachable s) : s.NormalInv lib calls := by
  refine h.induct (P := NormalInv lib calls) ?_ ?_
  · rintro s ⟨-, hnormal, -, hbegun⟩
    refine ⟨hnormal, fun t => ?_⟩
    rw [hbegun t]
    trivial
  · rintro s act s' - ih ⟨⟨-, rfl⟩, hcurrent⟩
    exact ih.next hcurrent

end MemoryState

/-! ### What a rename and a deletion do -/

namespace MemoryDb

variable {db db' : MemoryDb}

/-- The indexes and the foreign key do not read the names. -/
theorem integrity_map {categories : List MemoryCategory} {memories : List AssistantMemory}
    (h : MemoryIntegrity categories memories) {set : MemoryCategory → MemoryCategory} (hid : ∀ c, (set c).id = c.id)
    (hscope : ∀ c, (set c).scope = c.scope) (hnorm : ∀ c, (set c).nameNormalized = c.nameNormalized)
    (hsystem : ∀ c, (set c).isSystem = c.isSystem) : MemoryIntegrity (categories.map set) memories where
  name := by
    rw [List.map_map, List.map_congr_left fun c _ => by rw [Function.comp_apply, hscope, hnorm]]
    exact h.name
  oneSystem := by
    have hfilter : categories.filter ((·.isSystem) ∘ set) = categories.filter (·.isSystem) :=
      List.filter_congr fun c _ => hsystem c
    have hmap : ((·.scope) ∘ set : MemoryCategory → MemoryScope) = (·.scope) := funext hscope
    rw [List.filter_map, List.map_map, hfilter, hmap]
    exact h.oneSystem
  category := by
    intro memory hmem
    obtain ⟨category, hcategory, hmemId, hmemScope⟩ := h.category memory hmem
    exact ⟨set category, List.mem_map_of_mem hcategory, (hid category).trans hmemId, (hscope category).trans hmemScope⟩

/-- An `UPDATE` of the name alone is not refused. -/
theorem updateCategory_isSome (db : MemoryDb) (categoryId : String) {change : NameChange} (hchange : change.nameNormalized = none) :
    ∃ db', db.updateCategory categoryId change = some db' := by
  have hset : ∀ c : MemoryCategory, (change.apply c).nameNormalized = c.nameNormalized := by
    intro c
    simp [NameChange.apply, hchange]
  have hintegrity : MemoryIntegrity
      (db.categories.update (·.id = categoryId) change.apply change.id_apply).rows db.memories.rows := by
    rw [Keyed.rows_update]
    refine integrity_map db.integrity ?_ ?_ ?_ ?_
    · intro c
      split <;> rfl
    · intro c
      split <;> rfl
    · intro c
      split
      · exact hset c
      · rfl
    · intro c
      split <;> rfl
  exact ⟨_, dif_pos hintegrity⟩

/-- `db'` is without a category of the user and its facts, which are as many as was confirmed. -/
structure Deletes (db db' : MemoryDb) (scope : MemoryScope) (categoryId : String) (confirmCount : ℤ) : Prop where
  category : ∃ category ∈ db.categories.rows, category.id = categoryId ∧ category.scope = scope ∧ category.isSystem = false
  facts : ((db.memories.rows.filter (·.categoryId = categoryId)).length : ℤ) = confirmCount
  categories : db'.categories.rows = db.categories.rows.filter (·.id ≠ categoryId)
  memories : db'.memories.rows = db.memories.rows.filter (·.categoryId ≠ categoryId)

theorem facts_of_category (hmem : category ∈ db.categories.rows) :
    ∀ memory ∈ db.memories.rows, memory.categoryId = category.id → memory.scope = category.scope := by
  intro memory hmemory hid
  obtain ⟨owner, howner, hownerId, hscope⟩ := db.integrity.category memory hmemory
  rw [← hscope, db.categories.eq_of_key howner hmem (hownerId.trans hid)]

theorem deleteStep_cases {read : MemoryCategory} (hscope : read.scope = scope)
    (hread : read.isSystem = false) (hrow : ∀ category ∈ db.categories.rows, category.id = read.id →
      category.scope = read.scope ∧ category.isSystem = read.isSystem) (confirmCount : ℤ) :
    (MemoryCall.deleteStep db scope read confirmCount).1 = db ∧
        (∀ facts, (MemoryCall.deleteStep db scope read confirmCount).2 ≠ .done (.categoryDeleted facts)) ∨
      Deletes db (MemoryCall.deleteStep db scope read confirmCount).1 scope read.id confirmCount ∧
        ∃ facts : ℕ, (MemoryCall.deleteStep db scope read confirmCount).2 = .done (.categoryDeleted facts) ∧
          (facts : ℤ) = confirmCount := by
  unfold MemoryCall.deleteStep
  dsimp only
  split
  · exact .inl ⟨rfl, fun _ h => by cases h⟩
  · next hcount =>
    split
    · exact .inl ⟨rfl, fun _ h => by cases h⟩
    · next hget =>
      split
      · next db' hcommit =>
        obtain ⟨row, hrowGet⟩ := Option.ne_none_iff_exists'.mp hget
        obtain ⟨hmem, hid⟩ := Keyed.get?_eq_some.mp hrowGet
        obtain ⟨hrowScope, hrowSystem⟩ := hrow row hmem hid
        have hfacts : ∀ memory ∈ db.memories.rows,
            decide (memory.scope = scope ∧ memory.categoryId = read.id) = decide (memory.categoryId = read.id) := by
          intro memory hmemory
          refine decide_eq_decide.mpr ⟨And.right, fun hmemId => ⟨?_, hmemId⟩⟩
          rw [facts_of_category hmem memory hmemory (hmemId.trans hid.symm), hrowScope, hscope]
        refine .inr ⟨⟨⟨row, hmem, hid, hrowScope.trans hscope, hrowSystem.trans hread⟩, ?_, ?_, ?_⟩, _, rfl, not_not.mp hcount⟩
        · rw [← List.filter_congr hfacts]
          exact not_not.mp hcount
        · rw [(commit?_eq_some hcommit).1, Keyed.rows_delete]
          simp only [decide_not]
        · rw [(commit?_eq_some hcommit).2, Keyed.rows_delete]
          refine List.filter_congr fun memory hmemory => ?_
          rw [hfacts memory hmemory, decide_not]
      · exact .inl ⟨rfl, fun _ h => by cases h⟩

end MemoryDb

namespace MemoryState

variable {ι : Type} [DecidableEq ι] {lib : Morphology} {calls : ι → MemoryCall} {s s' : MemoryState ι} {act : MemoryAct ι}

omit [DecidableEq ι] in
/-- A statement of a deletion: it deletes what was confirmed, or it leaves the tables. -/
theorem delete_statement (hinv : s.Inv lib calls) (newId newMemoryId : String) {t : ι}
    {categoryId : String} {confirmCount : ℤ} (hcall : calls t = .deleteCategory scope categoryId confirmCount) :
    let result := (calls t).statement lib s.db (s.stage t) newId newMemoryId
    result.1 = s.db ∧ (∀ facts, result.2 = .done (.categoryDeleted facts) → s.stage t = .done (.categoryDeleted facts)) ∨
      s.db.Deletes result.1 scope categoryId confirmCount ∧
        ∃ facts : ℕ, result.2 = .done (.categoryDeleted facts) ∧ (facts : ℤ) = confirmCount := by
  have hstage := hinv.stages t
  rw [hcall] at hstage ⊢
  cases hat : s.stage t with
  | toDelete read =>
    rw [hat] at hstage
    obtain ⟨hknown, hread, confirmCount', heq⟩ := hstage
    obtain ⟨hscope, rfl, -⟩ : scope = read.scope ∧ categoryId = read.id ∧ _ := by simpa using heq
    rcases MemoryDb.deleteStep_cases hscope.symm hread hknown.row confirmCount with ⟨hdb, hno⟩ | hdeletes
    · exact .inl ⟨hdb, fun facts hfacts => absurd hfacts (hno facts)⟩
    · exact .inr hdeletes
  | begun =>
    refine .inl ⟨rfl, fun facts hfacts => ?_⟩
    change MemoryCall.beginDelete s.db scope categoryId = _ at hfacts
    unfold MemoryCall.beginDelete at hfacts
    split at hfacts
    · cases hfacts
    · split at hfacts
      · cases hfacts
      · cases hfacts
  | ensuring | raced | saving | toRename | moving | moved => exact .inl ⟨rfl, fun _ h => by cases h⟩
  | done outcome => exact .inl ⟨rfl, fun _ h => h⟩

/-- Where the condition is not met, a row gets a name of another normal form. -/
theorem current_of_normalized (h : Normalized lib (s.next lib calls act).db.categories.rows) : s.Current lib calls act := by
  cases act with
  | fail t => trivial
  | statement t newId newMemoryId =>
    intro read scope categoryId name hstage hcall hname hnorm row hmem hid
    obtain ⟨db', hupdate⟩ := s.db.updateCategory_isSome read.id hnorm
    have hpresent : s.db.categories.get? read.id ≠ none := fun hnone => Keyed.get?_eq_none.mp hnone row hmem hid
    have hdb : (s.next lib calls (.statement t newId newMemoryId)).db = db' := by
      simp only [next, hstage, hcall, MemoryCall.statement, MemoryCall.renameStep]
      rw [if_neg fun hempty => hname hempty.1, if_neg hpresent, hupdate]
    have hrow : (renameChange lib read name).apply row ∈ db'.categories.rows := by
      rw [(MemoryDb.commit?_eq_some hupdate).1]
      exact (Keyed.mem_update (renameChange lib read name).id_apply).mpr ⟨row, hmem, by simp [hid]⟩
    have hnormal := h _ (hdb ▸ hrow)
    have hdisplay : displayName name ≠ read.name := fun heq => hname (by simp only [renameChange, heq, if_true])
    have hsame : normalizeForDedup lib (displayName name) = read.nameNormalized := by
      by_contra hne
      simp [renameChange, hne] at hnorm
    simpa [renameChange, MemoryDb.NameChange.apply, hdisplay, hsame] using hnormal

end MemoryState

/-! ### The guarantees -/

/-- A Common. -/
def MemoryCategory.IsCommon (category : MemoryCategory) : Prop :=
  category.isSystem = true ∧ category.slug = some commonSlug

namespace MemoryDb

variable (lib : Morphology) (db : MemoryDb)

/-- A user has one Common at most. -/
def OneCommon : Prop :=
  ∀ a ∈ db.categories.rows, ∀ b ∈ db.categories.rows, a.IsCommon → b.IsCommon → a.scope = b.scope → a = b

/-- The name of the Common is its own. -/
def CommonName : Prop :=
  ∀ category ∈ db.categories.rows, normalizeForDedup lib category.name = commonNameNormalized lib → category.IsCommon

/-- A fact lies in a category of its user. -/
def OwnFacts : Prop :=
  ∀ memory ∈ db.memories.rows, ∃ category ∈ db.categories.rows, category.id = memory.categoryId ∧ category.scope = memory.scope

/-- The categories of a user have different names. -/
def NamesDiffer : Prop :=
  ∀ a ∈ db.categories.rows, ∀ b ∈ db.categories.rows, a.scope = b.scope →
    normalizeForDedup lib a.name = normalizeForDedup lib b.name → a = b

variable {lib db}

theorem oneCommon (db : MemoryDb) : db.OneCommon := by
  intro a ha b hb hacommon hbcommon hscope
  refine List.inj_on_of_nodup_map db.integrity.oneSystem ?_ ?_ hscope
  · exact List.mem_filter.mpr ⟨ha, hacommon.1⟩
  · exact List.mem_filter.mpr ⟨hb, hbcommon.1⟩

theorem commonName_of_sound (h : MemoryState.SoundRows lib db.categories.rows) : db.CommonName lib := by
  intro category hmem hname
  cases hsystem : category.isSystem with
  | true => exact ⟨hsystem, (h.common category hmem hsystem).1⟩
  | false => exact absurd hname (h.user category hmem hsystem)

theorem namesDiffer_of_normalized (h : MemoryState.Normalized lib db.categories.rows) : db.NamesDiffer lib := by
  intro a ha b hb hscope hname
  refine List.inj_on_of_nodup_map db.integrity.name ha hb ?_
  rw [hscope, h a ha, h b hb, hname]

end MemoryDb

/-- **Memory categories**: in every run a user has one Common at most, its name is its own, a fact lies in a category of its
user, and a deletion takes a category with as many facts as was confirmed, or nothing. While every rename meets the
condition the names of a user differ; the rename that does not meet it leaves a name whose normal form is another. -/
theorem memory_runs {ι : Type} [DecidableEq ι] (lib : Morphology) (calls : ι → MemoryCall) :
    (∀ s, (MemoryState.transactions lib calls).Reachable s → s.db.OneCommon ∧ s.db.CommonName lib ∧ s.db.OwnFacts) ∧
    (∀ s s' t newId newMemoryId scope categoryId confirmCount, (MemoryState.transactions lib calls).Reachable s →
      (MemoryState.transactions lib calls).step s (.statement t newId newMemoryId) s' →
      calls t = .deleteCategory scope categoryId confirmCount →
      s'.db = s.db ∧
          (∀ facts, s'.stage t = .done (.categoryDeleted facts) → s.stage t = .done (.categoryDeleted facts)) ∨
        s.db.Deletes s'.db scope categoryId confirmCount ∧
          ∃ facts : ℕ, s'.stage t = .done (.categoryDeleted facts) ∧ (facts : ℤ) = confirmCount) ∧
    (∀ s, (MemoryState.current lib calls).Reachable s → s.db.NamesDiffer lib) ∧
    (∀ s act s', (MemoryState.current lib calls).Reachable s → (MemoryState.transactions lib calls).step s act s' →
      (MemoryState.Normalized lib s'.db.categories.rows ↔ s.Current lib calls act)) := by
  refine ⟨?_, ?_, ?_, ?_⟩
  · intro s hreach
    have hinv := MemoryState.inv_of_reachable hreach
    exact ⟨s.db.oneCommon, MemoryDb.commonName_of_sound hinv.rows, s.db.integrity.category⟩
  · rintro s s' t newId newMemoryId scope categoryId confirmCount hreach ⟨-, rfl⟩ hcall
    have hdelete := MemoryState.delete_statement (MemoryState.inv_of_reachable hreach) newId newMemoryId hcall
    simp only [MemoryState.next, Function.update_self]
    exact hdelete
  · intro s hreach
    exact MemoryDb.namesDiffer_of_normalized (MemoryState.normalInv_of_reachable hreach).rows
  · rintro s act s' hreach ⟨-, rfl⟩
    have hinv := MemoryState.normalInv_of_reachable hreach
    exact ⟨MemoryState.current_of_normalized, fun hcurrent => (hinv.next hcurrent).rows⟩

/-- A morphology that is the real one on the names below. -/
def exampleMorphology : Morphology where
  nfc := id
  lower := PyText.lower
  lemmatizeWord word := if word = "общее".toList then "общий".toList else word

/-- The user below. -/
def forester : MemoryScope := ⟨"t", "u"⟩

/-- Two renames of one category, and a new category with its first name. -/
def forestCalls : Fin 3 → MemoryCall
  | 0 => .renameCategory forester "c1" "Лес"
  | 1 => .renameCategory forester "c1" "дом"
  | 2 => .createCategory forester "лес"

/-- One category. -/
def forestDb : MemoryDb where
  categories := ⟨[newCategory forester "c1" "лес" "лес"], by decide⟩
  memories := .empty
  integrity := by decide

/-- **Two categories of one name**: a rename to «Лес» has read «лес», and comes after a rename to «дом». -/
theorem renamed_twice :
    ∃ s, (MemoryState.transactions exampleMorphology forestCalls).Reachable s ∧ ¬ s.db.NamesDiffer exampleMorphology := by
  let s₀ : MemoryState (Fin 3) := ⟨forestDb, ["c1"], fun _ => .begun⟩
  let acts : List (MemoryAct (Fin 3)) :=
    [.statement 0 "n1" "m1", .statement 1 "n2" "m2", .statement 1 "n3" "m3", .statement 0 "n4" "m4", .statement 2 "c2" "m5"]
  have hinit : (MemoryState.transactions exampleMorphology forestCalls).init s₀ := by
    refine ⟨⟨by decide +kernel, by decide +kernel⟩, ?_, by decide, fun _ => rfl⟩
    unfold MemoryState.Normalized
    decide +kernel
  have hrows : (acts.foldlM (MemoryState.exec exampleMorphology forestCalls) s₀).map (·.db.categories.rows) =
      some [newCategory forester "c1" "Лес" "дом", newCategory forester "c2" "лес" "лес"] := by
    decide +kernel
  obtain ⟨s, hrun, hs⟩ := Option.map_eq_some_iff.mp hrows
  have hreach := (Lts.Hist.init hinit).trans (Lts.Run.of_foldlM (fun _ _ _ _ => MemoryState.step_of_exec _ _) hrun)
  refine ⟨s, hreach.reachable, fun hdiffer => ?_⟩
  have heq := hdiffer (newCategory forester "c1" "Лес" "дом") (by rw [hs]; simp) (newCategory forester "c2" "лес" "лес")
    (by rw [hs]; simp) rfl (by decide +kernel)
  exact absurd heq (by decide)

end Sreda.Services
