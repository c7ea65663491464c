import Mathlib.Data.List.Induction
import Mathlib.Data.List.Sort
import Sreda.Services.RecipeItems
import Sreda.Services.Tasks

/-!
# A batch of recipes

`services/housewife_recipes.py`: `save_recipes_batch`. The session holds the committed rows and those that the open
transaction has added; a flush that the database refuses rolls the transaction back. The writer has a cache of the user's
recipes, and a call may find it older than the book. The ids and times of new recipes are given in the order in which they
are made; a row remembers whether this writer made it.

## What is proved

* a call does what it should if and only if no item that it reaches has a field that raises, the database takes the new rows,
  and no new title, cut to 500 characters, has the normal form of one that the writer made before (`meets_iff`).
-/

namespace Sreda.Services.Recipes

open Sreda.Lib.PyText

/-! ### Rows -/

structure Recipe where
  id : String
  tenantId : String
  userId : String
  title : Text
  instructionsMd : RawField
  servings : ℤ
  cookingTimeMinutes : Option ℤ
  caloriesPerServing : Option RawFloat
  proteinPerServing : Option RawFloat
  fatPerServing : Option RawFloat
  carbsPerServing : Option RawFloat
  source : String
  sourceUrl : RawField
  tagsJson : Option Text
  createdAt : ℤ
  operationId : Option String
  normalizedTitleHash : Option String
  /-- `save_recipes_batch` made the row. -/
  byBatch : Bool

structure RecipeIngredient where
  recipeId : String
  tenantId : String
  title : Text
  quantityText : Option Text
  isOptional : Bool
  sortOrder : ℕ

structure RecipeTables where
  recipes : List Recipe
  ingredients : List RecipeIngredient

structure RecipeSession where
  committed : RecipeTables
  /-- What the open transaction has added. -/
  added : RecipeTables

/-- The recipes that the session sees. -/
def RecipeSession.recipes (s : RecipeSession) : List Recipe := s.committed.recipes ++ s.added.recipes

/-- What a call finds around it. -/
structure RecipeEnv where
  py : RecipePy
  /-- `current_tool_runtime()`. -/
  ctx : Option ToolRuntimeContext
  /-- `compute_operation_id_create` of a plan, a step and the key of a recipe. -/
  operationId : String → String → Text → String
  normalizeForDedup : Text → Text
  /-- `compute_normalized_title_hash` of a title, a tenant and a user; empty is none. -/
  titleHash : Text → String → String → Option String
  /-- The database takes the row. -/
  takesRecipe : Recipe → Bool
  takesIngredient : RecipeIngredient → Bool
  /-- The id and the time of each new recipe. -/
  fresh : ℕ → String × ℤ

/-- `session.flush()`: the rows of the transaction go to the database, or it is rolled back. -/
def RecipeSession.flush (env : RecipeEnv) (s : RecipeSession) : Except (RecipeError × RecipeSession) RecipeSession :=
  if s.added.recipes.all env.takesRecipe ∧ s.added.ingredients.all env.takesIngredient then .ok s
  else .error (.database, { s with added := ⟨[], []⟩ })

/-- `session.commit()`, after a flush. -/
def RecipeSession.commit (s : RecipeSession) : RecipeSession where
  committed := ⟨s.recipes, s.committed.ingredients ++ s.added.ingredients⟩
  added := ⟨[], []⟩

/-! ### One item -/

inductive Outcome where
  | created (recipe : Recipe)
  | skippedExisting (recipe : Recipe)
  | duplicateInBatch (title : Text)
  | invalid (title : Text)

/-- The variables of the loop. -/
structure BatchState where
  /-- `existing_index`, in the order of its keys. -/
  index : List (Text × Recipe)
  seen : List Text
  session : RecipeSession
  /-- How many recipes the call has made. -/
  made : ℕ

/-- An exception leaves the session as it is. -/
def BatchState.read {α : Type} (b : BatchState) : Except RecipeError α → Except (RecipeError × RecipeSession) α
  | .ok a => .ok a
  | .error e => .error (e, b.session)

section Loop

variable (env : RecipeEnv) (tenantId userId : String)

/-- The recipe with the same normal form, or the first one with a similar title. -/
def findExisting (index : List (Text × Recipe)) (title : Text) : Option Recipe :=
  match index.lookup (normaliseTitle env.py title) with
  | some row => some row
  | none => (index.find? fun entry => areTitlesSimilar env.py title entry.2.title).map Prod.snd

/-- The operation id of a new recipe. -/
def newOperationId (title : Text) : Option String :=
  env.ctx.map fun ctx => env.operationId ctx.executionId ctx.stepId (env.normalizeForDedup title)

/-- The operation id is that of a recipe of the user. -/
def operationTaken (session : RecipeSession) (title : Text) : Bool :=
  (newOperationId env title).any fun operationId => session.recipes.any fun row =>
    row.tenantId = tenantId ∧ row.userId = userId ∧ row.operationId = some operationId

/-- The new row. -/
def newRecipe (made : ℕ) (pairs : List (Text × RawField)) (title : Text) (source : String) (servings : ℤ) (time : Option ℤ) :
    Except RecipeError Recipe := do
  let calories ← cleanNutrient env.py (field "calories_per_serving" pairs)
  let protein ← cleanNutrient env.py (field "protein_per_serving" pairs)
  let fat ← cleanNutrient env.py (field "fat_per_serving" pairs)
  let carbs ← cleanNutrient env.py (field "carbs_per_serving" pairs)
  .ok {
    id := (env.fresh made).1, tenantId, userId, title := title.take 500
    instructionsMd := if (field "instructions_md" pairs).truthy then field "instructions_md" pairs else .none
    servings, cookingTimeMinutes := time, caloriesPerServing := calories, proteinPerServing := protein
    fatPerServing := fat, carbsPerServing := carbs, source
    sourceUrl := if (field "source_url" pairs).truthy then field "source_url" pairs else .none
    tagsJson := tagsJson env.py (field "tags" pairs), createdAt := (env.fresh made).2
    operationId := newOperationId env title
    normalizedTitleHash := env.ctx.bind fun _ => env.titleHash title tenantId userId, byBatch := true }

def ingredientRows (recipe : Recipe) (ingredients : List IngredientInput) : List RecipeIngredient :=
  ingredients.zipIdx.map fun (ingredient, i) =>
    ⟨recipe.id, recipe.tenantId, ingredient.title, ingredient.quantityText, ingredient.isOptional, i⟩

/-- The row goes to the session and is flushed. -/
def RecipeSession.addRecipe (s : RecipeSession) (recipe : Recipe) : RecipeSession :=
  { s with added := { s.added with recipes := s.added.recipes ++ [recipe] } }

def RecipeSession.addIngredients (s : RecipeSession) (rows : List RecipeIngredient) : RecipeSession :=
  { s with added := { s.added with ingredients := s.added.ingredients ++ rows } }

/-- An item whose title is new. -/
def createItem (b : BatchState) (pairs : List (Text × RawField)) (title : Text) (source : String) (servings : ℤ) :
    Except (RecipeError × RecipeSession) (BatchState × Option Outcome) := do
  let ingredients ← b.read (normaliseIngredients (field "ingredients" pairs))
  let time ← b.read (cookingTime (field "cooking_time_minutes" pairs))
  if operationTaken env tenantId userId b.session title then .ok (b, some (.duplicateInBatch title))
  else do
    let recipe ← b.read (newRecipe env tenantId userId b.made pairs title source servings time)
    let session ← (b.session.addRecipe recipe).flush env
    .ok ({
      index := b.index ++ [(normaliseTitle env.py title, recipe)], seen := b.seen, made := b.made + 1
      session := session.addIngredients (ingredientRows recipe ingredients) }, some (.created recipe))

/-- The body of the loop. -/
def processItem (b : BatchState) : RawField → Except (RecipeError × RecipeSession) (BatchState × Option Outcome)
  | .dict pairs => do
    let title ← b.read (textOr (field "title" pairs))
    if title = [] then .ok (b, none)
    else
      match knownSource (field "source" pairs) with
      | none => .ok (b, some (.invalid title))
      | some source => do
        let servings ← b.read (servings (field "servings" pairs))
        let key := normaliseTitle env.py title
        if key ∈ b.seen then .ok (b, some (.duplicateInBatch title))
        else
          let b := { b with seen := key :: b.seen }
          match findExisting env b.index title with
          | some row => .ok (b, some (.skippedExisting row))
          | none => createItem env tenantId userId b pairs title source servings
  | _ => .ok (b, none)

def processAll : BatchState → List RawField → Except (RecipeError × RecipeSession) (BatchState × List Outcome)
  | b, [] => .ok (b, [])
  | b, raw :: rest => do
    let (b, outcome) ← processItem env tenantId userId b raw
    let (b, outcomes) ← processAll b rest
    .ok (b, outcome.toList ++ outcomes)

end Loop

/-! ### The call -/

structure SaveRecipesBatchResult where
  created : List Recipe
  skippedExisting : List Recipe
  duplicatesInBatch : List Text
  invalid : List Text

/-- The lists of the result, each in the order of the items. -/
def SaveRecipesBatchResult.ofOutcomes (outcomes : List Outcome) : SaveRecipesBatchResult where
  created := outcomes.filterMap fun | .created r => some r | _ => none
  skippedExisting := outcomes.filterMap fun | .skippedExisting r => some r | _ => none
  duplicatesInBatch := outcomes.filterMap fun | .duplicateInBatch t => some t | _ => none
  invalid := outcomes.filterMap fun | .invalid t => some t | _ => none

/-- `HousewifeRecipeService`. -/
structure RecipeService where
  session : RecipeSession
  /-- `_owned_cache`. -/
  owned : String → String → Option (List Recipe)

section Call

variable (env : RecipeEnv) (tenantId userId : String)

/-- `_load_owned_recipes`. -/
def RecipeService.loadOwned (s : RecipeService) : List Recipe :=
  (s.session.recipes.filter fun row => row.tenantId = tenantId ∧ row.userId = userId).insertionSort fun a b =>
    b.createdAt ≤ a.createdAt

/-- `_get_owned_recipes`. -/
def RecipeService.getOwned (s : RecipeService) : List Recipe := (s.owned tenantId userId).getD (s.loadOwned tenantId userId)

def RecipeService.setOwned (s : RecipeService) (rows : Option (List Recipe)) : RecipeService :=
  { s with owned := fun tenant user => if tenant = tenantId ∧ user = userId then rows else s.owned tenant user }

/-- `_existing_by_normalised_title`: the first of several with a normal form. -/
def existingIndex (rows : List Recipe) : List (Text × Recipe) :=
  rows.foldl (fun index row =>
    let key := normaliseTitle env.py row.title
    if key ∈ index.map Prod.fst then index else index ++ [(key, row)]) []

/-- What is checked before the first item. -/
def checkContext : Option RecipeError :=
  env.ctx.bind fun ctx =>
    if userId = "" then some .userRequired
    else if ctx.tenantId ≠ "" ∧ ctx.tenantId ≠ tenantId then some .foreignTenant
    else none

/-- The loop before its first item. -/
def RecipeService.start (s : RecipeService) : BatchState :=
  ⟨existingIndex env (s.getOwned tenantId userId), [], s.session, 0⟩

/-- `save_recipes_batch`. -/
def saveRecipesBatch (s : RecipeService) (recipes : List RawField) :
    RecipeService × Except RecipeError SaveRecipesBatchResult :=
  let cached := s.setOwned tenantId userId (some (s.getOwned tenantId userId))
  match checkContext env tenantId userId with
  | some e => (cached, .error e)
  | none =>
    match processAll env tenantId userId (s.start env tenantId userId) recipes with
    | .error (e, session) => ({ cached with session }, .error e)
    | .ok (b, outcomes) =>
      let result := SaveRecipesBatchResult.ofOutcomes outcomes
      if b.made = 0 then ({ cached with session := b.session }, .ok result)
      else
        match b.session.flush env with
        | .error (e, session) => ({ cached with session }, .error e)
        | .ok session => ({ (cached.setOwned tenantId userId none) with session := session.commit }, .ok result)

end Call

/-! ### When an item is read -/

variable {pairs : List (Text × RawField)} {title : Text} {source : String} {raw : RawField} {outcome : Option Outcome}
variable {py : RecipePy} {outcomes : List Outcome} {raws : List RawField}

section Items

variable {env : RecipeEnv} {tenantId userId : String} {b b' : BatchState}

theorem bind_ok_iff {ε α β : Type} {x : Except ε α} {f : α → Except ε β} :
    (∃ r, (x >>= f) = .ok r) ↔ ∃ a, x = .ok a ∧ ∃ r, f a = .ok r := by
  cases x <;> simp [bind, Except.bind]

theorem read_ok {α : Type} {x : Except RecipeError α} {a : α} : b.read x = .ok a ↔ x = .ok a := by
  cases x <;> simp [BatchState.read]

/-- The database takes what the transaction has added. -/
def RecipeSession.Taken (env : RecipeEnv) (s : RecipeSession) : Prop :=
  s.added.recipes.all env.takesRecipe = true ∧ s.added.ingredients.all env.takesIngredient = true

theorem flush_ok {s s' : RecipeSession} : s.flush env = .ok s' ↔ s.Taken env ∧ s' = s := by
  unfold RecipeSession.flush RecipeSession.Taken
  split
  next h => simp [h, eq_comm]
  next h =>
    constructor
    · intro heq
      cases heq
    · rintro ⟨htaken, -⟩
      exact absurd htaken h

/-- The nutrients are no integers that are too large for a float. -/
def nutrientsReadable (py : RecipePy) (pairs : List (Text × RawField)) : Bool :=
  (field "calories_per_serving" pairs).fitsFloat py && (field "protein_per_serving" pairs).fitsFloat py &&
    (field "fat_per_serving" pairs).fitsFloat py && (field "carbs_per_serving" pairs).fitsFloat py

theorem newRecipe_ok_iff {made : ℕ} {servings : ℤ}
    {time : Option ℤ} : (∃ r, newRecipe env tenantId userId made pairs title source servings time = .ok r) ↔
      nutrientsReadable env.py pairs = true := by
  simp only [newRecipe, nutrientsReadable, Bool.and_eq_true, ← cleanNutrient_ok_iff, bind_ok_iff]
  simp [and_assoc]

/-- What the row of a new recipe has of its item. -/
theorem newRecipe_spec {made : ℕ} {servings : ℤ}
    {time : Option ℤ} {r : Recipe} (h : newRecipe env tenantId userId made pairs title source servings time = .ok r) :
    r.title = title.take 500 ∧ r.tenantId = tenantId ∧ r.userId = userId ∧ r.byBatch = true := by
  unfold newRecipe at h
  cases hcalories : cleanNutrient env.py (field "calories_per_serving" pairs) <;> simp only [hcalories, bind, Except.bind] at h
  · cases h
  cases hprotein : cleanNutrient env.py (field "protein_per_serving" pairs) <;> simp only [hprotein] at h
  · cases h
  cases hfat : cleanNutrient env.py (field "fat_per_serving" pairs) <;> simp only [hfat] at h
  · cases h
  cases hcarbs : cleanNutrient env.py (field "carbs_per_serving" pairs) <;> simp only [hcarbs] at h
  · cases h
  cases h
  exact ⟨rfl, rfl, rfl, rfl⟩

/-- Nothing that is read of an item with a new title raises, and the database takes its row. -/
def CreateReads (env : RecipeEnv) (tenantId userId : String) (b : BatchState) (pairs : List (Text × RawField)) (title : Text)
    (source : String) (servings : ℤ) : Prop :=
  (field "ingredients" pairs).ingredientsReadable = true ∧ (field "cooking_time_minutes" pairs).notInfinite = true ∧
    (operationTaken env tenantId userId b.session title = false → nutrientsReadable env.py pairs = true ∧
      ∀ time recipe, cookingTime (field "cooking_time_minutes" pairs) = .ok time →
        newRecipe env tenantId userId b.made pairs title source servings time = .ok recipe →
          (b.session.addRecipe recipe).Taken env)

theorem createItem_ok_iff {servings : ℤ} :
    (∃ r, createItem env tenantId userId b pairs title source servings = .ok r) ↔
      CreateReads env tenantId userId b pairs title source servings := by
  rw [createItem, CreateReads, ← normaliseIngredients_ok_iff, ← cookingTime_ok_iff]
  simp only [bind_ok_iff, read_ok]
  cases hingredients : normaliseIngredients (field "ingredients" pairs) with
  | error e => simp
  | ok ingredients =>
    cases htime : cookingTime (field "cooking_time_minutes" pairs) with
    | error e => simp
    | ok time =>
      cases htaken : operationTaken env tenantId userId b.session title with
      | true => simp
      | false =>
        have hreadable : (∃ r, newRecipe env tenantId userId b.made pairs title source servings time = .ok r) ↔
            nutrientsReadable env.py pairs = true := newRecipe_ok_iff
        cases hrecipe : newRecipe env tenantId userId b.made pairs title source servings time with
        | error e => simp [← hreadable, hrecipe, bind_ok_iff, read_ok]
        | ok recipe =>
          simp only [← hreadable, hrecipe, bind_ok_iff, read_ok, flush_ok, Except.ok.injEq, exists_eq_left', true_and,
            exists_eq', forall_true_left, Bool.false_eq_true, if_false, and_true, exists_and_left]
          constructor
          · rintro ⟨htaken, -⟩ _ other rfl hother
            rw [hrecipe] at hother
            cases hother
            exact htaken
          · exact fun h => ⟨h time recipe rfl hrecipe, _, rfl⟩

/-! ### What an item does -/

/-- The title of an item, when it is a text that is not blank. -/
def titleOf : RawField → Option Text
  | .dict pairs =>
    match textOr (field "title" pairs) with
    | .ok (c :: title) => some (c :: title)
    | _ => none
  | _ => none

/-- The body of the loop, for an item with a title and a known source. -/
def processTitle (env : RecipeEnv) (tenantId userId : String) (b : BatchState) (pairs : List (Text × RawField)) (title : Text)
    (source : String) : Except (RecipeError × RecipeSession) (BatchState × Option Outcome) := do
  let servings ← b.read (servings (field "servings" pairs))
  if normaliseTitle env.py title ∈ b.seen then .ok (b, some (.duplicateInBatch title))
  else
    match findExisting env b.index title with
    | some row => .ok ({ b with seen := normaliseTitle env.py title :: b.seen }, some (.skippedExisting row))
    | none =>
      createItem env tenantId userId { b with seen := normaliseTitle env.py title :: b.seen } pairs title source servings

theorem processItem_dict : processItem env tenantId userId b (.dict pairs) = match textOr (field "title" pairs) with
    | .error e => .error (e, b.session)
    | .ok title =>
      if title = [] then .ok (b, none)
      else
        match knownSource (field "source" pairs) with
        | none => .ok (b, some (.invalid title))
        | some source => processTitle env tenantId userId b pairs title source := by
  rw [processItem]
  cases textOr (field "title" pairs) <;> rfl

/-- Nothing that is read of the item raises, and the database takes its row if it is new. -/
def Reads (env : RecipeEnv) (tenantId userId : String) (b : BatchState) : RawField → Prop
  | .dict pairs => (field "title" pairs).textual = true ∧ ∀ title source, titleOf (.dict pairs) = some title →
      knownSource (field "source" pairs) = some source →
        ((field "servings" pairs).truthy = false ∨ (field "servings" pairs).intReadable = true) ∧
        ∀ n, servings (field "servings" pairs) = .ok n → normaliseTitle env.py title ∉ b.seen →
          findExisting env b.index title = none →
            CreateReads env tenantId userId { b with seen := normaliseTitle env.py title :: b.seen } pairs title source n
  | _ => True

theorem processTitle_ok_iff : (∃ r, processTitle env tenantId userId b pairs title source = .ok r) ↔
      ((field "servings" pairs).truthy = false ∨ (field "servings" pairs).intReadable = true) ∧
        ∀ n, servings (field "servings" pairs) = .ok n → normaliseTitle env.py title ∉ b.seen →
          findExisting env b.index title = none →
            CreateReads env tenantId userId { b with seen := normaliseTitle env.py title :: b.seen } pairs title source n := by
  rw [processTitle, bind_ok_iff, ← servings_ok_iff]
  simp only [read_ok]
  cases hservings : servings (field "servings" pairs) with
  | error e => simp
  | ok n =>
    by_cases hseen : normaliseTitle env.py title ∈ b.seen
    · simp [hseen]
    · cases hfound : findExisting env b.index title with
      | some row => simp [hseen]
      | none => simp [hseen, createItem_ok_iff, -Prod.exists]

theorem processItem_ok_iff :
    (∃ r, processItem env tenantId userId b raw = .ok r) ↔ Reads env tenantId userId b raw := by
  cases raw with
  | dict pairs =>
    rw [processItem_dict, Reads, ← textOr_ok_iff]
    cases htitle : textOr (field "title" pairs) with
    | error e => simp
    | ok title =>
      cases title with
      | nil => simp [titleOf, htitle]
      | cons c title =>
        cases hsource : knownSource (field "source" pairs) with
        | none => simp
        | some source => simp [titleOf, htitle, processTitle_ok_iff, -Prod.exists]
  | _ => simp [processItem, Reads]

/-- The normal forms of the titles that this writer has made for the user. -/
def batchKeys (py : RecipePy) (tenantId userId : String) (s : RecipeSession) : List Text :=
  (s.recipes.filter fun row => row.byBatch ∧ row.tenantId = tenantId ∧ row.userId = userId).map fun row =>
    normaliseTitle py row.title

/-- A title is new: not in the batch before, and not in the index, nor is its operation id taken. -/
structure NewTitle (env : RecipeEnv) (tenantId userId : String) (b : BatchState) (title : Text) : Prop where
  notSeen : normaliseTitle env.py title ∉ b.seen
  notFound : findExisting env b.index title = none
  notTaken : operationTaken env tenantId userId b.session title = false

/-- The title of an item is new and its source known, so a row is made of it. -/
def MakesRow (env : RecipeEnv) (tenantId userId : String) (b : BatchState) (raw : RawField) (title : Text) : Prop :=
  titleOf raw = some title ∧ NewTitle env tenantId userId b title ∧
    ∃ pairs source, raw = .dict pairs ∧ knownSource (field "source" pairs) = some source

/-- An item that is left out for what it is itself: without a title, or of an unknown source. -/
def Dropped (raw : RawField) : Prop :=
  ∀ pairs title, raw = .dict pairs → titleOf raw = some title → knownSource (field "source" pairs) = none

/-- What an outcome says of the title of its item. -/
def Outcome.Answers (title : Text) : Outcome → Prop
  | .created row => row.title = title.take 500
  | .skippedExisting _ => True
  | .duplicateInBatch t | .invalid t => t = title

theorem titleOf_eq_none (h : textOr (field "title" pairs) = .ok []) : titleOf (.dict pairs) = none := by
  rw [titleOf, h]

theorem titleOf_eq_some (h : textOr (field "title" pairs) = .ok title)
    (hne : title ≠ []) : titleOf (.dict pairs) = some title := by
  obtain ⟨c, t, rfl⟩ := List.exists_cons_of_ne_nil hne
  rw [titleOf, h]

/-- One more row is made, at the end of the session. -/
structure Made (env : RecipeEnv) (tenantId userId : String) (b : BatchState) (title : Text) (b' : BatchState) (row : Recipe) :
    Prop where
  title_eq : row.title = title.take 500
  tenant_eq : row.tenantId = tenantId
  user_eq : row.userId = userId
  byBatch : row.byBatch = true
  session : ∃ rows, b'.session = (b.session.addRecipe row).addIngredients rows
  made : b'.made = b.made + 1
  index : b'.index = b.index ++ [(normaliseTitle env.py title, row)]

/-- No row is made. -/
structure Kept (b b' : BatchState) : Prop where
  session : b'.session = b.session
  made : b'.made = b.made
  index : b'.index = b.index

theorem createItem_cases {servings : ℤ}
    (h : createItem env tenantId userId b pairs title source servings = .ok (b', outcome)) :
    operationTaken env tenantId userId b.session title = true ∧ b' = b ∧ outcome = some (.duplicateInBatch title) ∨
    operationTaken env tenantId userId b.session title = false ∧
      ∃ row, outcome = some (.created row) ∧ Made env tenantId userId b title b' row := by
  unfold createItem at h
  cases hingredients : b.read (normaliseIngredients (field "ingredients" pairs)) with
  | error e => simp [hingredients, bind, Except.bind] at h
  | ok ingredients =>
    cases htime : b.read (cookingTime (field "cooking_time_minutes" pairs)) with
    | error e => simp [hingredients, htime, bind, Except.bind] at h
    | ok time =>
      simp only [hingredients, htime, bind, Except.bind] at h
      split_ifs at h with htaken
      · cases h
        exact .inl ⟨htaken, rfl, rfl⟩
      · cases hrecipe : b.read (newRecipe env tenantId userId b.made pairs title source servings time) with
        | error e => simp [hrecipe] at h
        | ok row =>
          cases hflush : (b.session.addRecipe row).flush env with
          | error e => simp [hrecipe, hflush] at h
          | ok session =>
            simp only [hrecipe, hflush] at h
            cases h
            obtain ⟨htitle, htenant, huser, hbatch⟩ := newRecipe_spec (read_ok.mp hrecipe)
            obtain ⟨-, rfl⟩ := flush_ok.mp hflush
            exact .inr ⟨eq_false_of_ne_true htaken, row, rfl, htitle, htenant, huser, hbatch, ⟨_, rfl⟩, rfl, rfl⟩

theorem processTitle_cases (h : processTitle env tenantId userId b pairs title source = .ok (b', outcome)) :
    (¬ NewTitle env tenantId userId b title ∧ Kept b b' ∧
      ∃ answer, outcome = some answer ∧ answer.Answers title ∧ ∀ row, answer ≠ .created row) ∨
    NewTitle env tenantId userId b title ∧ ∃ row, outcome = some (.created row) ∧ Made env tenantId userId b title b' row := by
  unfold processTitle at h
  cases hservings : b.read (servings (field "servings" pairs)) with
  | error e => simp [hservings, bind, Except.bind] at h
  | ok n =>
    simp only [hservings, bind, Except.bind] at h
    split_ifs at h with hseen
    · cases h
      exact .inl ⟨fun hnew => hnew.notSeen hseen, ⟨rfl, rfl, rfl⟩, _, rfl, rfl, fun _ => nofun⟩
    · cases hfound : findExisting env b.index title with
      | some row =>
        simp only [hfound] at h
        cases h
        refine .inl ⟨fun hnew => ?_, ⟨rfl, rfl, rfl⟩, _, rfl, trivial, fun _ => nofun⟩
        rw [hnew.notFound] at hfound
        cases hfound
      | none =>
        simp only [hfound] at h
        rcases createItem_cases h with ⟨htaken, rfl, rfl⟩ | ⟨htaken, row, rfl, hmade⟩
        · refine .inl ⟨fun hnew => ?_, ⟨rfl, rfl, rfl⟩, _, rfl, rfl, fun _ => nofun⟩
          have hfree := hnew.notTaken
          rw [htaken] at hfree
          cases hfree
        · exact .inr ⟨⟨hseen, hfound, htaken⟩, row, rfl, ⟨hmade.title_eq, hmade.tenant_eq, hmade.user_eq, hmade.byBatch,
            hmade.session, hmade.made, hmade.index⟩⟩

/-- **What one item does**: nothing, an outcome without a row, or a new row. -/
theorem processItem_cases (h : processItem env tenantId userId b raw = .ok (b', outcome)) :
    (titleOf raw = none ∧ b' = b ∧ outcome = none) ∨
    ∃ title answer, titleOf raw = some title ∧ outcome = some answer ∧ answer.Answers title ∧
      ((Kept b b' ∧ ¬ MakesRow env tenantId userId b raw title ∧ ∀ row, answer ≠ .created row) ∨
        MakesRow env tenantId userId b raw title ∧ ∃ row, answer = .created row ∧ Made env tenantId userId b title b' row) := by
  cases raw with
  | dict pairs =>
    rw [processItem_dict] at h
    cases htitle : textOr (field "title" pairs) with
    | error e => simp [htitle] at h
    | ok title =>
      simp only [htitle] at h
      split_ifs at h with hblank
      · subst hblank
        cases h
        exact .inl ⟨titleOf_eq_none htitle, rfl, rfl⟩
      · have hsome := titleOf_eq_some htitle hblank
        refine .inr ?_
        cases hsource : knownSource (field "source" pairs) with
        | none =>
          simp only [hsource] at h
          cases h
          refine ⟨title, _, hsome, rfl, rfl, .inl ⟨⟨rfl, rfl, rfl⟩, ?_, fun _ => nofun⟩⟩
          rintro ⟨-, -, _, source, ⟨⟩, hknown⟩
          rw [hsource] at hknown
          cases hknown
        | some source =>
          simp only [hsource] at h
          rcases processTitle_cases h with ⟨hold, hkept, answer, rfl, hanswers, hne⟩ | ⟨hnew, row, rfl, hmade⟩
          · exact ⟨title, answer, hsome, rfl, hanswers, .inl ⟨hkept, fun hmakes => hold hmakes.2.1, hne⟩⟩
          · exact ⟨title, _, hsome, rfl, hmade.title_eq, .inr ⟨⟨hsome, hnew, pairs, source, rfl, hsource⟩, row, rfl, hmade⟩⟩
  | _ =>
    cases h
    exact .inl ⟨rfl, rfl, rfl⟩

/-- A dropped item changes nothing, and its outcome says only that it is invalid. -/
theorem processItem_dropped (hdropped : Dropped raw)
    (h : processItem env tenantId userId b raw = .ok (b', outcome)) : b' = b ∧ ∀ answer, outcome = some answer →
      ∃ title, answer = .invalid title := by
  cases raw with
  | dict pairs =>
    rw [processItem_dict] at h
    cases htitle : textOr (field "title" pairs) with
    | error e => simp [htitle] at h
    | ok title =>
      simp only [htitle] at h
      split_ifs at h with hblank
      · cases h
        simp
      · have hsource := hdropped pairs title rfl (titleOf_eq_some htitle hblank)
        simp only [hsource] at h
        cases h
        refine ⟨rfl, ?_⟩
        rintro _ ⟨⟩
        exact ⟨title, rfl⟩
  | _ =>
    cases h
    simp

/-! ### The keys of the rows -/

theorem batchKeys_of_made {row : Recipe} (h : Made env tenantId userId b title b' row)
    (tenant user : String) : batchKeys py tenant user b'.session = batchKeys py tenant user b.session ++
      if tenantId = tenant ∧ userId = user then [normaliseTitle py (title.take 500)] else [] := by
  obtain ⟨rows, hsession⟩ := h.session
  have hrecipes : b'.session.recipes = b.session.recipes ++ [row] := by
    rw [hsession]
    simp [RecipeSession.recipes, RecipeSession.addIngredients, RecipeSession.addRecipe]
  rw [batchKeys, hrecipes, List.filter_append, List.map_append, batchKeys]
  congr 1
  by_cases hkey : tenantId = tenant ∧ userId = user
  · simp [h.byBatch, h.tenant_eq, h.user_eq, hkey, h.title_eq]
  · rw [if_neg hkey, List.filter_cons_of_neg (by simpa [h.byBatch, h.tenant_eq, h.user_eq] using hkey)]
    rfl

theorem batchKeys_of_kept (h : Kept b b') (tenant user : String) :
    batchKeys py tenant user b'.session = batchKeys py tenant user b.session := by
  rw [h.session]

/-! ### The loop -/

/-- The item is read, and a row that is made of it has a title of its own among those of this writer. -/
def Sound (env : RecipeEnv) (tenantId userId : String) (b : BatchState) (raw : RawField) : Prop :=
  Reads env tenantId userId b raw ∧ ∀ title, MakesRow env tenantId userId b raw title →
    normaliseTitle env.py (title.take 500) ∉ batchKeys env.py tenantId userId b.session

/-- Each item is sound when the loop reaches it. -/
def SoundAll (env : RecipeEnv) (tenantId userId : String) : BatchState → List RawField → Prop
  | _, [] => True
  | b, raw :: rest => Sound env tenantId userId b raw ∧
      ∀ b' outcome, processItem env tenantId userId b raw = .ok (b', outcome) → SoundAll env tenantId userId b' rest

theorem processAll_cons {rest : List RawField} :
    processAll env tenantId userId b (raw :: rest) = .ok (b', outcomes) ↔ ∃ b₁ outcome later,
      processItem env tenantId userId b raw = .ok (b₁, outcome) ∧
        processAll env tenantId userId b₁ rest = .ok (b', later) ∧ outcomes = outcome.toList ++ later := by
  rw [processAll]
  cases hitem : processItem env tenantId userId b raw with
  | error e => simp [bind, Except.bind]
  | ok r =>
    obtain ⟨b₁, outcome⟩ := r
    cases hrest : processAll env tenantId userId b₁ rest with
    | error e => simp [bind, Except.bind, hrest]
    | ok r =>
      obtain ⟨b₂, later⟩ := r
      simp [bind, Except.bind, hrest, eq_comm]

theorem processAll_append {before after : List RawField} :
    processAll env tenantId userId b (before ++ after) = .ok (b', outcomes) ↔ ∃ b₁ first later,
      processAll env tenantId userId b before = .ok (b₁, first) ∧
        processAll env tenantId userId b₁ after = .ok (b', later) ∧ outcomes = first ++ later := by
  induction before generalizing b outcomes with
  | nil => simp [processAll]
  | cons raw before ih =>
    rw [List.cons_append, processAll_cons]
    constructor
    · rintro ⟨b₁, outcome, later, hitem, hrest, rfl⟩
      obtain ⟨b₂, first, last, hbefore, hafter, rfl⟩ := ih.mp hrest
      exact ⟨b₂, _, last, processAll_cons.mpr ⟨b₁, outcome, first, hitem, hbefore, rfl⟩, hafter, (List.append_assoc ..).symm⟩
    · rintro ⟨b₂, _, last, hbefore, hafter, rfl⟩
      obtain ⟨b₁, outcome, first, hitem, hrest, rfl⟩ := processAll_cons.mp hbefore
      exact ⟨b₁, outcome, _, hitem, ih.mpr ⟨b₂, first, last, hrest, hafter, rfl⟩, List.append_assoc ..⟩

/-- **Every item with a title has one outcome**, in the order of the items. -/
theorem processAll_answers (h : processAll env tenantId userId b raws = .ok (b', outcomes)) :
    List.Forall₂ Outcome.Answers (raws.filterMap titleOf) outcomes := by
  induction raws generalizing b outcomes with
  | nil =>
    cases h
    exact .nil
  | cons raw rest ih =>
    obtain ⟨b₁, outcome, later, hitem, hrest, rfl⟩ := processAll_cons.mp h
    rcases processItem_cases hitem with ⟨hnone, -, rfl⟩ | ⟨title, answer, hsome, rfl, hanswers, -⟩
    · rw [List.filterMap_cons_none hnone]
      exact ih hrest
    · rw [List.filterMap_cons_some hsome]
      exact .cons hanswers (ih hrest)

/-- An item keeps the titles of this writer distinct if and only if it is sound. -/
theorem nodup_processItem (h : processItem env tenantId userId b raw = .ok (b', outcome)) :
    (batchKeys env.py tenantId userId b'.session).Nodup ↔ (batchKeys env.py tenantId userId b.session).Nodup ∧
      ∀ title, MakesRow env tenantId userId b raw title →
        normaliseTitle env.py (title.take 500) ∉ batchKeys env.py tenantId userId b.session := by
  rcases processItem_cases h with ⟨hnone, rfl, -⟩ | ⟨title, answer, hsome, -, -, ⟨hkept, hno, -⟩ | ⟨hmakes, row, -, hmade⟩⟩
  · refine ⟨fun hnodup => ⟨hnodup, ?_⟩, And.left⟩
    rintro title ⟨hsome, -⟩
    rw [hnone] at hsome
    cases hsome
  · rw [batchKeys_of_kept hkept]
    refine ⟨fun hnodup => ⟨hnodup, ?_⟩, And.left⟩
    rintro other hmakes
    have hother := hmakes.1
    rw [hsome] at hother
    cases hother
    exact absurd hmakes hno
  · rw [batchKeys_of_made hmade, if_pos ⟨rfl, rfl⟩, ← List.concat_eq_append, List.nodup_concat]
    constructor
    · rintro ⟨hfresh, hnodup⟩
      refine ⟨hnodup, ?_⟩
      rintro other ⟨hother, -⟩
      rw [hsome] at hother
      cases hother
      exact hfresh
    · rintro ⟨hnodup, hfresh⟩
      exact ⟨hfresh title hmakes, hnodup⟩

theorem nodup_of_processAll (h : processAll env tenantId userId b raws = .ok (b', outcomes))
    (hnodup : (batchKeys env.py tenantId userId b'.session).Nodup) : (batchKeys env.py tenantId userId b.session).Nodup := by
  induction raws generalizing b outcomes with
  | nil =>
    cases h
    exact hnodup
  | cons raw rest ih =>
    obtain ⟨b₁, outcome, later, hitem, hrest, -⟩ := processAll_cons.mp h
    exact ((nodup_processItem hitem).mp (ih hrest)).1

/-- **The loop ends with distinct titles** if and only if each item is sound when it is reached. -/
theorem soundAll_iff (hnodup : (batchKeys env.py tenantId userId b.session).Nodup) :
    SoundAll env tenantId userId b raws ↔ ∃ b' outcomes, processAll env tenantId userId b raws = .ok (b', outcomes) ∧
      (batchKeys env.py tenantId userId b'.session).Nodup := by
  induction raws generalizing b with
  | nil => exact iff_of_true trivial ⟨b, [], rfl, hnodup⟩
  | cons raw rest ih =>
    rw [SoundAll, Sound]
    constructor
    · rintro ⟨⟨hreads, hfresh⟩, hrest⟩
      obtain ⟨⟨b₁, outcome⟩, hitem⟩ := processItem_ok_iff.mpr hreads
      obtain ⟨b', outcomes, hall, hend⟩ := (ih ((nodup_processItem hitem).mpr ⟨hnodup, hfresh⟩)).mp (hrest _ _ hitem)
      exact ⟨b', _, processAll_cons.mpr ⟨b₁, outcome, outcomes, hitem, hall, rfl⟩, hend⟩
    · rintro ⟨b', outcomes, hall, hend⟩
      obtain ⟨b₁, outcome, later, hitem, hrest, -⟩ := processAll_cons.mp hall
      have hmid := nodup_of_processAll hrest hend
      refine ⟨⟨processItem_ok_iff.mp ⟨_, hitem⟩, ((nodup_processItem hitem).mp hmid).2⟩, fun b₂ other hother => ?_⟩
      rw [hitem] at hother
      cases hother
      exact (ih hmid).mpr ⟨b', later, hrest, hend⟩

/-! ### The call -/

/-- The call may be made, its items are sound when they are reached, and the database takes the rows in the end. -/
structure CallSound (env : RecipeEnv) (tenantId userId : String) (s : RecipeService) (recipes : List RawField) : Prop where
  context : checkContext env tenantId userId = none
  items : SoundAll env tenantId userId (s.start env tenantId userId) recipes
  commit : ∀ b outcomes, processAll env tenantId userId (s.start env tenantId userId) recipes = .ok (b, outcomes) →
    b.made = 0 ∨ b.session.Taken env

/-- What a call of `save_recipes_batch` should do. -/
structure Meets (env : RecipeEnv) (tenantId userId : String) (s : RecipeService) (recipes : List RawField) : Prop where
  /-- Every item with a title is in one list of the result, in its place. -/
  accounted : ∃ outcomes, (saveRecipesBatch env tenantId userId s recipes).2 = .ok (.ofOutcomes outcomes) ∧
    List.Forall₂ Outcome.Answers (recipes.filterMap titleOf) outcomes
  /-- Without an item that is left out for what it is, everything else is the same. -/
  independent : ∀ before item after, recipes = before ++ item :: after → Dropped item → ∃ first own later,
    (saveRecipesBatch env tenantId userId s recipes).2 = .ok (.ofOutcomes (first ++ own ++ later)) ∧
    (saveRecipesBatch env tenantId userId s (before ++ after)).2 = .ok (.ofOutcomes (first ++ later)) ∧
    (∀ answer ∈ own, ∃ title, answer = .invalid title) ∧
    (saveRecipesBatch env tenantId userId s (before ++ after)).1 = (saveRecipesBatch env tenantId userId s recipes).1
  /-- A call that raises leaves none of its rows in the session. -/
  atomic : ∀ e, (saveRecipesBatch env tenantId userId s recipes).2 = .error e →
    (saveRecipesBatch env tenantId userId s recipes).1.session.added.recipes ⊆ s.session.added.recipes ∧
    (saveRecipesBatch env tenantId userId s recipes).1.session.added.ingredients ⊆ s.session.added.ingredients
  /-- The titles that this writer has made for the user have normal forms of their own. -/
  distinct : (batchKeys env.py tenantId userId (saveRecipesBatch env tenantId userId s recipes).1.session).Nodup

variable {s : RecipeService} {recipes : List RawField}

/-- What the call does after the loop. -/
def finish (tenantId userId : String) (s : RecipeService) (b : BatchState) : RecipeService :=
  let cached := s.setOwned tenantId userId (some (s.getOwned tenantId userId))
  if b.made = 0 then { cached with session := b.session }
  else { (cached.setOwned tenantId userId none) with session := b.session.commit }

theorem saveRecipesBatch_ok (hcontext : checkContext env tenantId userId = none)
    (hall : processAll env tenantId userId (s.start env tenantId userId) recipes = .ok (b, outcomes))
    (htaken : b.made = 0 ∨ b.session.Taken env) :
    saveRecipesBatch env tenantId userId s recipes = (finish tenantId userId s b, .ok (.ofOutcomes outcomes)) := by
  rw [saveRecipesBatch, finish]
  simp only [hcontext, hall]
  split
  · rfl
  next hmade =>
    have hflush : b.session.flush env = .ok b.session := flush_ok.mpr ⟨htaken.resolve_left hmade, rfl⟩
    simp only [hflush]

/-- A call that returns has run the loop to its end. -/
theorem exists_of_saveRecipesBatch {result : SaveRecipesBatchResult}
    (h : (saveRecipesBatch env tenantId userId s recipes).2 = .ok result) : checkContext env tenantId userId = none ∧
      ∃ b outcomes, processAll env tenantId userId (s.start env tenantId userId) recipes = .ok (b, outcomes) ∧
        (b.made = 0 ∨ b.session.Taken env) := by
  rw [saveRecipesBatch] at h
  cases hcontext : checkContext env tenantId userId with
  | some e => simp [hcontext] at h
  | none =>
    cases hall : processAll env tenantId userId (s.start env tenantId userId) recipes with
    | error e => simp [hcontext, hall] at h
    | ok r =>
      obtain ⟨b, outcomes⟩ := r
      refine ⟨rfl, b, outcomes, rfl, ?_⟩
      by_cases hmade : b.made = 0
      · exact .inl hmade
      · cases hflush : b.session.flush env with
        | error e => simp [hcontext, hall, hmade, hflush] at h
        | ok session => exact .inr (flush_ok.mp hflush).1

theorem batchKeys_finish (tenant user : String) :
    batchKeys py tenant user (finish tenantId userId s b).session = batchKeys py tenant user b.session := by
  unfold finish
  dsimp only
  split
  · rfl
  · simp [batchKeys, RecipeSession.recipes, RecipeSession.commit]

/-- A sound call ends, and its titles are distinct after it. -/
theorem CallSound.exists_run (h : CallSound env tenantId userId s recipes)
    (hnodup : (batchKeys env.py tenantId userId s.session).Nodup) : ∃ b outcomes,
      processAll env tenantId userId (s.start env tenantId userId) recipes = .ok (b, outcomes) ∧
      (b.made = 0 ∨ b.session.Taken env) ∧ (batchKeys env.py tenantId userId b.session).Nodup := by
  obtain ⟨b, outcomes, hall, hend⟩ := (soundAll_iff hnodup).mp h.items
  exact ⟨b, outcomes, hall, h.commit b outcomes hall, hend⟩

/-- **A call meets what it should** if and only if it is sound, where the titles are distinct before it. -/
theorem meets_iff_sound (hnodup : (batchKeys env.py tenantId userId s.session).Nodup) :
    Meets env tenantId userId s recipes ↔ CallSound env tenantId userId s recipes := by
  constructor
  · intro h
    obtain ⟨outcomes, hresult, -⟩ := h.accounted
    obtain ⟨hcontext, b, outcomes', hall, htaken⟩ := exists_of_saveRecipesBatch hresult
    have hend := h.distinct
    rw [saveRecipesBatch_ok hcontext hall htaken, batchKeys_finish] at hend
    refine ⟨hcontext, (soundAll_iff hnodup).mpr ⟨b, outcomes', hall, hend⟩, fun b₂ outcomes₂ hall₂ => ?_⟩
    rw [hall] at hall₂
    cases hall₂
    exact htaken
  · intro h
    obtain ⟨b, outcomes, hall, htaken, hend⟩ := h.exists_run hnodup
    have hcall := saveRecipesBatch_ok h.context hall htaken
    refine ⟨⟨outcomes, by rw [hcall], processAll_answers hall⟩, ?_, ?_, ?_⟩
    · rintro before item after rfl hdropped
      obtain ⟨b₁, first, later, hbefore, hrest, rfl⟩ := processAll_append.mp hall
      obtain ⟨b₂, own, last, hitem, hafter, rfl⟩ := processAll_cons.mp hrest
      obtain ⟨rfl, hown⟩ := processItem_dropped hdropped hitem
      have hwithout := saveRecipesBatch_ok h.context (processAll_append.mpr ⟨b₂, first, last, hbefore, hafter, rfl⟩) htaken
      rw [hcall, hwithout]
      exact ⟨first, own.toList, last, by rw [List.append_assoc], rfl, fun answer hanswer => hown answer (by simpa using hanswer), rfl⟩
    · intro e he
      rw [hcall] at he
      cases he
    · rw [hcall, batchKeys_finish]
      exact hend

/-! ### Runs -/

/-- The book after sound calls for any user and what others do: they may delete a row of this writer, but give it no other
title, and what the cache holds is not said. -/
inductive Reached (py : RecipePy) : RecipeService → Prop where
  | init (s : RecipeService) (h : ∀ row ∈ s.session.recipes, row.byBatch = false) : Reached py s
  | call {s : RecipeService} (env : RecipeEnv) (tenantId userId : String) (recipes : List RawField) (hpy : env.py = py)
      (h : Reached py s) (hsound : CallSound env tenantId userId s recipes) :
      Reached py (saveRecipesBatch env tenantId userId s recipes).1
  | others {s s' : RecipeService} (h : Reached py s)
      (hrows : (s'.session.recipes.filter (·.byBatch)).Sublist (s.session.recipes.filter (·.byBatch))) : Reached py s'

/-- A call for one user leaves the titles of the others. -/
theorem batchKeys_processAll {tenant user : String} (hother : ¬ (tenantId = tenant ∧ userId = user))
    (h : processAll env tenantId userId b raws = .ok (b', outcomes)) :
    batchKeys env.py tenant user b'.session = batchKeys env.py tenant user b.session := by
  induction raws generalizing b outcomes with
  | nil =>
    cases h
    rfl
  | cons raw rest ih =>
    obtain ⟨b₁, outcome, later, hitem, hrest, -⟩ := processAll_cons.mp h
    rw [ih hrest]
    rcases processItem_cases hitem with ⟨-, rfl, -⟩ | ⟨title, answer, -, -, -, ⟨hkept, -⟩ | ⟨-, row, -, hmade⟩⟩
    · rfl
    · exact batchKeys_of_kept hkept tenant user
    · rw [batchKeys_of_made hmade, if_neg hother, List.append_nil]

/-- **Every user's titles stay distinct**, in every run of sound calls. -/
theorem Reached.nodup (h : Reached py s) : ∀ tenant user, (batchKeys py tenant user s.session).Nodup := by
  induction h with
  | init s h =>
    intro tenant user
    have hnone : s.session.recipes.filter (fun row => row.byBatch ∧ row.tenantId = tenant ∧ row.userId = user) = [] := by
      rw [List.filter_eq_nil_iff]
      intro row hrow
      simp [h row hrow]
    rw [batchKeys, hnone]
    exact .nil
  | @call s env tenantId userId recipes hpy h hsound ih =>
    subst hpy
    intro tenant user
    obtain ⟨b, outcomes, hall, htaken, hend⟩ := hsound.exists_run (ih tenantId userId)
    rw [saveRecipesBatch_ok hsound.context hall htaken, batchKeys_finish]
    by_cases hown : tenantId = tenant ∧ userId = user
    · obtain ⟨rfl, rfl⟩ := hown
      exact hend
    · rw [batchKeys_processAll hown hall]
      exact ih tenant user
  | others h hrows ih =>
    intro tenant user
    refine (ih tenant user).sublist (List.Sublist.map _ ?_)
    have hfilter : ∀ rows : List Recipe, rows.filter (fun row => row.byBatch ∧ row.tenantId = tenant ∧ row.userId = user) =
        (rows.filter (·.byBatch)).filter fun row => row.tenantId = tenant ∧ row.userId = user := by
      intro rows
      rw [List.filter_filter]
      exact List.filter_congr fun row _ => by cases row.byBatch <;> simp
    rw [hfilter, hfilter]
    exact hrows.filter _

end Items

/-- **A call meets what it should, in every reached book,** if and only if it is sound. -/
theorem meets_iff {env : RecipeEnv} {tenantId userId : String} {s : RecipeService} (h : Reached env.py s)
    (recipes : List RawField) : Meets env tenantId userId s recipes ↔ CallSound env tenantId userId s recipes :=
  meets_iff_sound (h.nodup tenantId userId)

/-! ### A batch with a range of servings -/

/-- Python on texts in lower case that are no floats. -/
def lowerCasePy : RecipePy where
  lower := id
  blank_of_lower _ h := h
  float _ := none
  floatOfInt n := some (.finite n)
  str _ := []
  dumps _ := "[]".toList

def plainEnv : RecipeEnv where
  py := lowerCasePy
  ctx := none
  operationId _ _ _ := ""
  normalizeForDedup := id
  titleHash _ _ _ := none
  takesRecipe _ := true
  takesIngredient _ := true
  fresh n := (toString n, n)

def emptyService : RecipeService := ⟨⟨⟨[], []⟩, ⟨[], []⟩⟩, fun _ _ => none⟩

def borscht : RawField := .dict [("title".toList, .str "борщ".toList)]

theorem meets_borscht : Meets plainEnv "t1" "u1" emptyService [borscht] := by
  have hreached : Reached plainEnv.py emptyService := .init _ (fun _ h => absurd h List.not_mem_nil)
  refine (meets_iff hreached _).mpr ⟨rfl, ?_, ?_⟩
  · refine (soundAll_iff ?_).mpr ⟨_, _, rfl, ?_⟩
    · exact hreached.nodup "t1" "u1"
    · exact List.pairwise_singleton _ _
  · rintro b outcomes hall
    cases hall
    exact .inr ⟨rfl, rfl⟩

/-- The servings of the second recipe are no integer: the call raises, and the first recipe stays in the session. -/
theorem range_of_servings_raises :
    Reached plainEnv.py emptyService ∧
    (saveRecipesBatch plainEnv "t1" "u1" emptyService
      [borscht, .dict [("title".toList, .str "плов".toList), ("servings".toList, .str "2-3".toList)]]).2 = .error .valueError ∧
    ((saveRecipesBatch plainEnv "t1" "u1" emptyService
      [borscht, .dict [("title".toList, .str "плов".toList), ("servings".toList, .str "2-3".toList)]]).1.session.added.recipes.map
        (·.title)) = ["борщ".toList] :=
  ⟨.init _ (fun _ h => absurd h List.not_mem_nil), rfl, rfl⟩

end Sreda.Services.Recipes
