import Mathlib.Data.List.Dedup
import Mathlib.Data.Rat.Defs
import Sreda.Lib.Words

/-!
# The items of a recipe batch

`services/housewife_recipes.py`: what `save_recipes_batch` reads of an item. The model wrote the item, so a field is whatever
`json.loads` gives: a number may be a text, and a text a number. Lower case, the reading of floats and what goes into the
column of the tags are parameters.

## What is proved

* when reading a field raises: `textOr_ok_iff`, `readInt_ok_iff`, `cookingTime_ok_iff`, `cleanNutrient_ok_iff`,
  `normaliseIngredients_ok_iff`.
-/

namespace Sreda.Services.Recipes

open Sreda.Lib.PyText

/-! ### Fields -/

inductive RawFloat where
  | finite (q : ℚ)
  | inf (negative : Bool)
  | nan
deriving DecidableEq

/-- A value that `json.loads` gives. -/
inductive RawField where
  | none
  | bool (b : Bool)
  | int (n : ℤ)
  | float (x : RawFloat)
  | str (s : Text)
  | list (items : List RawField)
  | dict (pairs : List (Text × RawField))

def RawField.truthy : RawField → Bool
  | .none => false
  | .bool b => b
  | .int n => n ≠ 0
  | .float x => x ≠ .finite 0
  | .str s => s ≠ []
  | .list items => !items.isEmpty
  | .dict pairs => !pairs.isEmpty

/-- `raw.get(key)`. -/
def field (key : String) (pairs : List (Text × RawField)) : RawField := (pairs.lookup key.toList).getD .none

/-- What the writer raises. -/
inductive RecipeError where
  | attributeError
  | typeError
  | valueError
  | overflowError
  /-- `save_recipes_batch ctx path: user_id обязателен (fail-closed).` -/
  | userRequired
  /-- `save_recipes_batch ctx path: ctx.tenant_id=… != tenant_id=… — leak across tenant.` -/
  | foreignTenant
  /-- The database refuses a row. -/
  | database
deriving DecidableEq

/-- What the writer relies on of Python. -/
structure RecipePy where
  lower : Text → Text
  /-- A text with a character in it keeps one. -/
  blank_of_lower : ∀ s, Blank (lower s) → Blank s
  /-- `float(text)`; `none` is a `ValueError`. -/
  float : Text → Option RawFloat
  /-- `float(n)`; `none` is an `OverflowError`. -/
  floatOfInt : ℤ → Option RawFloat
  str : RawField → Text
  /-- `json.dumps` of a list of texts. -/
  dumps : List Text → Text

variable (py : RecipePy)

/-- `(value or "").strip()`. -/
def textOr (value : RawField) : Except RecipeError Text :=
  if value.truthy then
    match value with
    | .str s => .ok (strip s)
    | _ => .error .attributeError
  else .ok []

/-- Decimal digits, single underscores between them, and no more than Python reads. -/
def readDigits (s : Text) : Option ℕ :=
  let groups := s.splitOn '_'
  if groups.all (fun group => group ≠ [] ∧ group.all isDecimal) ∧ groups.flatten.length ≤ 4300 then some (toInt groups.flatten)
  else none

/-- `int(text)`; `none` is a `ValueError`. -/
def readSigned (s : Text) : Option ℤ :=
  match strip s with
  | '-' :: s => (readDigits s).map fun n => -(n : ℤ)
  | '+' :: s => (readDigits s).map fun n => (n : ℤ)
  | s => (readDigits s).map fun n => (n : ℤ)

/-- `int(value)`. -/
def readInt : RawField → Except RecipeError ℤ
  | .bool b => .ok (if b then 1 else 0)
  | .int n => .ok n
  | .float (.finite q) => .ok (q.num.tdiv q.den)
  | .float (.inf _) => .error .overflowError
  | .float .nan => .error .valueError
  | .str s => (readSigned s).elim (.error .valueError) .ok
  | _ => .error .typeError

/-- `max(1, int(raw.get("servings") or 2))`. -/
def servings (value : RawField) : Except RecipeError ℤ :=
  (readInt (if value.truthy then value else .int 2)).map fun n => max 1 n

/-- The time of cooking, from 1 to 600 minutes; only `ValueError` and `TypeError` are caught. -/
def cookingTime : RawField → Except RecipeError (Option ℤ)
  | .none => .ok none
  | value =>
    match readInt value with
    | .ok n => .ok (if 1 ≤ n ∧ n ≤ 600 then some n else none)
    | .error .overflowError => .error .overflowError
    | .error _ => .ok none

/-- `float(value)`. -/
def readFloat : RawField → Except RecipeError RawFloat
  | .bool b => .ok (.finite (if b then 1 else 0))
  | .int n => (py.floatOfInt n).elim (.error .overflowError) .ok
  | .float x => .ok x
  | .str s => (py.float s).elim (.error .valueError) .ok
  | _ => .error .typeError

/-- Negative, or not a number. -/
def RawFloat.isBad : RawFloat → Bool
  | .finite q => q < 0
  | .inf negative => negative
  | .nan => true

/-- `_clean_nutrient`; only `ValueError` and `TypeError` are caught. -/
def cleanNutrient : RawField → Except RecipeError (Option RawFloat)
  | .none => .ok none
  | value =>
    match readFloat py value with
    | .ok x => .ok (if x.isBad then none else some x)
    | .error .overflowError => .error .overflowError
    | .error _ => .ok none

/-- `text or None`. -/
def orNone (text : Text) : Option Text := if text = [] then none else some text

/-- `IngredientInput`. -/
structure IngredientInput where
  title : Text
  quantityText : Option Text
  isOptional : Bool

/-- One ingredient of `_normalise_ingredients`. -/
def ingredientOf : RawField → Except RecipeError (Option IngredientInput)
  | .dict pairs => do
    let title ← textOr (field "title" pairs)
    if title = [] then .ok none
    else do
      let quantity ← textOr (field "quantity_text" pairs)
      .ok (some {
        title := title.take 300, quantityText := orNone (quantity.take 64)
        isOptional := (field "is_optional" pairs).truthy })
  | _ => .ok none

/-- `_normalise_ingredients`. The items of a text and of a dictionary are texts. -/
def normaliseIngredients (value : RawField) : Except RecipeError (List IngredientInput) :=
  if value.truthy then
    match value with
    | .list items => (items.mapM ingredientOf).map fun found => found.filterMap id
    | .str _ | .dict _ => .ok []
    | _ => .error .typeError
  else .ok []

/-- The tags as a JSON text; the `TypeError` of a number is caught. -/
def tagsJson (value : RawField) : Option Text :=
  if value.truthy then
    match value with
    | .list items => some (py.dumps (items.map py.str))
    | .str s => some (py.dumps (s.map fun c => [c]))
    | .dict pairs => some (py.dumps (pairs.map Prod.fst))
    | _ => none
  else none

/-- `RECIPE_SOURCES`. -/
def recipeSources : List String := ["user_dictated", "ai_generated", "web_found", "upgraded_from_menu"]

/-- The source, when it is one of the known ones. -/
def knownSource (value : RawField) : Option String :=
  if value.truthy then
    match value with
    | .str s => recipeSources.find? (·.toList = s)
    | _ => none
  else some "user_dictated"

/-! ### Titles -/

/-- `_normalise_title`. -/
def normaliseTitle (title : Text) : Text := squash isSpace ' ' false (py.lower (strip title))

/-- The words of a title. -/
def titleWords (title : Text) : List Text := wordsBy isSpace (normaliseTitle py title)

/-- `_are_titles_similar`: one has all words of the other, or 0.70 of all words are common. -/
def areTitlesSimilar (a b : Text) : Bool :=
  let a := (titleWords py a).dedup
  let b := (titleWords py b).dedup
  if a = [] ∨ b = [] then false
  else if (∀ w ∈ a, w ∈ b) ∨ ∀ w ∈ b, w ∈ a then true
  else 7 * (a ∪ b).length ≤ 10 * (a.filter (· ∈ b)).length

variable {py}

/-! ### When reading raises -/

/-- What is not false is a text. -/
def RawField.textual (value : RawField) : Bool :=
  !value.truthy || match value with
    | .str _ => true
    | _ => false

theorem textOr_ok_iff {value : RawField} : (∃ s, textOr value = .ok s) ↔ value.textual = true := by
  unfold textOr RawField.textual
  cases htruthy : value.truthy with
  | false => simp
  | true => cases value <;> simp

/-- `int` reads the value. -/
def RawField.intReadable : RawField → Bool
  | .bool _ | .int _ | .float (.finite _) => true
  | .str s => (readSigned s).isSome
  | _ => false

theorem readInt_ok_iff {value : RawField} : (∃ n, readInt value = .ok n) ↔ value.intReadable = true := by
  cases value with
  | str s => cases h : readSigned s <;> simp [readInt, RawField.intReadable, h]
  | float x => cases x <;> simp [readInt, RawField.intReadable]
  | _ => simp [readInt, RawField.intReadable]

theorem servings_ok_iff {value : RawField} :
    (∃ n, servings value = .ok n) ↔ value.truthy = false ∨ value.intReadable = true := by
  unfold servings
  cases htruthy : value.truthy with
  | false => simp [readInt, Except.map]
  | true =>
    rw [if_pos rfl, ← readInt_ok_iff]
    cases h : readInt value <;> simp [Except.map]

/-- The value is not infinite. -/
def RawField.notInfinite : RawField → Bool
  | .float (.inf _) => false
  | _ => true

theorem cookingTime_ok_iff {value : RawField} : (∃ t, cookingTime value = .ok t) ↔ value.notInfinite = true := by
  cases value with
  | str s => cases h : readSigned s <;> simp [cookingTime, readInt, RawField.notInfinite, h]
  | float x => cases x <;> simp [cookingTime, readInt, RawField.notInfinite]
  | _ => simp [cookingTime, readInt, RawField.notInfinite]

/-- The value is no integer that is too large for a float. -/
def RawField.fitsFloat (py : RecipePy) : RawField → Bool
  | .int n => (py.floatOfInt n).isSome
  | _ => true

theorem cleanNutrient_ok_iff {value : RawField} : (∃ x, cleanNutrient py value = .ok x) ↔ value.fitsFloat py = true := by
  cases value with
  | str s => cases h : py.float s <;> simp [cleanNutrient, readFloat, RawField.fitsFloat, h]
  | int n => cases h : py.floatOfInt n <;> simp [cleanNutrient, readFloat, RawField.fitsFloat, h]
  | _ => simp [cleanNutrient, readFloat, RawField.fitsFloat]

/-- The title of an ingredient is a text, and so is the quantity of one with a title. -/
def RawField.ingredientReadable : RawField → Bool
  | .dict pairs =>
    (field "title" pairs).textual && (textOr (field "title" pairs) matches .ok [] || (field "quantity_text" pairs).textual)
  | _ => true

theorem ingredientOf_ok_iff {value : RawField} : (∃ i, ingredientOf value = .ok i) ↔ value.ingredientReadable = true := by
  cases value with
  | dict pairs =>
    rw [ingredientOf, RawField.ingredientReadable, Bool.and_eq_true, Bool.or_eq_true, ← textOr_ok_iff, ← textOr_ok_iff]
    cases htitle : textOr (field "title" pairs) with
    | error e => simp [bind, Except.bind]
    | ok title =>
      cases title with
      | nil => simp [bind, Except.bind]
      | cons c title =>
        cases hquantity : textOr (field "quantity_text" pairs) <;> simp [bind, Except.bind]
  | _ => simp [ingredientOf, RawField.ingredientReadable]

theorem mapM_ok_iff {α β : Type} {f : α → Except RecipeError β} {items : List α} :
    (∃ l, items.mapM f = .ok l) ↔ ∀ a ∈ items, ∃ b, f a = .ok b := by
  induction items with
  | nil => simp [pure, Except.pure]
  | cons a items ih =>
    rw [List.mapM_cons, List.forall_mem_cons, ← ih]
    cases ha : f a with
    | error e => simp [bind, Except.bind]
    | ok b => cases hrest : items.mapM f <;> simp [bind, Except.bind, pure, Except.pure]

/-- The value is no number, and its ingredients are readable. -/
def RawField.ingredientsReadable (value : RawField) : Bool :=
  !value.truthy || match value with
    | .list items => items.all RawField.ingredientReadable
    | .str _ | .dict _ => true
    | _ => false

theorem normaliseIngredients_ok_iff {value : RawField} :
    (∃ l, normaliseIngredients value = .ok l) ↔ value.ingredientsReadable = true := by
  unfold normaliseIngredients RawField.ingredientsReadable
  cases htruthy : value.truthy with
  | false => simp
  | true =>
    cases value with
    | list items =>
      have hitems : (∃ l, items.mapM ingredientOf = .ok l) ↔ items.all RawField.ingredientReadable = true := by
        rw [mapM_ok_iff, List.all_eq_true]
        simp only [ingredientOf_ok_iff]
      rw [if_pos rfl, Bool.not_true, Bool.false_or, ← hitems]
      cases h : items.mapM ingredientOf <;> simp [Except.map, h]
    | _ => simp

/-! ### Words of a title -/

end Sreda.Services.Recipes
