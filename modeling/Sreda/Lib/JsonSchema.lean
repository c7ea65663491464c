import Mathlib.Data.Int.Notation
import Mathlib.Data.List.Basic
import Mathlib.Data.Rat.Defs
import Mathlib.Tactic.Common

/-!
# Documents and their schemas

JSON documents, and what a document needs to be valid against a schema, which is a document too. The keywords are `type`,
`const` of a scalar, `required`, `properties`, `additionalProperties: false`, `items`, `anyOf`, `minLength` and
`maxLength`; any other keyword is an annotation. A number without a fraction is an integer, however it is written.

## What is proved

* what each form of a schema asks for: `valid_typed`, `valid_anyOf`, `valid_array`, `valid_closed_iff`.
-/

namespace Sreda.Lib.JsonSchema

/-- A document. The pairs of an object are in their order. -/
inductive Json where
  | null
  | bool (b : Bool)
  | int (n : ℤ)
  /-- A number that is written with a fraction or an exponent, by its value. -/
  | float (q : ℚ)
  | str (s : String)
  | arr (items : List Json)
  | obj (pairs : List (String × Json))

abbrev Pairs := List (String × Json)

mutual

/-- No object has a key twice. -/
def Json.DistinctKeys : Json → Prop
  | .arr items => DistinctItems items
  | .obj pairs => (pairs.map Prod.fst).Nodup ∧ DistinctPairs pairs
  | _ => True

def DistinctItems : List Json → Prop
  | [] => True
  | item :: items => item.DistinctKeys ∧ DistinctItems items

def DistinctPairs : Pairs → Prop
  | [] => True
  | (_, value) :: pairs => value.DistinctKeys ∧ DistinctPairs pairs

end

/-! ### Keywords -/

/-- The values of `type` that a document has. -/
def typeNames : Json → List String
  | .null => ["null"]
  | .bool _ => ["boolean"]
  | .int _ => ["integer", "number"]
  | .float q => if q.den = 1 then ["integer", "number"] else ["number"]
  | .str _ => ["string"]
  | .arr _ => ["array"]
  | .obj _ => ["object"]

/-- Two scalars are the same; numbers are compared by value. -/
def sameScalar : Json → Json → Bool
  | .null, .null => true
  | .bool a, .bool b => a = b
  | .str a, .str b => a = b
  | .int m, .int n => m = n
  | .int m, .float q => (m : ℚ) = q
  | .float q, .int m => (m : ℚ) = q
  | .float p, .float q => p = q
  | _, _ => false

/-- The names that `properties` describes. -/
def describedNames (keywords : Pairs) : List String :=
  match keywords.lookup "properties" with
  | some (.obj properties) => properties.map Prod.fst
  | _ => []

/-- A keyword that looks at no part of the document by a schema. -/
def assertion (keywords : Pairs) (key : String) (value data : Json) : Bool :=
  if key = "type" then
    match value with
    | .str name => (typeNames data).contains name
    | _ => true
  else if key = "const" then sameScalar value data
  else if key = "required" then
    match value, data with
    | .arr names, .obj pairs => names.all fun name =>
      match name with
      | .str name => (pairs.lookup name).isSome
      | _ => true
    | _, _ => true
  else if key = "additionalProperties" then
    match value, data with
    | .bool false, .obj pairs => pairs.all fun pair => (describedNames keywords).contains pair.1
    | _, _ => true
  else if key = "minLength" then
    match value, data with
    | .int n, .str s => n ≤ s.length
    | _, _ => true
  else if key = "maxLength" then
    match value, data with
    | .int n, .str s => s.length ≤ n
    | _, _ => true
  else true

/-- The items of an array. -/
def Json.items : Json → List Json
  | .arr items => items
  | _ => []

/-- The pairs of an object. -/
def Json.pairs : Json → Pairs
  | .obj pairs => pairs
  | _ => []

mutual

/-- The document is valid against the schema. -/
def valid : Json → Json → Bool
  | .obj keywords, data => validKeywords keywords keywords data
  | .bool b, _ => b
  | _, _ => true
termination_by structural schema => schema

/-- The document meets each of the keywords, which stand among `siblings`. -/
def validKeywords (siblings : Pairs) : Pairs → Json → Bool
  | [], _ => true
  | (key, value) :: rest, data =>
    assertion siblings key value data
      && (if key = "anyOf" then validAnyOf value data
        else if key = "items" then data.items.all fun item => valid value item
        else if key = "properties" then validProperties value data
        else true)
      && validKeywords siblings rest data
termination_by structural keywords => keywords

def validAnyOf : Json → Json → Bool
  | .arr branches, data => validBranches branches data
  | _, _ => true
termination_by structural value => value

/-- The document is valid against one of the branches. -/
def validBranches : List Json → Json → Bool
  | [], _ => false
  | branch :: branches, data => valid branch data || validBranches branches data
termination_by structural branches => branches

def validProperties : Json → Json → Bool
  | .obj properties, data => validPairs properties data.pairs
  | _, _ => true
termination_by structural value => value

/-- The described properties that are there are valid. -/
def validPairs : Pairs → Pairs → Bool
  | [], _ => true
  | (name, schema) :: rest, pairs => ((pairs.lookup name).all fun value => valid schema value) && validPairs rest pairs
termination_by structural properties => properties

end

/-! ### Forms of schemas -/

/-- `{"type": name}`. -/
def typed (name : String) : Json := .obj [("type", .str name)]

variable {value : Json} {key : String} {properties pairs : Pairs} {required : List String}

section Forms

variable {data : Json}

attribute [local simp] valid validKeywords validAnyOf assertion typeNames sameScalar Json.items

theorem valid_typed {name : String} : valid (typed name) data = (typeNames data).contains name := by
  simp [typed]

theorem validBranches_eq_any {branches : List Json} : validBranches branches data = branches.any fun branch => valid branch data := by
  induction branches with
  | nil => rfl
  | cons branch branches ih => rw [validBranches, List.any_cons, ih]

theorem valid_anyOf {branches : List Json} :
    valid (.obj [("anyOf", .arr branches)]) data = true ↔ ∃ branch ∈ branches, valid branch data = true := by
  simp [validBranches_eq_any]

theorem valid_array {items : Json} : valid (.obj [("type", .str "array"), ("items", items)]) data = true ↔
    ∃ elements, data = .arr elements ∧ ∀ element ∈ elements, valid items element = true := by
  cases data with
  | float q => by_cases h : q.den = 1 <;> simp [h]
  | _ => simp

theorem valid_const : valid (.obj [("const", value)]) data = sameScalar value data := by
  simp

theorem sameScalar_str {s : String} : sameScalar (.str s) data = true ↔ data = .str s := by
  cases data with
  | str t =>
    rw [sameScalar, decide_eq_true_eq, Json.str.injEq]
    exact eq_comm
  | _ => simp

theorem sameScalar_bool {b : Bool} : sameScalar (.bool b) data = true ↔ data = .bool b := by
  cases data with
  | bool c =>
    rw [sameScalar, decide_eq_true_eq, Json.bool.injEq]
    exact eq_comm
  | _ => simp

theorem contains_string : (typeNames data).contains "string" = true ↔ ∃ s, data = .str s := by
  cases data with
  | float q => by_cases h : q.den = 1 <;> simp [h]
  | _ => simp

theorem contains_boolean : (typeNames data).contains "boolean" = true ↔ ∃ b, data = .bool b := by
  cases data with
  | float q => by_cases h : q.den = 1 <;> simp [h]
  | _ => simp

theorem contains_null : (typeNames data).contains "null" = true ↔ data = .null := by
  cases data with
  | float q => by_cases h : q.den = 1 <;> simp [h]
  | _ => simp

theorem contains_object : (typeNames data).contains "object" = true ↔ ∃ pairs, data = .obj pairs := by
  cases data with
  | float q => by_cases h : q.den = 1 <;> simp [h]
  | _ => simp

end Forms

/-! ### Closed objects -/

theorem validKeywords_cons {siblings rest : Pairs} {data : Json} :
    validKeywords siblings ((key, value) :: rest) data =
      (validKeywords siblings [(key, value)] data && validKeywords siblings rest data) := by
  simp only [validKeywords, Bool.and_true]

/-- A document is valid when it meets each keyword. -/
theorem validKeywords_iff {siblings keywords : Pairs} {data : Json} :
    validKeywords siblings keywords data = true ↔ ∀ keyword ∈ keywords, validKeywords siblings [keyword] data = true := by
  induction keywords with
  | nil => simp [validKeywords]
  | cons keyword keywords ih => rw [List.forall_mem_cons, ← ih, ← Bool.and_eq_true, ← validKeywords_cons]

theorem validPairs_iff : validPairs properties pairs = true ↔
    ∀ property ∈ properties, ∀ value, pairs.lookup property.1 = some value → valid property.2 value = true := by
  induction properties with
  | nil => simp [validPairs]
  | cons property properties ih =>
    rw [validPairs, Bool.and_eq_true, ih, List.forall_mem_cons]
    cases h : pairs.lookup property.1 <;> simp

/-- The keywords of an object with these properties and no others, of which some are required. -/
structure IsClosedObject (keywords properties : Pairs) (required : List String) : Prop where
  described : keywords.lookup "properties" = some (.obj properties)
  type_mem : ("type", .str "object") ∈ keywords
  closed_mem : ("additionalProperties", .bool false) ∈ keywords
  properties_mem : ("properties", .obj properties) ∈ keywords
  required_mem : ("required", .arr (required.map .str)) ∈ keywords ∨ required = []
  only : ∀ keyword ∈ keywords, keyword = ("type", .str "object") ∨ keyword = ("additionalProperties", .bool false) ∨
    keyword = ("properties", .obj properties) ∨ keyword = ("required", .arr (required.map .str)) ∨ keyword.1 = "description"

/-- An object that is valid against a closed schema: its keys are described, the required ones are there. -/
structure Closed (properties : Pairs) (required : List String) (pairs : Pairs) : Prop where
  described : ∀ pair ∈ pairs, pair.1 ∈ properties.map Prod.fst
  required : ∀ name ∈ required, (pairs.lookup name).isSome = true
  valid : ∀ property ∈ properties, ∀ value, pairs.lookup property.1 = some value → valid property.2 value = true

/-- A required property is there, and valid. -/
theorem Closed.get (h : Closed properties required pairs)
    (name : String) {schema : Json} (hproperty : (name, schema) ∈ properties) (hname : name ∈ required) :
    ∃ value, pairs.lookup name = some value ∧ JsonSchema.valid schema value = true := by
  obtain ⟨value, hvalue⟩ := Option.isSome_iff_exists.mp (h.required name hname)
  exact ⟨value, hvalue, h.valid _ hproperty value hvalue⟩

theorem lookup_eq_none_of_ne (h : ∀ pair ∈ pairs, pair.1 ≠ key) : pairs.lookup key = none := by
  rw [List.lookup_eq_none_iff]
  intro pair hpair
  exact bne_iff_ne.mpr (h pair hpair).symm

theorem Closed.lookup_eq_none (h : Closed properties required pairs)
    {name : String} (hname : name ∉ properties.map Prod.fst) : pairs.lookup name = none := by
  apply lookup_eq_none_of_ne
  rintro pair hpair rfl
  exact hname (h.described pair hpair)

/-- What is looked up in a document without double keys is one itself. -/
theorem DistinctPairs.lookup : ∀ {pairs : Pairs}, DistinctPairs pairs →
    pairs.lookup key = some value → value.DistinctKeys
  | (name, v) :: pairs, ⟨hv, hpairs⟩, h => by
    rw [List.lookup_cons] at h
    split at h
    · cases h
      exact hv
    · exact hpairs.lookup h

theorem valid_closed_iff {keywords : Pairs} {data : Json} (h : IsClosedObject keywords properties required) :
    valid (.obj keywords) data = true ↔ ∃ pairs, data = .obj pairs ∧ Closed properties required pairs := by
  have hnames : describedNames keywords = properties.map Prod.fst := by rw [describedNames, h.described]
  have htype : validKeywords keywords [("type", .str "object")] data = true ↔ ∃ pairs, data = .obj pairs := by
    rw [← contains_object]
    simp [validKeywords, assertion]
  rw [valid, validKeywords_iff]
  constructor
  · intro hall
    obtain ⟨pairs, rfl⟩ := htype.mp (hall _ h.type_mem)
    have hclosed := hall _ h.closed_mem
    have hproperties := hall _ h.properties_mem
    simp only [validKeywords, assertion] at hclosed hproperties
    refine ⟨pairs, rfl, ?_, ?_, ?_⟩
    · simpa [hnames] using hclosed
    · rcases h.required_mem with hmem | rfl
      · have hrequired := hall _ hmem
        simpa [validKeywords, assertion] using hrequired
      · simp
    · simpa [validProperties, validPairs_iff, Json.pairs] using hproperties
  · rintro ⟨pairs, rfl, hdescribed, hrequired, hvalid⟩ keyword hkeyword
    rcases h.only keyword hkeyword with rfl | rfl | rfl | rfl | hannotation
    · exact htype.mpr ⟨pairs, rfl⟩
    · simpa [validKeywords, assertion, hnames] using hdescribed
    · simpa [validKeywords, assertion, validProperties, validPairs_iff, Json.pairs] using hvalid
    · simpa [validKeywords, assertion] using hrequired
    · obtain ⟨key, value⟩ := keyword
      obtain rfl : key = "description" := hannotation
      simp [validKeywords, assertion]

end Sreda.Lib.JsonSchema
