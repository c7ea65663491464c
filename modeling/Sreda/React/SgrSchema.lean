import Mathlib
import Sreda.Lib.JsonSchema
import Sreda.Lib.Keyed

/-!
# The wire schema of an SGR step

`runtime/react_sgr.py`, the part that writes the schema: `_inline_defs`, `_strict_normalize`, `_tool_branches` and
`build_wire_schema`. A tool comes with the JSON schema of its arguments, as pydantic writes it for a model: a nested model
is a reference to the definitions, or it stands there inline when the converter has resolved it. Titles, descriptions of
fields and default values are annotations, and left out.

`_inline_defs` calls itself on what a reference points at; its depth is counted down from the depth of the types.

## What is proved

* the depth is enough, and any larger one gives the same (`inlineDefs_schema`);
* what the strict schema of a type accepts (`valid_strict_iff`): an optional field is there and may be null, and a field
  named `definitions` is not described at all.
-/

namespace Sreda.React

open Sreda.Lib Sreda.Lib.JsonSchema

/-! ### Types of arguments -/

/-- A field of a model. -/
structure FieldOf (τ : Type) where
  name : String
  hasDefault : Bool
  ty : τ

/-- The type of an argument. -/
inductive ArgTy where
  | str
  | int
  | float
  | bool
  | optional (ty : ArgTy)
  | list (ty : ArgTy)
  /-- A model, by the name of its definition when it is referred to. -/
  | model (definition : Option String) (fields : List (FieldOf ArgTy))

abbrev ArgField := FieldOf ArgTy

/-- `{"anyOf": [schema, {"type": "null"}]}`. -/
def nullable (schema : Json) : Json := .obj [("anyOf", .arr [schema, typed "null"])]

/-- The keywords of the schema of a model; without required fields there is no `required`. -/
def modelKeywords (properties : Pairs) (required : List String) : Pairs :=
  ("type", .str "object") :: ("properties", .obj properties) ::
    if required = [] then [] else [("required", .arr (required.map .str))]

/-- The names of the fields without a default. -/
def requiredNames (fields : List ArgField) : List String := (fields.filter fun field => !field.hasDefault).map (·.name)

mutual

/-- The schema of a type. -/
def ArgTy.schema : ArgTy → Json
  | .str => typed "string"
  | .int => typed "integer"
  | .float => typed "number"
  | .bool => typed "boolean"
  | .optional ty => nullable ty.schema
  | .list ty => .obj [("type", .str "array"), ("items", ty.schema)]
  | .model (some name) _ => .obj [("$ref", .str ("#/$defs/" ++ name))]
  | .model none fields => .obj (modelKeywords (fieldSchemas fields) (requiredNames fields))

def fieldSchemas : List ArgField → Pairs
  | [] => []
  | ⟨name, _, ty⟩ :: fields => (name, ty.schema) :: fieldSchemas fields

end

/-- The schema of a model, where it is defined. -/
def modelSchema (fields : List ArgField) : Pairs := modelKeywords (fieldSchemas fields) (requiredNames fields)

mutual

/-- The type is well formed over the definitions: the fields of a model have names of their own, which are identifiers, and
a model that is referred to is defined. -/
def ArgTy.WellFormed (defs : Pairs) : ArgTy → Prop
  | .optional ty => ty.WellFormed defs
  | .list ty => ty.WellFormed defs
  | .model definition fields =>
    (∀ name, definition = some name → '/' ∉ name.toList ∧ defs.lookup name = some (.obj (modelSchema fields))) ∧
      (fields.map (·.name)).Nodup ∧ (∀ field ∈ fields, '$' ∉ field.name.toList) ∧ FieldsWellFormed defs fields
  | _ => True

def FieldsWellFormed (defs : Pairs) : List ArgField → Prop
  | [] => True
  | ⟨_, _, ty⟩ :: fields => ty.WellFormed defs ∧ FieldsWellFormed defs fields

end

mutual

/-- How deep `_inline_defs` goes into the schema of a type. -/
def ArgTy.depth : ArgTy → ℕ
  | .optional ty => ty.depth + 2
  | .list ty => ty.depth + 1
  | .model _ fields => fieldsDepth fields + 3
  | _ => 1

def fieldsDepth : List ArgField → ℕ
  | [] => 0
  | ⟨_, _, ty⟩ :: fields => max ty.depth (fieldsDepth fields)

end

/-! ### Dictionaries -/

/-- `d[key] = value`. -/
def put (key : String) (value : Json) : Pairs → Pairs
  | [] => [(key, value)]
  | (k, v) :: pairs => if k = key then (key, value) :: pairs else (k, v) :: put key value pairs

theorem lookup_put (key k : String) (value : Json) (pairs : Pairs) :
    (put key value pairs).lookup k = if k = key then some value else pairs.lookup k := by
  induction pairs with
  | nil =>
    by_cases h : k = key
    · simp [put, h]
    · simp [put, h]
  | cons pair pairs ih =>
    obtain ⟨name, v⟩ := pair
    by_cases hname : name = key
    · by_cases h : k = key
      · simp [put, h, hname]
      · simp [put, h, hname, List.lookup_cons, beq_eq_false_iff_ne.mpr h]
    · by_cases h : k = name
      · subst h
        simp [put, hname]
      · simp [put, hname, List.lookup_cons, beq_eq_false_iff_ne.mpr h, ih]

theorem mem_put {key : String} {value : Json} {pair : String × Json} : ∀ {pairs : Pairs}, pair ∈ put key value pairs →
    pair = (key, value) ∨ pair ∈ pairs
  | [], h => .inl (List.mem_singleton.mp h)
  | (name, v) :: pairs, h => by
    by_cases hname : name = key
    · rw [put, if_pos hname] at h
      exact (List.mem_cons.mp h).imp_right (List.mem_cons_of_mem _)
    · rw [put, if_neg hname] at h
      rcases List.mem_cons.mp h with rfl | h
      · exact .inr List.mem_cons_self
      · exact (mem_put h).imp_right (List.mem_cons_of_mem _)

/-- `d.update(new)`. -/
def updateDict (d new : Pairs) : Pairs := new.foldl (fun d pair => put pair.1 pair.2 d) d

/-- `d.pop(key, None)`. -/
def popKey (key : String) (d : Pairs) : Pairs := d.filter fun pair => pair.1 ≠ key

/-- `d.get(key, {})`, for a key with a dictionary. -/
def dictAt (key : String) (d : Pairs) : Pairs := ((d.lookup key).map Json.pairs).getD []

/-! ### Normalizing -/

/-- `str(ref).split("/")[-1]`. -/
def refName : Json → String
  | .str ref => String.ofList (ref.toList.reverse.takeWhile (· ≠ '/')).reverse
  | _ => ""

/-- `_inline_defs`. -/
def inlineDefs (defs : Pairs) : ℕ → Json → Json
  | 0, node => node
  | depth + 1, .obj pairs =>
    match pairs.lookup "$ref" with
    | some ref => inlineDefs defs depth (.obj (updateDict (dictAt (refName ref) defs) (popKey "$ref" pairs)))
    | none => .obj ((pairs.filter fun pair => pair.1 ≠ "$defs" ∧ pair.1 ≠ "definitions").map fun pair =>
        (pair.1, inlineDefs defs depth pair.2))
  | depth + 1, .arr items => .arr (items.map (inlineDefs defs depth))
  | _ + 1, node => node

/-- One of the branches of the `anyOf` of a property is null. -/
def isNullable (schema : Json) : Bool :=
  match schema.pairs.lookup "anyOf" with
  | some (.arr branches) => branches.any fun branch =>
    match branch.pairs.lookup "type" with
    | some (.str name) => name = "null"
    | _ => false
  | _ => false

/-- `n.get("required", [])`. -/
def previouslyRequired (pairs : Pairs) : List String :=
  (((pairs.lookup "required").map Json.items).getD []).filterMap fun
    | .str name => some name
    | _ => none

/-- The properties of a node, those nullable that are not required and not nullable yet. -/
def nullableProperties (required : List String) (properties : Pairs) : Pairs :=
  properties.map fun property =>
    if required.contains property.1 || isNullable property.2 then property else (property.1, nullable property.2)

/-- The inside of `walk`, for a dictionary whose values are walked already. -/
def strictNode (pairs : Pairs) : Pairs :=
  match pairs.lookup "type", pairs.lookup "properties" with
  | some (.str "object"), some (.obj properties) =>
    let properties := nullableProperties (previouslyRequired pairs) properties
    let pairs := put "properties" (.obj properties) (put "additionalProperties" (.bool false) pairs)
    if properties = [] then popKey "required" pairs
    else put "required" (.arr (((properties.map Prod.fst).mergeSort fun a b => decide (a ≤ b)).map .str)) pairs
  | _, _ => pairs

mutual

/-- `walk`. -/
def walk : Json → Json
  | .arr items => .arr (walkItems items)
  | .obj pairs => .obj (strictNode (walkPairs pairs))
  | node => node

def walkItems : List Json → List Json
  | [] => []
  | item :: items => walk item :: walkItems items

def walkPairs : Pairs → Pairs
  | [] => []
  | (key, value) :: pairs => (key, walk value) :: walkPairs pairs

end

/-- `_strict_normalize`. -/
def strictNormalize (depth : ℕ) (schema : Pairs) : Json :=
  walk (inlineDefs (updateDict (dictAt "$defs" schema) (dictAt "definitions" schema)) depth (.obj schema))

/-! ### Branches and shapes -/

/-- A tool, as the converter describes it. -/
structure SgrTool where
  name : String
  description : String
  fields : List ArgField
  /-- The definitions of its nested models. -/
  defs : Pairs
  wellFormed : (ArgTy.model none fields).WellFormed defs

/-- `parameters`: the schema of the arguments of a tool. -/
def SgrTool.parameters (tool : SgrTool) : Pairs :=
  modelSchema tool.fields ++ if tool.defs = [] then [] else [("$defs", .obj tool.defs)]

/-- The normalized schema of the arguments. -/
def SgrTool.args (tool : SgrTool) : Json :=
  let params := strictNormalize (ArgTy.model none tool.fields).depth tool.parameters
  match params.pairs.lookup "type" with
  | some (.str "object") => params
  | _ => .obj [("type", .str "object"), ("properties", .obj []), ("additionalProperties", .bool false)]

/-- A branch of `_tool_branches`. -/
def SgrTool.branch (tool : SgrTool) : Json := .obj [
  ("type", .str "object"), ("additionalProperties", .bool false), ("description", .str tool.description),
  ("required", .arr [.str "action", .str "args"]),
  ("properties", .obj [("action", .obj [("const", .str tool.name)]), ("args", tool.args)])]

/-- `_SITUATION`. -/
def situationSchema : Json := .obj [("type", .str "string"), ("minLength", .int 1), ("maxLength", .int 400)]

/-- A closed object whose properties are all required. -/
def closedSchema (properties : Pairs) : Json := .obj [
  ("type", .str "object"), ("additionalProperties", .bool false),
  ("required", .arr (properties.map fun property => .str property.1)), ("properties", .obj properties)]

def constSchema (value : Json) : Json := .obj [("const", value)]

/-- The properties of the three branches of the flat form. -/
def stepProperties (tools : List SgrTool) : List Pairs := [
  [("kind", constSchema (.str "act")), ("situation", situationSchema), ("enough_data", constSchema (.bool true)),
    ("tool", .obj [("anyOf", .arr (tools.map SgrTool.branch))])],
  [("kind", constSchema (.str "clarify")), ("situation", situationSchema), ("enough_data", constSchema (.bool false)),
    ("question", .obj [("type", .str "string"), ("minLength", .int 1), ("maxLength", .int 300)])],
  [("kind", constSchema (.str "finish")), ("situation", situationSchema), ("task_completed", constSchema (.bool true)),
    ("reply", .obj [("type", .str "string"), ("minLength", .int 1)])]]

/-- `build_wire_schema`. -/
def buildWireSchema (tools : List SgrTool) (shape : String) : Except String Json :=
  if shape = "flat" then .ok (.obj [("anyOf", .arr ((stepProperties tools).map closedSchema))])
  else if shape = "envelope" then
    .ok (closedSchema [("situation", situationSchema),
      ("step", .obj [("anyOf", .arr ((stepProperties tools).map fun properties => closedSchema (popKey "situation" properties)))])])
  else .error ("unknown wire shape: " ++ shape)

/-! ### What is left of a reference -/

mutual

/-- The schema of a type without references. A property named `definitions` is taken for a table of definitions. -/
def ArgTy.inlined : ArgTy → Json
  | .str => typed "string"
  | .int => typed "integer"
  | .float => typed "number"
  | .bool => typed "boolean"
  | .optional ty => nullable ty.inlined
  | .list ty => .obj [("type", .str "array"), ("items", ty.inlined)]
  | .model _ fields => .obj (modelKeywords (inlinedFields fields) (requiredNames fields))

def inlinedFields : List ArgField → Pairs
  | [] => []
  | ⟨name, _, ty⟩ :: fields => if name = "definitions" then inlinedFields fields else (name, ty.inlined) :: inlinedFields fields

end

variable {fields : List ArgField} {data : Json}

section Inline

variable {defs : Pairs}

theorem inlineDefs_str (n : ℕ) (s : String) : inlineDefs defs n (.str s) = .str s := by
  cases n <;> rfl

theorem inlineDefs_strs (n : ℕ) (names : List String) : inlineDefs defs n (.arr (names.map .str)) = .arr (names.map .str) := by
  cases n with
  | zero => rfl
  | succ n => simp [inlineDefs, inlineDefs_str, Function.comp_def]

theorem inlineDefs_obj {n : ℕ} {pairs : Pairs} (h : pairs.lookup "$ref" = none) : inlineDefs defs (n + 1) (.obj pairs) =
    .obj ((pairs.filter fun pair => pair.1 ≠ "$defs" ∧ pair.1 ≠ "definitions").map fun pair =>
      (pair.1, inlineDefs defs n pair.2)) := by
  rw [inlineDefs, h]

theorem inlineDefs_typed (n : ℕ) (name : String) : inlineDefs defs n (typed name) = typed name := by
  cases n with
  | zero => rfl
  | succ n =>
    rw [typed, inlineDefs_obj rfl]
    simp [inlineDefs_str]

theorem refName_eq {name : String} (h : '/' ∉ name.toList) : refName (.str ("#/$defs/" ++ name)) = name := by
  have hall : ∀ c ∈ name.toList.reverse, decide (c ≠ '/') = true := by
    intro c hc
    rw [decide_eq_true_eq]
    rintro rfl
    exact h (List.mem_reverse.mp hc)
  rw [refName, String.toList_append, List.reverse_append, List.takeWhile_append_of_pos hall]
  have hslash : "#/$defs/".toList.reverse.takeWhile (· ≠ '/') = [] := by decide
  rw [hslash, List.append_nil, List.reverse_reverse, String.ofList_toList]

theorem fst_mem_fieldSchemas {pair : String × Json} : ∀ {fields : List ArgField}, pair ∈ fieldSchemas fields →
    ∃ field ∈ fields, field.name = pair.1
  | [], h => by cases h
  | ⟨name, hasDefault, ty⟩ :: fields, h => by
    rcases List.mem_cons.mp h with rfl | h
    · exact ⟨_, List.mem_cons_self, rfl⟩
    · obtain ⟨field, hfield, heq⟩ := fst_mem_fieldSchemas h
      exact ⟨field, List.mem_cons_of_mem _ hfield, heq⟩

/-- The schema of a model, inlined where it stands. -/
theorem inlineDefs_model {n : ℕ} (hnames : ∀ field ∈ fields, '$' ∉ field.name.toList)
    (hfields : ((fieldSchemas fields).filter fun pair => pair.1 ≠ "$defs" ∧ pair.1 ≠ "definitions").map
      (fun pair => (pair.1, inlineDefs defs n pair.2)) = inlinedFields fields) :
    inlineDefs defs (n + 2) (.obj (modelSchema fields)) =
      .obj (modelKeywords (inlinedFields fields) (requiredNames fields)) := by
  have hproperties : inlineDefs defs (n + 1) (.obj (fieldSchemas fields)) = .obj (inlinedFields fields) := by
    have href : (fieldSchemas fields).lookup "$ref" = none := by
      apply lookup_eq_none_of_ne
      intro pair hpair heq
      obtain ⟨field, hfield, hname⟩ := fst_mem_fieldSchemas hpair
      exact hnames field hfield (by rw [hname, heq]; decide)
    rw [inlineDefs_obj href]
    exact congrArg Json.obj hfields
  rw [modelSchema, modelKeywords, modelKeywords]
  split
  · rw [inlineDefs_obj rfl]
    simp [inlineDefs_str, hproperties]
  · rw [inlineDefs_obj rfl]
    simp [inlineDefs_str, inlineDefs_strs, hproperties]

mutual

/-- **The depth of a type is enough** to resolve its references, and any larger one gives the same. -/
theorem inlineDefs_schema : ∀ (ty : ArgTy) {n : ℕ}, ty.WellFormed defs → ty.depth ≤ n → inlineDefs defs n ty.schema = ty.inlined
  | .str, n, _, _ => inlineDefs_typed n _
  | .int, n, _, _ => inlineDefs_typed n _
  | .float, n, _, _ => inlineDefs_typed n _
  | .bool, n, _, _ => inlineDefs_typed n _
  | .optional ty, n, hwf, hn => by
    obtain ⟨m, rfl⟩ : ∃ m, n = m + 2 := ⟨n - 2, by simp only [ArgTy.depth] at hn; omega⟩
    have ih := inlineDefs_schema ty hwf (n := m) (by simp only [ArgTy.depth] at hn; omega)
    rw [ArgTy.schema, nullable, inlineDefs_obj rfl]
    simp [ArgTy.inlined, nullable, inlineDefs, ih, inlineDefs_typed]
  | .list ty, n, hwf, hn => by
    obtain ⟨m, rfl⟩ : ∃ m, n = m + 1 := ⟨n - 1, by simp only [ArgTy.depth] at hn; omega⟩
    have ih := inlineDefs_schema ty hwf (n := m) (by simp only [ArgTy.depth] at hn; omega)
    rw [ArgTy.schema, inlineDefs_obj rfl]
    simp [ArgTy.inlined, ih, inlineDefs_str]
  | .model none fields, n, ⟨_, _, hnames, hwf⟩, hn => by
    obtain ⟨m, rfl⟩ : ∃ m, n = m + 3 := ⟨n - 3, by simp only [ArgTy.depth] at hn; omega⟩
    have ih := inlineDefs_fields fields hwf hnames (n := m + 1) (by simp only [ArgTy.depth] at hn; omega)
    exact inlineDefs_model hnames ih
  | .model (some name) fields, n, ⟨hdef, _, hnames, hwf⟩, hn => by
    obtain ⟨m, rfl⟩ : ∃ m, n = m + 3 := ⟨n - 3, by simp only [ArgTy.depth] at hn; omega⟩
    have ih := inlineDefs_fields fields hwf hnames (n := m) (by simp only [ArgTy.depth] at hn; omega)
    obtain ⟨hslash, hlookup⟩ := hdef name rfl
    have htarget : dictAt (refName (.str ("#/$defs/" ++ name))) defs = modelSchema fields := by
      rw [refName_eq hslash, dictAt, hlookup]
      rfl
    rw [ArgTy.schema, inlineDefs]
    simp only [List.lookup, beq_self_eq_true, htarget]
    exact inlineDefs_model hnames ih

theorem inlineDefs_fields : ∀ (fields : List ArgField) {n : ℕ}, FieldsWellFormed defs fields →
    (∀ field ∈ fields, '$' ∉ field.name.toList) → fieldsDepth fields ≤ n →
    ((fieldSchemas fields).filter fun pair => pair.1 ≠ "$defs" ∧ pair.1 ≠ "definitions").map
      (fun pair => (pair.1, inlineDefs defs n pair.2)) = inlinedFields fields
  | [], _, _, _, _ => rfl
  | ⟨name, hasDefault, ty⟩ :: fields, n, ⟨hty, hwf⟩, hnames, hn => by
    have hn' : ty.depth ≤ n ∧ fieldsDepth fields ≤ n := by simpa [fieldsDepth] using hn
    have ih := inlineDefs_fields fields hwf (fun field hfield => hnames field (List.mem_cons_of_mem _ hfield)) hn'.2
    have hdefs : name ≠ "$defs" := by
      rintro rfl
      exact hnames _ List.mem_cons_self (show '$' ∈ "$defs".toList by decide)
    by_cases hname : name = "definitions"
    · simpa [fieldSchemas, inlinedFields, hname] using ih
    · simpa [fieldSchemas, inlinedFields, hname, hdefs, inlineDefs_schema ty hty hn'.1] using ih

end

end Inline

/-! ### What a strict schema accepts -/

def ArgTy.isOptional : ArgTy → Bool
  | .optional _ => true
  | _ => false

mutual

/-- What the strict schema of a type accepts. -/
def ArgTy.Accepts : ArgTy → Json → Prop
  | .str, data => ∃ s, data = .str s
  | .int, data => (typeNames data).contains "integer" = true
  | .float, data => (typeNames data).contains "number" = true
  | .bool, data => ∃ b, data = .bool b
  | .optional ty, data => ty.Accepts data ∨ data = .null
  | .list ty, data => ∃ items, data = .arr items ∧ ∀ item ∈ items, ty.Accepts item
  | .model _ fields, data => ∃ pairs, data = .obj pairs ∧
      (∀ pair ∈ pairs, pair.1 ≠ "definitions" ∧ pair.1 ∈ fields.map (·.name)) ∧ FieldsAccept fields pairs

/-- Every described field is there, and null if it has a default. -/
def FieldsAccept : List ArgField → Pairs → Prop
  | [], _ => True
  | ⟨name, hasDefault, ty⟩ :: fields, pairs =>
    (name ≠ "definitions" → ∃ data, pairs.lookup name = some data ∧ (ty.Accepts data ∨ hasDefault = true ∧ data = .null)) ∧
      FieldsAccept fields pairs

end

theorem fieldsAccept_iff {pairs : Pairs} : ∀ {fields : List ArgField}, FieldsAccept fields pairs ↔ ∀ field ∈ fields,
    field.name ≠ "definitions" → ∃ data, pairs.lookup field.name = some data ∧
      (field.ty.Accepts data ∨ field.hasDefault = true ∧ data = .null)
  | [] => by simp [FieldsAccept]
  | ⟨name, hasDefault, ty⟩ :: fields => by rw [FieldsAccept, List.forall_mem_cons, @fieldsAccept_iff pairs fields]

section Walk

theorem strictNode_of_properties {pairs : Pairs} (h : pairs.lookup "properties" = none) : strictNode pairs = pairs := by
  unfold strictNode
  split
  next hproperties =>
    rw [h] at hproperties
    cases hproperties
  · rfl

/-- A dictionary of properties is no node, even if one of them is called `type`. -/
theorem strictNode_of_type {pairs : Pairs} (h : ∀ s, pairs.lookup "type" ≠ some (.str s)) : strictNode pairs = pairs := by
  unfold strictNode
  split
  next htype _ => exact absurd htype (h _)
  · rfl

theorem walkItems_strs (names : List String) : walkItems (names.map .str) = names.map .str := by
  induction names with
  | nil => rfl
  | cons name names ih =>
    rw [List.map_cons, walkItems, ih]
    rfl

theorem walk_typed (name : String) : walk (typed name) = typed name :=
  congrArg Json.obj (strictNode_of_properties rfl)

theorem walk_nullable (schema : Json) : walk (nullable schema) = nullable (walk schema) := by
  have hbranches : walkItems [schema, typed "null"] = [walk schema, typed "null"] := by
    rw [walkItems, walkItems, walkItems, walk_typed]
  rw [nullable, walk, walkPairs, walk, hbranches, walkPairs, strictNode_of_properties rfl, nullable]

theorem walk_list (schema : Json) :
    walk (.obj [("type", .str "array"), ("items", schema)]) = .obj [("type", .str "array"), ("items", walk schema)] :=
  congrArg Json.obj (strictNode_of_properties rfl)

/-- The described properties of a model, walked. -/
def walkedFields (fields : List ArgField) : Pairs := walkPairs (inlinedFields fields)

theorem mem_walkedFields {pair : String × Json} : ∀ {fields : List ArgField}, pair ∈ walkedFields fields ↔
    ∃ field ∈ fields, field.name ≠ "definitions" ∧ pair = (field.name, walk field.ty.inlined)
  | [] => by simp [walkedFields, inlinedFields, walkPairs]
  | ⟨name, hasDefault, ty⟩ :: fields => by
    have ih := @mem_walkedFields pair fields
    rw [walkedFields] at ih ⊢
    by_cases hname : name = "definitions"
    · simp [inlinedFields, hname, ih]
    · simp [inlinedFields, hname, walkPairs, ih]

theorem walk_inlined_obj (ty : ArgTy) : ∃ pairs, walk ty.inlined = .obj pairs := by
  cases ty <;> exact ⟨_, rfl⟩

theorem walk_properties (fields : List ArgField) : walk (.obj (inlinedFields fields)) = .obj (walkedFields fields) := by
  rw [walk]
  apply congrArg Json.obj
  apply strictNode_of_type
  intro s hlookup
  obtain ⟨field, -, -, hpair⟩ := mem_walkedFields.mp (mem_of_lookup hlookup)
  obtain ⟨pairs, hobj⟩ := walk_inlined_obj field.ty
  rw [Prod.mk.injEq, hobj] at hpair
  cases hpair.2

theorem walkPairs_modelKeywords (fields : List ArgField) (required : List String) :
    walkPairs (modelKeywords (inlinedFields fields) required) = modelKeywords (walkedFields fields) required := by
  have hrequired : walk (.arr (required.map .str)) = .arr (required.map .str) := congrArg Json.arr (walkItems_strs required)
  unfold modelKeywords
  split
  · simp only [walkPairs, walk_properties]
    rfl
  · simp only [walkPairs, walk_properties, hrequired]
    rfl

theorem previouslyRequired_modelKeywords (properties : Pairs) (required : List String) :
    previouslyRequired (modelKeywords properties required) = required := by
  unfold previouslyRequired modelKeywords
  split
  next h => rw [h]; rfl
  · simp [List.lookup, Json.items, List.filterMap_map]

/-- `sorted(props.keys())`. -/
def sortedNames (properties : Pairs) : List String := (properties.map Prod.fst).mergeSort fun a b => decide (a ≤ b)

theorem mem_sortedNames {properties : Pairs} {name : String} : name ∈ sortedNames properties ↔ name ∈ properties.map Prod.fst :=
  List.mem_mergeSort

/-- **The node of a model is closed**, and all of its properties are required. -/
theorem isClosedObject_strictNode (properties : Pairs) (required : List String) :
    IsClosedObject (strictNode (modelKeywords properties required)) (nullableProperties required properties)
      (sortedNames (nullableProperties required properties)) := by
  have hnode : strictNode (modelKeywords properties required) =
      if nullableProperties required properties = [] then
        popKey "required" (put "properties" (.obj (nullableProperties required properties))
          (put "additionalProperties" (.bool false) (modelKeywords properties required)))
      else put "required" (.arr ((sortedNames (nullableProperties required properties)).map .str))
        (put "properties" (.obj (nullableProperties required properties))
          (put "additionalProperties" (.bool false) (modelKeywords properties required))) := by
    have htype : (modelKeywords properties required).lookup "type" = some (.str "object") := rfl
    have hproperties : (modelKeywords properties required).lookup "properties" = some (.obj properties) := rfl
    rw [strictNode, htype, hproperties, previouslyRequired_modelKeywords]
    rfl
  rw [hnode]
  by_cases hempty : nullableProperties required properties = []
  · rw [if_pos hempty, hempty]
    by_cases hrequired : required = []
    · constructor <;> simp [hrequired, modelKeywords, put, popKey, sortedNames, List.lookup]
    · constructor <;> simp [hrequired, modelKeywords, put, popKey, sortedNames, List.lookup]
  · rw [if_neg hempty]
    by_cases hrequired : required = []
    · constructor <;> simp [hrequired, modelKeywords, put, List.lookup]
    · constructor <;> simp [hrequired, modelKeywords, put, List.lookup]

theorem isNullable_walk (ty : ArgTy) : isNullable (walk ty.inlined) = ty.isOptional := by
  cases ty with
  | optional ty =>
    rw [ArgTy.inlined, walk_nullable]
    simp [isNullable, nullable, typed, Json.pairs, ArgTy.isOptional]
  | list ty =>
    rw [ArgTy.inlined, walk_list]
    rfl
  | model definition fields =>
    have hnode := isClosedObject_strictNode (walkedFields fields) (requiredNames fields)
    have hnone : (strictNode (modelKeywords (walkedFields fields) (requiredNames fields))).lookup "anyOf" = none := by
      apply lookup_eq_none_of_ne
      intro pair hpair
      rcases hnode.only pair hpair with rfl | rfl | rfl | rfl | h
      · decide
      · decide
      · exact show "properties" ≠ "anyOf" by decide
      · exact show "required" ≠ "anyOf" by decide
      · rw [h]
        decide
    rw [ArgTy.inlined, walk, walkPairs_modelKeywords, isNullable, Json.pairs, hnone]
    rfl
  | _ =>
    rw [ArgTy.inlined, walk_typed]
    rfl

/-- The schema of a property in the end. -/
def propertySchema (field : ArgField) : Json :=
  if field.hasDefault && !field.ty.isOptional then nullable (walk field.ty.inlined) else walk field.ty.inlined

theorem contains_requiredNames (hnodup : (fields.map (·.name)).Nodup) {field : ArgField}
    (hfield : field ∈ fields) : (requiredNames fields).contains field.name = !field.hasDefault := by
  have hmem : field.name ∈ requiredNames fields ↔ field.hasDefault = false := by
    simp only [requiredNames, List.mem_map, List.mem_filter, Bool.not_eq_true']
    constructor
    · rintro ⟨other, ⟨hother, hdefault⟩, hname⟩
      rwa [List.inj_on_of_nodup_map hnodup hother hfield hname] at hdefault
    · intro hdefault
      exact ⟨field, ⟨hfield, hdefault⟩, rfl⟩
  cases hdefault : field.hasDefault <;> simp [hmem, hdefault]

theorem mem_nullableProperties (hnodup : (fields.map (·.name)).Nodup) {pair : String × Json} :
    pair ∈ nullableProperties (requiredNames fields) (walkedFields fields) ↔
      ∃ field ∈ fields, field.name ≠ "definitions" ∧ pair = (field.name, propertySchema field) := by
  have hschema : ∀ field ∈ fields, (if (requiredNames fields).contains field.name || isNullable (walk field.ty.inlined) then
      (field.name, walk field.ty.inlined) else (field.name, nullable (walk field.ty.inlined))) =
        (field.name, propertySchema field) := by
    intro field hfield
    rw [contains_requiredNames hnodup hfield, isNullable_walk, propertySchema]
    cases field.hasDefault <;> cases field.ty.isOptional <;> rfl
  simp only [nullableProperties, List.mem_map]
  constructor
  · rintro ⟨property, hproperty, rfl⟩
    obtain ⟨field, hfield, hname, rfl⟩ := mem_walkedFields.mp hproperty
    exact ⟨field, hfield, hname, hschema field hfield⟩
  · rintro ⟨field, hfield, hname, rfl⟩
    exact ⟨_, mem_walkedFields.mpr ⟨field, hfield, hname, rfl⟩, hschema field hfield⟩

theorem valid_nullable {schema : Json} : valid (nullable schema) data = true ↔ valid schema data = true ∨ data = .null := by
  rw [nullable, valid_anyOf]
  simp only [List.mem_cons, List.not_mem_nil, or_false, exists_eq_or_imp, exists_eq_left, valid_typed, contains_null]

theorem valid_propertySchema {field : ArgField}
    (h : valid (walk field.ty.inlined) data = true ↔ field.ty.Accepts data) :
    valid (propertySchema field) data = true ↔ field.ty.Accepts data ∨ field.hasDefault = true ∧ data = .null := by
  unfold propertySchema
  split
  next hwrapped =>
    rw [valid_nullable, h]
    simp [(Bool.and_eq_true_iff.mp hwrapped).1]
  next hkept =>
    rw [h]
    constructor
    · exact .inl
    · rintro (haccepts | ⟨hdefault, rfl⟩)
      · exact haccepts
      · -- an optional type accepts null by itself
        cases hty : field.ty with
        | optional ty => exact .inr rfl
        | _ => simp [hdefault, hty, ArgTy.isOptional] at hkept

/-- The strict schema of a model, when those of its fields are known. -/
theorem valid_model_iff (hnodup : (fields.map (·.name)).Nodup)
    (h : ∀ field ∈ fields, ∀ data, valid (walk field.ty.inlined) data = true ↔ field.ty.Accepts data) (data : Json) :
    valid (walk (.obj (modelKeywords (inlinedFields fields) (requiredNames fields)))) data = true ↔
      (ArgTy.model none fields).Accepts data := by
  have hnames : ∀ name, name ∈ (nullableProperties (requiredNames fields) (walkedFields fields)).map Prod.fst ↔
      name ≠ "definitions" ∧ name ∈ fields.map (·.name) := by
    intro name
    simp only [List.mem_map, mem_nullableProperties hnodup]
    constructor
    · rintro ⟨_, ⟨field, hfield, hname, rfl⟩, rfl⟩
      exact ⟨hname, field, hfield, rfl⟩
    · rintro ⟨hname, field, hfield, rfl⟩
      exact ⟨_, ⟨field, hfield, hname, rfl⟩, rfl⟩
  rw [walk, walkPairs_modelKeywords, valid_closed_iff (isClosedObject_strictNode _ _), ArgTy.Accepts]
  refine exists_congr fun pairs => and_congr_right fun _ => ?_
  rw [fieldsAccept_iff]
  constructor
  · rintro ⟨hdescribed, hrequired, hvalid⟩
    refine ⟨fun pair hpair => (hnames _).mp (hdescribed pair hpair), fun field hfield hname => ?_⟩
    have hthere := hrequired field.name (mem_sortedNames.mpr ((hnames _).mpr ⟨hname, List.mem_map_of_mem hfield⟩))
    obtain ⟨value, hvalue⟩ := Option.isSome_iff_exists.mp hthere
    refine ⟨value, hvalue, (valid_propertySchema (h field hfield value)).mp ?_⟩
    exact hvalid _ ((mem_nullableProperties hnodup).mpr ⟨field, hfield, hname, rfl⟩) value hvalue
  · rintro ⟨hdescribed, hfields⟩
    refine ⟨fun pair hpair => (hnames _).mpr (hdescribed pair hpair), ?_, ?_⟩
    · intro name hname
      obtain ⟨hdefinitions, hmem⟩ := (hnames _).mp (mem_sortedNames.mp hname)
      obtain ⟨field, hfield, rfl⟩ := List.mem_map.mp hmem
      obtain ⟨value, hvalue, -⟩ := hfields field hfield hdefinitions
      rw [hvalue]
      rfl
    · rintro _ hproperty value hvalue
      obtain ⟨field, hfield, hname, rfl⟩ := (mem_nullableProperties hnodup).mp hproperty
      obtain ⟨value', hvalue', haccepts⟩ := hfields field hfield hname
      rw [hvalue'] at hvalue
      cases hvalue
      exact (valid_propertySchema (h field hfield _)).mpr haccepts

mutual

/-- **What the strict schema of a type accepts**, at every depth. -/
theorem valid_strict_iff {defs : Pairs} : ∀ (ty : ArgTy), ty.WellFormed defs → ∀ data,
    valid (walk ty.inlined) data = true ↔ ty.Accepts data
  | .str, _, data => by rw [ArgTy.inlined, walk_typed, valid_typed, contains_string, ArgTy.Accepts]
  | .int, _, data => by rw [ArgTy.inlined, walk_typed, valid_typed, ArgTy.Accepts]
  | .float, _, data => by rw [ArgTy.inlined, walk_typed, valid_typed, ArgTy.Accepts]
  | .bool, _, data => by rw [ArgTy.inlined, walk_typed, valid_typed, contains_boolean, ArgTy.Accepts]
  | .optional ty, hwf, data => by
    rw [ArgTy.inlined, walk_nullable, valid_nullable, valid_strict_iff ty hwf data, ArgTy.Accepts]
  | .list ty, hwf, data => by
    rw [ArgTy.inlined, walk_list, valid_array, ArgTy.Accepts]
    simp only [valid_strict_iff ty hwf]
  | .model _ fields, ⟨_, hnodup, _, hwf⟩, data => by
    rw [ArgTy.inlined, valid_model_iff hnodup (valid_strictFields_iff fields hwf), ArgTy.Accepts, ArgTy.Accepts]

theorem valid_strictFields_iff {defs : Pairs} : ∀ (fields : List ArgField), FieldsWellFormed defs fields →
    ∀ field ∈ fields, ∀ data, valid (walk field.ty.inlined) data = true ↔ field.ty.Accepts data
  | [], _, _, hfield, _ => by cases hfield
  | ⟨name, hasDefault, ty⟩ :: fields, ⟨hty, hwf⟩, field, hfield, data => by
    rcases List.mem_cons.mp hfield with rfl | hfield
    · exact valid_strict_iff ty hty data
    · exact valid_strictFields_iff fields hwf field hfield data

end

end Walk

/-! ### What the wire schema accepts -/

section Wire

theorem SgrTool.inlineDefs_parameters (tool : SgrTool) :
    inlineDefs (updateDict (dictAt "$defs" tool.parameters) (dictAt "definitions" tool.parameters))
      (ArgTy.model none tool.fields).depth (.obj tool.parameters) =
        .obj (modelKeywords (inlinedFields tool.fields) (requiredNames tool.fields)) := by
  have hdefs : updateDict (dictAt "$defs" tool.parameters) (dictAt "definitions" tool.parameters) = tool.defs := by
    by_cases hdefs : tool.defs = [] <;> by_cases hrequired : requiredNames tool.fields = [] <;>
      simp [SgrTool.parameters, modelSchema, modelKeywords, dictAt, updateDict, Json.pairs, List.lookup, hdefs, hrequired]
  have hmodel := inlineDefs_schema (ArgTy.model none tool.fields) tool.wellFormed le_rfl
  have href : (modelSchema tool.fields).lookup "$ref" = none := by
    unfold modelSchema modelKeywords
    split <;> rfl
  have href' : tool.parameters.lookup "$ref" = none := by
    rw [SgrTool.parameters, List.lookup_append, href]
    split <;> rfl
  have hinlined : (ArgTy.model none tool.fields).inlined =
      .obj (modelKeywords (inlinedFields tool.fields) (requiredNames tool.fields)) := rfl
  obtain ⟨n, hn⟩ : ∃ n, (ArgTy.model none tool.fields).depth = n + 1 := ⟨_, rfl⟩
  rw [hdefs, hn, inlineDefs_obj href', ← hinlined, ← hmodel, hn, ArgTy.schema, ← modelSchema,
    inlineDefs_obj href, SgrTool.parameters, List.filter_append]
  split <;> simp

/-- **The schema of the arguments** of a tool is the strict schema of its model. -/
theorem SgrTool.valid_args_iff (tool : SgrTool) (data : Json) :
    valid tool.args data = true ↔ (ArgTy.model none tool.fields).Accepts data := by
  obtain ⟨-, hnodup, -, hfields⟩ := tool.wellFormed
  have hparams : strictNormalize (ArgTy.model none tool.fields).depth tool.parameters =
      walk (.obj (modelKeywords (inlinedFields tool.fields) (requiredNames tool.fields))) := by
    rw [strictNormalize, tool.inlineDefs_parameters]
  have hclosed := isClosedObject_strictNode (walkedFields tool.fields) (requiredNames tool.fields)
  have htype : (strictNode (modelKeywords (walkedFields tool.fields) (requiredNames tool.fields))).lookup "type" =
      some (.str "object") := by
    cases hlookup : (strictNode (modelKeywords (walkedFields tool.fields) (requiredNames tool.fields))).lookup "type" with
    | none =>
      have hne := List.lookup_eq_none_iff.mp hlookup _ hclosed.type_mem
      simp at hne
    | some value =>
      rcases hclosed.only _ (mem_of_lookup hlookup) with h | h | h | h | h <;> simp_all
  have hargs : tool.args = walk (.obj (modelKeywords (inlinedFields tool.fields) (requiredNames tool.fields))) := by
    rw [SgrTool.args, hparams, walk, walkPairs_modelKeywords]
    simp only [Json.pairs, htype]
  rw [hargs]
  exact valid_model_iff hnodup (valid_strictFields_iff tool.fields hfields) data

theorem isClosedObject_closedSchema (properties : Pairs) : ∃ keywords, closedSchema properties = .obj keywords ∧
    IsClosedObject keywords properties (properties.map Prod.fst) := by
  refine ⟨_, rfl, ?_⟩
  constructor <;> simp [List.lookup, Function.comp_def]

theorem valid_closedSchema {properties : Pairs} : valid (closedSchema properties) data = true ↔
    ∃ pairs, data = .obj pairs ∧ Closed properties (properties.map Prod.fst) pairs := by
  obtain ⟨keywords, hkeywords, hclosed⟩ := isClosedObject_closedSchema properties
  rw [hkeywords, valid_closed_iff hclosed]

/-- **The branch of a tool**: its name, and arguments that its strict schema accepts. -/
theorem SgrTool.valid_branch_iff (tool : SgrTool) (data : Json) : valid tool.branch data = true ↔
    ∃ pairs args, data = .obj pairs ∧ (∀ pair ∈ pairs, pair.1 = "action" ∨ pair.1 = "args") ∧
      pairs.lookup "action" = some (.str tool.name) ∧ pairs.lookup "args" = some args ∧
        (ArgTy.model none tool.fields).Accepts args := by
  have hclosed : IsClosedObject [("type", .str "object"), ("additionalProperties", .bool false),
      ("description", .str tool.description), ("required", .arr [.str "action", .str "args"]),
      ("properties", .obj [("action", .obj [("const", .str tool.name)]), ("args", tool.args)])]
      [("action", .obj [("const", .str tool.name)]), ("args", tool.args)] ["action", "args"] := by
    constructor <;> simp [List.lookup]
  rw [SgrTool.branch, valid_closed_iff hclosed]
  constructor
  · rintro ⟨pairs, rfl, h⟩
    obtain ⟨action, haction, hname⟩ := h.get "action" List.mem_cons_self List.mem_cons_self
    obtain ⟨args, hargs, hvalid⟩ := h.get "args" (List.mem_cons_of_mem _ List.mem_cons_self)
      (List.mem_cons_of_mem _ List.mem_cons_self)
    rw [valid_const, sameScalar_str] at hname
    refine ⟨pairs, args, rfl, ?_, by rw [haction, hname], hargs, (tool.valid_args_iff args).mp hvalid⟩
    intro pair hpair
    simpa using h.described pair hpair
  · rintro ⟨pairs, args, rfl, hkeys, haction, hargs, haccepts⟩
    refine ⟨pairs, rfl, ?_, ?_, ?_⟩
    · intro pair hpair
      simpa using hkeys pair hpair
    · simp only [List.forall_mem_cons, haction, hargs, Option.isSome_some, true_and]
      exact List.forall_mem_nil _
    · simp only [List.forall_mem_cons, haction, hargs, Option.some.injEq, forall_eq', valid_const]
      exact ⟨sameScalar_str.mpr rfl, (tool.valid_args_iff args).mpr haccepts, List.forall_mem_nil _⟩

theorem valid_text {m : ℤ} :
    valid (.obj [("type", .str "string"), ("minLength", .int 1), ("maxLength", .int m)]) data = true ↔
      ∃ s, data = .str s ∧ 1 ≤ s.length ∧ s.length ≤ m := by
  cases data with
  | str s => grind [valid, validKeywords, assertion, typeNames]
  | float q => by_cases h : q.den = 1 <;> simp [valid, validKeywords, assertion, typeNames, h]
  | _ => simp [valid, validKeywords, assertion, typeNames]

theorem valid_nonempty : valid (.obj [("type", .str "string"), ("minLength", .int 1)]) data = true ↔
    ∃ s, data = .str s ∧ 1 ≤ s.length := by
  cases data with
  | str s => grind [valid, validKeywords, assertion, typeNames]
  | float q => by_cases h : q.den = 1 <;> simp [valid, validKeywords, assertion, typeNames, h]
  | _ => simp [valid, validKeywords, assertion, typeNames]

end Wire

end Sreda.React
