import Sreda.React.SgrSchema

/-!
# The parser of an SGR step

`runtime/react_sgr.py`, the part that reads a reply: `parse_sgr_reply` and the pydantic models of a step. The text of the
reply is given as what `json.loads` makes of it, or as the type of what it raises. A validation error is the number of its
errors. `strict=True` is the strict mode of pydantic on Python values: no value of another type is converted, but an int is
a float; a nested model is a dictionary, whose extra keys are ignored; a field without a default is there.

## What is proved

* a reply that is valid against the flat or the envelope schema comes down to one step (`flatten_of_valid`), which is read
  (`parseStep_of_closed`);
* which arguments pass (`checkArgs_eq_ok_iff`), and that those of an act have passed (`checkArgs_of_act`).
-/

namespace Sreda.React

open Sreda.Lib Sreda.Lib.JsonSchema

/-! ### Validating arguments -/

mutual

/-- `model_validate(…, strict=True)`, at a type. -/
def ArgTy.validate : ArgTy → Json → Bool
  | .str, data =>
    match data with
    | .str _ => true
    | _ => false
  | .int, data =>
    match data with
    | .int _ => true
    | _ => false
  | .float, data =>
    match data with
    | .int _ | .float _ => true
    | _ => false
  | .bool, data =>
    match data with
    | .bool _ => true
    | _ => false
  | .optional ty, data =>
    match data with
    | .null => true
    | data => ty.validate data
  | .list ty, data =>
    match data with
    | .arr items => items.all fun item => ty.validate item
    | _ => false
  | .model _ fields, data =>
    match data with
    | .obj pairs => validateFields fields pairs
    | _ => false
termination_by structural ty => ty

def validateFields : List ArgField → Pairs → Bool
  | [], _ => true
  | ⟨name, hasDefault, ty⟩ :: fields, pairs =>
    (match pairs.lookup name with
      | some data => ty.validate data
      | none => hasDefault) && validateFields fields pairs
termination_by structural fields => fields

end

/-! ### Steps -/

/-- `SgrInvalidReply`, by its reason. -/
inductive SgrInvalidReply where
  | nativeToolCalls
  | jsonError (type : String)
  | topType
  | envelopeInnerSituation
  | notBool (key : String)
  | branch (errors : ℕ)
  | unknownTool (action : String)
  | extraKeys (keys : List String)
  | argsInvalid (type : String)

inductive StepKind where
  | act | clarify | finish
deriving DecidableEq

/-- `SgrDecision`. -/
structure SgrDecision where
  kind : StepKind
  situation : String
  enoughData : Option Bool := none
  taskCompleted : Option Bool := none
  action : Option String := none
  args : Option Pairs := none
  question : Option String := none
  reply : Option String := none

/-- `_ActStep`, `_ClarifyStep` and `_FinishStep`. -/
inductive SgrStep where
  | act (situation action : String) (args : Pairs)
  | clarify (situation question : String)
  | finish (situation reply : String)

/-- The errors of a text field with a least and a greatest length. -/
def textErrors (maxLength : Option ℕ) : Option Json → ℕ
  | some (.str s) => if 1 ≤ s.length ∧ maxLength.all (s.length ≤ ·) then 0 else 1
  | _ => 1

/-- The errors of a field of type `Literal[b]`. -/
def literalErrors (b : Bool) : Option Json → ℕ
  | some (.bool c) => if c = b then 0 else 1
  | _ => 1

/-- The errors of a field that is any string, or any dictionary. -/
def strErrors : Option Json → ℕ
  | some (.str _) => 0
  | _ => 1

def dictErrors : Option Json → ℕ
  | some (.obj _) => 0
  | _ => 1

/-- The errors of `extra="forbid"`. -/
def extraErrors (allowed : List String) (pairs : Pairs) : ℕ := pairs.countP fun pair => !allowed.contains pair.1

/-- The errors of `_ToolChoice`. -/
def toolErrors : Option Json → ℕ
  | some (.obj tool) =>
    strErrors (tool.lookup "action") + dictErrors (tool.lookup "args") + extraErrors ["action", "args"] tool
  | _ => 1

def textAt (key : String) (data : Pairs) : String :=
  match data.lookup key with
  | some (.str s) => s
  | _ => ""

/-- `_AnyStep(root=data).root`: the tag picks the model, whose errors are counted. -/
def parseStep (data : Pairs) : Except ℕ SgrStep :=
  let situation := textAt "situation" data
  let situationErrors := textErrors (some 400) (data.lookup "situation")
  match data.lookup "kind" with
  | some (.str tag) =>
    if tag = "act" then
      let errors := situationErrors + literalErrors true (data.lookup "enough_data") + toolErrors (data.lookup "tool")
        + extraErrors ["kind", "situation", "enough_data", "tool"] data
      if errors = 0 then .ok (.act situation (textAt "action" (dictAt "tool" data)) (dictAt "args" (dictAt "tool" data)))
      else .error errors
    else if tag = "clarify" then
      let errors := situationErrors + literalErrors false (data.lookup "enough_data")
        + textErrors (some 300) (data.lookup "question") + extraErrors ["kind", "situation", "enough_data", "question"] data
      if errors = 0 then .ok (.clarify situation (textAt "question" data)) else .error errors
    else if tag = "finish" then
      let errors := situationErrors + literalErrors true (data.lookup "task_completed")
        + textErrors none (data.lookup "reply") + extraErrors ["kind", "situation", "task_completed", "reply"] data
      if errors = 0 then .ok (.finish situation (textAt "reply" data)) else .error errors
    else .error 1
  | _ => .error 1

/-! ### The reply -/

/-- `{k: v for k, v in args.items() if v is not None}`. -/
def dropNulls (args : Pairs) : Pairs :=
  args.filter fun pair =>
    match pair.2 with
    | .null => false
    | _ => true

/-- The arguments of an act, against the tool. -/
def checkArgs (tool : SgrTool) (args : Pairs) : Except SgrInvalidReply Pairs :=
  let args := dropNulls args
  let extra := (args.map Prod.fst).filter fun key => !(tool.fields.map (·.name)).contains key
  if extra ≠ [] then .error (.extraKeys (extra.mergeSort fun a b => decide (a ≤ b)))
  else if (ArgTy.model none tool.fields).validate (.obj args) then .ok args
  else .error (.argsInvalid "ValidationError")

/-- The end of `parse_sgr_reply`, from the flat form on. -/
def decideStep (tools : List SgrTool) (data : Pairs) : Except SgrInvalidReply SgrDecision :=
  match parseStep data with
  | .error errors => .error (.branch errors)
  | .ok (.act situation action args) =>
    match tools.find? (·.name = action) with
    | none => .error (.unknownTool action)
    | some tool => (checkArgs tool args).map fun args =>
      { kind := .act, situation, enoughData := some true, action := some action, args := some args }
  | .ok (.clarify situation question) =>
    .ok { kind := .clarify, situation, enoughData := some false, question := some question }
  | .ok (.finish situation reply) => .ok { kind := .finish, situation, taskCompleted := some true, reply := some reply }

/-- An object with a situation, a step that is an object, and nothing else. -/
def isEnvelope (data : Pairs) : Bool :=
  data.all (fun pair => pair.1 = "situation" || pair.1 = "step") && (data.lookup "situation").isSome
    && dictErrors (data.lookup "step") = 0

/-- The envelope taken off. -/
def flatten (data : Pairs) : Except SgrInvalidReply Pairs :=
  if isEnvelope data then
    let step := dictAt "step" data
    if (step.lookup "situation").isSome then .error .envelopeInnerSituation
    else .ok (put "situation" ((data.lookup "situation").getD .null) step)
  else .ok data

/-- A field that is there, and no bool. -/
def isNotBool (key : String) (data : Pairs) : Bool :=
  match data.lookup key with
  | none | some (.bool _) => false
  | _ => true

/-- `parse_sgr_reply`. -/
def parseSgrReply (content : Except String Json) (toolCalls : Bool) (tools : List SgrTool) :
    Except SgrInvalidReply SgrDecision :=
  if toolCalls then .error .nativeToolCalls
  else match content with
    | .error type => .error (.jsonError type)
    | .ok (.obj data) => do
      let data ← flatten data
      if isNotBool "enough_data" data then .error (.notBool "enough_data")
      else if isNotBool "task_completed" data then .error (.notBool "task_completed")
      else decideStep tools data
    | .ok _ => .error .topType

/-! ### Which arguments pass -/

theorem ArgTy.validate_optional {ty : ArgTy} {data : Json} (h : data ≠ .null) :
    (ArgTy.optional ty).validate data = ty.validate data := by
  cases data with
  | null => exact absurd rfl h
  | _ => rfl

theorem validateFields_iff {pairs : Pairs} : ∀ {fields : List ArgField}, validateFields fields pairs = true ↔
    ∀ field ∈ fields, (∃ data, pairs.lookup field.name = some data ∧ field.ty.validate data = true) ∨
      pairs.lookup field.name = none ∧ field.hasDefault = true
  | [] => by simp [validateFields]
  | ⟨name, hasDefault, ty⟩ :: fields => by
    rw [validateFields, Bool.and_eq_true, @validateFields_iff pairs fields, List.forall_mem_cons]
    apply and_congr_left
    intro _
    cases hlookup : pairs.lookup name <;> simp

theorem checkArgs_eq_ok_iff {tool : SgrTool} {args args' : Pairs} : checkArgs tool args = .ok args' ↔
    args' = dropNulls args ∧ (∀ pair ∈ dropNulls args, pair.1 ∈ tool.fields.map (·.name)) ∧
      validateFields tool.fields (dropNulls args) = true := by
  have hextra : ((dropNulls args).map Prod.fst).filter (fun key => !(tool.fields.map (·.name)).contains key) = [] ↔
      ∀ pair ∈ dropNulls args, pair.1 ∈ tool.fields.map (·.name) := by
    rw [List.filter_eq_nil_iff, List.forall_mem_map]
    simp
  rw [← hextra, checkArgs]
  split
  next hne =>
    constructor
    · intro h
      cases h
    · rintro ⟨-, hnil, -⟩
      exact absurd hnil hne
  next hnil =>
    have hmodel : (ArgTy.model none tool.fields).validate (.obj (dropNulls args)) = validateFields tool.fields (dropNulls args) := rfl
    rw [hmodel]
    split
    next hvalid =>
      constructor
      · intro h
        cases h
        exact ⟨rfl, not_not.mp hnil, hvalid⟩
      · rintro ⟨rfl, -, -⟩
        rfl
    next hinvalid =>
      constructor
      · intro h
        cases h
      · rintro ⟨-, -, hvalid⟩
        exact absurd hvalid hinvalid

/-! ### From the schema to the step -/

theorem textErrors_str {maxLength : Option ℕ} {s : String} (hmin : 1 ≤ s.length) (hmax : ∀ m ∈ maxLength, s.length ≤ m) :
    textErrors maxLength (some (.str s)) = 0 := by
  cases maxLength with
  | none => simp [textErrors, hmin]
  | some m => simp [textErrors, hmin, hmax m rfl]

theorem extraErrors_eq_zero {allowed : List String} {pairs : Pairs} (h : ∀ pair ∈ pairs, pair.1 ∈ allowed) :
    extraErrors allowed pairs = 0 := by
  rw [extraErrors, List.countP_eq_zero]
  intro pair hpair
  simpa using h pair hpair

/-- The flat form of a step, as the schema describes it. -/
def StepClosed (tools : List SgrTool) (data : Pairs) : Prop :=
  ∃ properties ∈ stepProperties tools, Closed properties (properties.map Prod.fst) data

variable {tools : List SgrTool}

/-- Each branch of the flat form describes the situation once. -/
theorem situation_of_mem {properties : Pairs} (h : properties ∈ stepProperties tools) :
    ("situation", situationSchema) ∈ properties ∧
      ∀ property ∈ properties, property.1 = "situation" → property.2 = situationSchema := by
  simp only [stepProperties, List.mem_cons, List.not_mem_nil, or_false] at h
  rcases h with rfl | rfl | rfl <;> simp

/-- A step of the envelope gets the situation of the root. -/
theorem closed_put_situation {properties step : Pairs} {root : Json} (hmem : properties ∈ stepProperties tools)
    (hroot : valid situationSchema root = true)
    (h : Closed (popKey "situation" properties) ((popKey "situation" properties).map Prod.fst) step) :
    Closed properties (properties.map Prod.fst) (put "situation" root step) := by
  obtain ⟨hsituation, honly⟩ := situation_of_mem hmem
  have hkept : ∀ property ∈ properties, property.1 ≠ "situation" → property ∈ popKey "situation" properties := by
    intro property hproperty hne
    exact List.mem_filter.mpr ⟨hproperty, decide_eq_true hne⟩
  refine ⟨?_, ?_, ?_⟩
  · intro pair hpair
    rcases mem_put hpair with rfl | hpair
    · exact List.mem_map.mpr ⟨_, hsituation, rfl⟩
    · obtain ⟨property, hproperty, hname⟩ := List.mem_map.mp (h.described pair hpair)
      rw [← hname]
      exact List.mem_map_of_mem (List.mem_filter.mp hproperty).1
  · intro name hname
    rw [lookup_put]
    split
    · rfl
    next hne =>
      obtain ⟨property, hproperty, rfl⟩ := List.mem_map.mp hname
      exact h.required _ (List.mem_map_of_mem (hkept property hproperty hne))
  · intro property hproperty value hvalue
    rw [lookup_put] at hvalue
    split at hvalue
    next heq =>
      cases hvalue
      rwa [honly property hproperty heq]
    next hne => exact h.valid property (hkept property hproperty hne) value hvalue

theorem stepClosed_cases {data : Pairs} (h : StepClosed tools data) :
    (∃ situation, data.lookup "situation" = some (.str situation) ∧ 1 ≤ situation.length ∧ situation.length ≤ 400) ∧
    ((data.lookup "kind" = some (.str "act") ∧ data.lookup "enough_data" = some (.bool true) ∧
        data.lookup "task_completed" = none ∧ (∃ tool ∈ tools, ∃ choice, data.lookup "tool" = some choice ∧
          valid tool.branch choice = true) ∧ ∀ pair ∈ data, pair.1 ∈ ["kind", "situation", "enough_data", "tool"]) ∨
      (data.lookup "kind" = some (.str "clarify") ∧ data.lookup "enough_data" = some (.bool false) ∧
        data.lookup "task_completed" = none ∧ (∃ question, data.lookup "question" = some (.str question) ∧
          1 ≤ question.length ∧ question.length ≤ 300) ∧
        ∀ pair ∈ data, pair.1 ∈ ["kind", "situation", "enough_data", "question"]) ∨
      (data.lookup "kind" = some (.str "finish") ∧ data.lookup "task_completed" = some (.bool true) ∧
        data.lookup "enough_data" = none ∧ (∃ reply, data.lookup "reply" = some (.str reply) ∧ 1 ≤ reply.length) ∧
        ∀ pair ∈ data, pair.1 ∈ ["kind", "situation", "task_completed", "reply"])) := by
  obtain ⟨properties, hmem, hclosed⟩ := h
  have hget : ∀ {name : String} {schema : Json}, (name, schema) ∈ properties →
      ∃ value, data.lookup name = some value ∧ valid schema value = true := fun hproperty =>
    hclosed.get _ hproperty (List.mem_map_of_mem hproperty)
  have hconst : ∀ {name : String} {value : Json}, (name, constSchema value) ∈ properties →
      ∃ found, data.lookup name = some found ∧ sameScalar value found = true := by
    intro name value hproperty
    obtain ⟨found, hfound, hvalid⟩ := hget hproperty
    exact ⟨found, hfound, by rwa [constSchema, valid_const] at hvalid⟩
  have hsituation : ∃ situation, data.lookup "situation" = some (.str situation) ∧ 1 ≤ situation.length ∧
      situation.length ≤ 400 := by
    obtain ⟨value, hvalue, hvalid⟩ := hget (situation_of_mem hmem).1
    obtain ⟨situation, rfl, hmin, hmax⟩ := valid_text.mp hvalid
    exact ⟨situation, hvalue, hmin, by omega⟩
  have hdescribed := hclosed.described
  refine ⟨hsituation, ?_⟩
  simp only [stepProperties, List.mem_cons, List.not_mem_nil, or_false] at hmem
  rcases hmem with rfl | rfl | rfl
  · obtain ⟨kind, hkind, hact⟩ := @hconst "kind" (.str "act") (by simp)
    obtain ⟨enough, henough, htrue⟩ := @hconst "enough_data" (.bool true) (by simp)
    obtain ⟨choice, hchoice, hvalid⟩ := hget (.tail _ (.tail _ (.tail _ (.head _))))
    obtain ⟨_, hbranch, hvalid⟩ := valid_anyOf.mp hvalid
    obtain ⟨tool, htool, rfl⟩ := List.mem_map.mp hbranch
    rw [sameScalar_str.mp hact] at hkind
    rw [sameScalar_bool.mp htrue] at henough
    have hnone := hclosed.lookup_eq_none (show "task_completed" ∉ _ by simp)
    exact .inl ⟨hkind, henough, hnone, ⟨tool, htool, choice, hchoice, hvalid⟩, hdescribed⟩
  · obtain ⟨kind, hkind, hclarify⟩ := @hconst "kind" (.str "clarify") (by simp)
    obtain ⟨enough, henough, hfalse⟩ := @hconst "enough_data" (.bool false) (by simp)
    obtain ⟨value, hvalue, hvalid⟩ := hget (.tail _ (.tail _ (.tail _ (.head _))))
    obtain ⟨question, rfl, hmin, hmax⟩ := valid_text.mp hvalid
    rw [sameScalar_str.mp hclarify] at hkind
    rw [sameScalar_bool.mp hfalse] at henough
    have hnone := hclosed.lookup_eq_none (show "task_completed" ∉ _ by simp)
    exact .inr (.inl ⟨hkind, henough, hnone, ⟨question, hvalue, hmin, by omega⟩, hdescribed⟩)
  · obtain ⟨kind, hkind, hfinish⟩ := @hconst "kind" (.str "finish") (by simp)
    obtain ⟨completed, hcompleted, htrue⟩ := @hconst "task_completed" (.bool true) (by simp)
    obtain ⟨value, hvalue, hvalid⟩ := hget (.tail _ (.tail _ (.tail _ (.head _))))
    obtain ⟨reply, rfl, hmin⟩ := valid_nonempty.mp hvalid
    rw [sameScalar_str.mp hfinish] at hkind
    rw [sameScalar_bool.mp htrue] at hcompleted
    have hnone := hclosed.lookup_eq_none (show "enough_data" ∉ _ by simp)
    exact .inr (.inr ⟨hkind, hcompleted, hnone, ⟨reply, hvalue, hmin⟩, hdescribed⟩)

theorem isNotBool_of_closed {data : Pairs} (h : StepClosed tools data) :
    isNotBool "enough_data" data = false ∧ isNotBool "task_completed" data = false := by
  obtain ⟨-, ⟨-, hyes, hno, -⟩ | ⟨-, hyes, hno, -⟩ | ⟨-, hyes, hno, -⟩⟩ := stepClosed_cases h <;>
    simp [isNotBool, hyes, hno]

/-- **A closed step is read.** One that acts has a tool with arguments that the schema of the tool accepts. -/
theorem parseStep_of_closed {data : Pairs} (h : StepClosed tools data) : ∃ step, parseStep data = .ok step ∧
    ∀ situation action args, step = .act situation action args → ∃ tool ∈ tools, tool.name = action ∧
      (ArgTy.model none tool.fields).Accepts (.obj args) ∧
      ∃ choice, data.lookup "tool" = some (.obj choice) ∧ choice.lookup "args" = some (.obj args) := by
  obtain ⟨⟨situation, hsituation, hmin, hmax⟩, hform⟩ := stepClosed_cases h
  have hsit : textErrors (some 400) (some (.str situation)) = 0 := textErrors_str hmin (by simpa using hmax)
  rcases hform with hact | hclarify | hfinish
  · obtain ⟨hkind, henough, -, ⟨tool, htool, choice, hchoice, hvalid⟩, hkeys⟩ := hact
    obtain ⟨pairs, args, rfl, honly, haction, hargs, haccepts⟩ := (tool.valid_branch_iff choice).mp hvalid
    obtain ⟨argPairs, rfl⟩ : ∃ argPairs, args = .obj argPairs := by
      rw [ArgTy.Accepts] at haccepts
      obtain ⟨argPairs, hargPairs, -⟩ := haccepts
      exact ⟨argPairs, hargPairs⟩
    have htool0 : toolErrors (some (.obj pairs)) = 0 := by
      rw [toolErrors, haction, hargs, strErrors, dictErrors, extraErrors_eq_zero]
      intro pair hpair
      simpa using honly pair hpair
    have hparse : parseStep data = .ok (.act situation tool.name argPairs) := by
      simp [parseStep, hkind, hsituation, henough, hchoice, hsit,
        literalErrors, htool0, extraErrors_eq_zero hkeys, textAt, dictAt, Json.pairs, haction, hargs]
    refine ⟨_, hparse, ?_⟩
    rintro _ _ _ ⟨⟩
    exact ⟨tool, htool, rfl, haccepts, pairs, hchoice, hargs⟩
  · obtain ⟨hkind, henough, -, ⟨question, hquestion, hqmin, hqmax⟩, hkeys⟩ := hclarify
    have hquest : textErrors (some 300) (some (.str question)) = 0 := textErrors_str hqmin (by simpa using hqmax)
    refine ⟨.clarify situation question, ?_, ?_⟩
    · simp [parseStep, hkind, hsituation, henough, hquestion, hsit,
        hquest, literalErrors, extraErrors_eq_zero hkeys, textAt]
    · rintro _ _ _ ⟨⟩
  · obtain ⟨hkind, hcompleted, -, ⟨reply, hreply, hrmin⟩, hkeys⟩ := hfinish
    have hrep : textErrors none (some (.str reply)) = 0 := textErrors_str hrmin (by simp)
    refine ⟨.finish situation reply, ?_, ?_⟩
    · simp [parseStep, hkind, hsituation, hcompleted, hreply, hsit,
        hrep, literalErrors, extraErrors_eq_zero hkeys, textAt]
    · rintro _ _ _ ⟨⟩

/-- A step of one of the branches has no envelope. -/
theorem flatten_of_closed {data : Pairs} (h : StepClosed tools data) : flatten data = .ok data := by
  have hkind : ∃ kind, ("kind", kind) ∈ data := by
    obtain ⟨-, ⟨hkind, -⟩ | ⟨hkind, -⟩ | ⟨hkind, -⟩⟩ := stepClosed_cases h <;> exact ⟨_, mem_of_lookup hkind⟩
  obtain ⟨kind, hkind⟩ := hkind
  have henvelope : isEnvelope data = false := by
    rw [isEnvelope, List.all_eq_false.mpr ⟨_, hkind, by simp⟩]
    rfl
  rw [flatten, henvelope]
  rfl

/-- The values of the keys have no double keys. -/
def DistinctValues (data : Pairs) : Prop := ∀ key value, data.lookup key = some value → value.DistinctKeys

/-- **A reply that is valid** against the schema of a shape comes down to one step. -/
theorem flatten_of_valid {shape : String} {schema : Json} {data : Pairs} (hschema : buildWireSchema tools shape = .ok schema)
    (hvalid : valid schema (.obj data) = true) (hdistinct : (Json.obj data).DistinctKeys) :
    ∃ flat, flatten data = .ok flat ∧ StepClosed tools flat ∧ DistinctValues flat := by
  have hvalues : DistinctValues data := fun _ _ h => hdistinct.2.lookup h
  unfold buildWireSchema at hschema
  split_ifs at hschema
  · cases hschema
    obtain ⟨_, hbranch, hvalid⟩ := valid_anyOf.mp hvalid
    obtain ⟨properties, hproperties, rfl⟩ := List.mem_map.mp hbranch
    obtain ⟨_, ⟨⟩, hclosed⟩ := valid_closedSchema.mp hvalid
    exact ⟨data, flatten_of_closed ⟨properties, hproperties, hclosed⟩, ⟨properties, hproperties, hclosed⟩, hvalues⟩
  · cases hschema
    obtain ⟨_, ⟨⟩, hclosed⟩ := valid_closedSchema.mp hvalid
    obtain ⟨root, hroot, hrootValid⟩ := hclosed.get "situation" List.mem_cons_self List.mem_cons_self
    obtain ⟨value, hstep, hstepValid⟩ := hclosed.get "step" (.tail _ (.head _)) (.tail _ (.head _))
    obtain ⟨_, hbranch, hstepValid⟩ := valid_anyOf.mp hstepValid
    obtain ⟨properties, hproperties, rfl⟩ := List.mem_map.mp hbranch
    obtain ⟨step, rfl, hstepClosed⟩ := valid_closedSchema.mp hstepValid
    have henvelope : isEnvelope data = true := by
      have hkeys : data.all (fun pair => pair.1 = "situation" || pair.1 = "step") = true := by
        rw [List.all_eq_true]
        intro pair hpair
        simpa using hclosed.described pair hpair
      rw [isEnvelope, hkeys, hroot, hstep]
      rfl
    have hinner : step.lookup "situation" = none := by
      apply hstepClosed.lookup_eq_none
      simp [popKey]
    have hflat : flatten data = .ok (put "situation" root step) := by
      simp [flatten, henvelope, dictAt, hstep, Json.pairs, hinner, hroot]
    refine ⟨_, hflat, ⟨properties, hproperties, closed_put_situation hproperties hrootValid hstepClosed⟩, ?_⟩
    intro key value hvalue
    rw [lookup_put] at hvalue
    split at hvalue
    · cases hvalue
      exact hvalues _ _ hroot
    · exact (hvalues _ _ hstep).2.lookup hvalue

theorem parseSgrReply_of_closed {data flat : Pairs} (hflat : flatten data = .ok flat) (hclosed : StepClosed tools flat) :
    parseSgrReply (.ok (.obj data)) false tools = decideStep tools flat := by
  obtain ⟨henough, hcompleted⟩ := isNotBool_of_closed hclosed
  rw [parseSgrReply, if_neg Bool.false_ne_true]
  show (flatten data >>= _) = _
  rw [hflat]
  show (if isNotBool "enough_data" flat then _ else _) = _
  rw [henough, hcompleted]
  rfl

/-- An act that the parser returns has checked arguments of one of the tools. -/
theorem checkArgs_of_act {content : Except String Json} {toolCalls : Bool} {decision : SgrDecision}
    (h : parseSgrReply content toolCalls tools = .ok decision) (hkind : decision.kind = .act) :
    ∃ tool ∈ tools, ∃ sent args, decision.action = some tool.name ∧ decision.args = some args ∧
      checkArgs tool sent = .ok args := by
  unfold parseSgrReply at h
  split at h
  · cases h
  · split at h
    · cases h
    · next data =>
      cases hflat : flatten data with
      | error e => simp [hflat, bind, Except.bind] at h
      | ok flat =>
        have hstep : decideStep tools flat = .ok decision := by
          simp only [hflat, bind, Except.bind] at h
          split at h
          · cases h
          · split at h
            · cases h
            · exact h
        unfold decideStep at hstep
        split at hstep
        · cases hstep
        next action sent _ =>
          split at hstep
          · cases hstep
          next tool hfind =>
            cases hargs : checkArgs tool sent with
            | error e => simp [hargs, Except.map] at hstep
            | ok args =>
              rw [hargs] at hstep
              cases hstep
              obtain rfl : tool.name = action := by simpa using List.find?_some hfind
              exact ⟨tool, List.mem_of_find?_eq_some hfind, sent, args, rfl, rfl, hargs⟩
        · cases hstep
          cases hkind
        · cases hstep
          cases hkind
    · cases h

end Sreda.React
