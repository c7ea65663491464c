import Sreda.Planner.Value

/-!
# Tools

What `tool_schemas.base` and `tool_schemas.executor_contract` say of a tool: its spec, the
check of its arguments and the reading of its output. Descriptions, examples and the other
texts for the planner prompt are left out. The tool itself, its input model and its parser
are functions; the output model is kept as the field annotations that the validator reads.
-/

namespace Sreda.Planner

/-- An exception: `type(exc).__name__` and `str(exc)`. -/
structure PyException where
  type : String
  message : String

/-- What a tool does to the user's data. -/
inductive Effect where
  | read
  | write
deriving DecidableEq

/-- The side effects a tool may declare; `external_side_effect` is refused. -/
inductive SideEffectClass where
  | readOnly
  | transactionalWrite
deriving DecidableEq

/-- The type annotation of a model field. -/
inductive Annotation where
  | any
  | noneType
  /-- A class without fields of its own: `str`, `int`, `datetime`. -/
  | scalar (name : String)
  /-- `Literal[...]` of strings. -/
  | literal (values : List String)
  | list (element : Annotation)
  /-- A set, a frozenset, a tuple, or an abstract sequence. -/
  | sequence (element : Annotation)
  | dict (value : Annotation)
  /-- A pydantic model, by its name. -/
  | model (name : String)
  | union (arms : List Annotation)
  | annotated (inner : Annotation)

/-- A pydantic model: its fields. -/
abbrev Model := List (String × Annotation)

/-- The values that the `status` literal of a variant takes. -/
def Model.statuses (model : Model) : List String :=
  match model.lookup "status" with
  | some (.literal values) => values
  | _ => []

/-- The output model of a tool: the variants of the union, and the models that their fields
mention. -/
structure OutputModel where
  members : List Model
  models : String → Model
  /-- `Field(discriminator="status")`: no status belongs to two variants. -/
  discriminated : members.Pairwise fun member other => ∀ status ∈ Model.statuses member, status ∉ Model.statuses other

/-- What `parse_tool_output` makes of a raw output. -/
inductive Parsed where
  /-- `ToolOutputContractViolation`. -/
  | contractViolation (toolName rawOutput : String)
  /-- A variant of the output, dumped without its computed fields. -/
  | output (dumped : Dict)
  | raised (exc : PyException)

/-- Why the arguments of a call are refused: `ValidationError.errors()`, or any other
exception. -/
inductive ArgsError where
  | validation (errors : String)
  | internal (exc : PyException)

/-- `ToolSpec`. -/
structure ToolSpec where
  name : String
  effect : Effect
  readDomains : List String
  writeDomains : List String
  parallelSafe : Bool
  timeoutSeconds : ℕ
  sideEffectClass : SideEffectClass
  requestLocal : Bool
  committedStatuses : Option (List String)
  /-- `input_model.model_validate(args).model_dump()`. -/
  validateArgs : Value → Except ArgsError Dict
  /-- `parse_tool_output(name, raw)`. -/
  parse : String → Parsed
  outputModel : OutputModel
  /-- Validation against the output model, dumped. -/
  validateOutput : Dict → Except PyException Dict
  timeout_pos : 1 ≤ timeoutSeconds ∧ timeoutSeconds ≤ 600
  /-- The effect and the write domains agree. -/
  domains_ok : effect = .write ↔ writeDomains ≠ []
  request_local_ok : requestLocal = true → effect = .write
  read_only_ok : sideEffectClass = .readOnly → effect = .read

namespace ToolSpec

/-- `is_durable_write`. -/
def isDurableWrite (spec : ToolSpec) : Bool :=
  spec.effect = .write && spec.sideEffectClass = .transactionalWrite && !spec.requestLocal

/-- What `process_output` returns or raises. -/
inductive Processed where
  | output (parsed : Dict)
  /-- `PlannerGapError`, with its text. -/
  | plannerGap (message : String)
  | raised (exc : PyException)

/-- `process_output`, which is `dispatch_typed_output`: the sentinel is looked for before the
output is validated. -/
def processOutput (py : Py) (spec : ToolSpec) (raw : String) : Processed :=
  match spec.parse raw with
  | .contractViolation toolName rawOutput =>
    .plannerGap ("contract_violation: tool=" ++ toolName ++ " raw_output=" ++ py.reprStr rawOutput)
  | .raised exc => .raised exc
  | .output dumped =>
    match spec.validateOutput dumped with
    | .ok parsed => .output parsed
    | .error exc => .raised exc

end ToolSpec

/-- The registry: the specs by tool name. -/
abbrev Registry := String → Option ToolSpec

/-- What comes of calling a tool. -/
inductive ToolCall where
  | returned (raw : String)
  | raised (exc : PyException)
  /-- The call took longer than the timeout; what it runs may still go on. -/
  | timedOut

/-- A tool that can be called, for a step and with the validated arguments. -/
abbrev Tool := (stepId : String) → (args : Dict) → ToolCall

end Sreda.Planner
