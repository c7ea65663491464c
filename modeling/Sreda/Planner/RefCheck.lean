import Sreda.Planner.Compiler

/-!
# The reference checks of the validator

What `validator` checks of the references in the arguments of a plan: their syntax, their
targets, and the path that they walk, against the output model of the producer. The answer
about a path has three values: it can be walked, it cannot, or it is left to the run.
-/

namespace Sreda.Planner

/-! ### Annotations -/

/-- The annotation without the `Annotated` around it. -/
def Annotation.stripAnnotated : Annotation → Annotation
  | .annotated inner => inner.stripAnnotated
  | ann => ann

/-- `type(None)`. -/
def Annotation.isNoneType : Annotation → Bool
  | .noneType => true
  | _ => false

mutual

/-- `_flatten_union_arms`: the arms of a union without `None`, nested unions opened. -/
def flattenUnionArms : Annotation → Option (List Annotation)
  | .annotated inner => flattenUnionArms inner
  | .union arms => some (flattenArms arms)
  | _ => none

def flattenArms : List Annotation → List Annotation
  | [] => []
  | arm :: arms =>
    (if arm.isNoneType then [] else (flattenUnionArms arm).getD [arm.stripAnnotated]) ++ flattenArms arms

end

mutual

/-- `_strip_optional_and_annotated`: of a union, its first arm that is not `None`. -/
def stripOptionalAndAnnotated : Annotation → Annotation
  | .annotated inner => stripOptionalAndAnnotated inner
  | .union arms => stripFirstArm (.union arms) arms
  | ann => ann

def stripFirstArm (whole : Annotation) : List Annotation → Annotation
  | [] => whole
  | arm :: arms => if arm.isNoneType then stripFirstArm whole arms else stripOptionalAndAnnotated arm

end

/-- `_peel_list_element_annotation`. -/
def peelListElementAnnotation (ann : Annotation) : Option Annotation :=
  match stripOptionalAndAnnotated ann with
  | .list element => some element
  | _ => none

/-- `_try_extract_basemodel`. -/
def tryExtractBasemodel (ann : Annotation) : Option String :=
  match stripOptionalAndAnnotated ann with
  | .model name => some name
  | _ => none

/-- `_is_sequence_origin`. -/
def isSequenceOrigin : Annotation → Bool
  | .list _ => true
  | .sequence _ => true
  | _ => false

/-- `startswith("_")`. -/
def isPrivate (field : String) : Bool := field.toList.head? = some '_'

/-! ### Paths -/

section PathStatus

/-- One arm that allows the path is enough; otherwise one arm that leaves it open. -/
def combineStatuses (statuses : List (Option Bool)) : Option Bool :=
  if statuses.contains (some true) then some true
  else if statuses.contains none then none
  else some false

/-- `_member_path_status` for a path that begins with `first`; `deeper` is the answer for the
rest of the path in the field. -/
def memberFieldStatus (deeper : Annotation → Option Bool) (model : Model) (first : String) : Option Bool :=
  if first = "only" then none
  else if isPrivate first then some true
  else match model.lookup first with
    | none => some false
    | some ann => deeper ann

variable (models : String → Model)

/-- `_annotation_path_status`. The arms of a union are not unions themselves. -/
def annotationPathStatus : List String → Annotation → Option Bool
  | [], _ => some true
  | first :: rest, ann =>
    let arm (ann : Annotation) : Option Bool :=
      let bare := stripOptionalAndAnnotated ann
      if first = "only" then
        match peelListElementAnnotation bare with
        | none => some false
        | some element => annotationPathStatus rest element
      else match tryExtractBasemodel bare with
        | some name => memberFieldStatus (fun ann => annotationPathStatus rest ann) (models name) first
        | none => if isSequenceOrigin bare then some false else none
    match flattenUnionArms ann with
    | some arms => combineStatuses (arms.map arm)
    | none => arm ann

/-- `_member_path_status`. -/
def memberPathStatus (model : Model) : List String → Option Bool
  | [] => some true
  | first :: rest => memberFieldStatus (annotationPathStatus models rest) model first

end PathStatus

/-- `_filter_members_by_status`. -/
def filterMembersByStatus (members : List Model) (status : String) : List Model :=
  members.filter fun member => status ∈ member.statuses

/-- `_ref_field_exists_in_output`. -/
def refFieldExistsInOutput (output : OutputModel) (segments : List String) (narrowToStatus : Option String) :
    Option Bool :=
  if output.members.isEmpty then none
  else
    let members := match narrowToStatus with
      | none => output.members
      | some status => filterMembersByStatus output.members status
    if members.isEmpty then none
    else match segments with
      | [] => some true
      | first :: _ =>
        if isPrivate first then some true
        else combineStatuses (members.map fun member => memberPathStatus output.models member segments)

/-- `_reachable_producer_statuses`: the statuses under which a branch of the producer goes on
with the consumer. Branches without a status are left out. -/
def reachableProducerStatuses (plan : Plan) (producer consumer : String) : List String :=
  match plan.action? producer with
  | none => []
  | some action => action.expectedOutcomes.filterMap fun branch =>
      if branch.next = some consumer then
        match branch.expected.lookup "status" with
        | some (.str status) => if status = "" then none else some status
        | _ => none
      else none

/-! ### The checks -/

section Checks

variable (py : Py)

/-- `_maybe_check_field_path`, for an argument. -/
def maybeCheckFieldPath (registry : Registry) (plan : Plan) (path : RefPath) (hostStepId hostTool : String)
    (narrowToStatus : Option String) : List Violation :=
  match plan.action? (extractStepId path) with
  | none => []
  | some target =>
    match registry target.tool, path.drop 1 with
    | none, _ => []
    | some _, [] => []
    | some spec, first :: rest =>
      if refFieldExistsInOutput spec.outputModel (first :: rest) narrowToStatus = some false then
        let members := match narrowToStatus with
          | none => spec.outputModel.members
          | some status => filterMembersByStatus spec.outputModel.members status
        let available := (members.flatMap fun member => member.map Prod.fst).dedup
        let statusNote := match narrowToStatus with
          | none => ""
          | some status => " (narrowed to status=" ++ py.reprStr status ++ ")"
        [{ stepId := some hostStepId
           tool := some hostTool
           code := "arg_ref_unknown_field"
           message := "arg ref '$\x7b" ++ path.text ++ "\x7d': field " ++ py.reprStr first ++ " is NOT in "
             ++ target.tool ++ ".output_model" ++ statusNote ++ ". Available top-level fields: "
             ++ listOrNone py (sorted available) }]
      else []

/-- What `_phase1_check_refs` says of one reference. -/
def checkRef (registry : Registry) (plan : Plan) (stepId tool : String) (path : RefPath) : List Violation :=
  let target := extractStepId path
  if target ∉ plan.stepIds then
    [{ stepId := some stepId
       tool := some tool
       code := "unknown_ref_target"
       message := "reference '$\x7b" ++ path.text ++ "\x7d' targets unknown step " ++ py.reprStr target
         ++ ". Available steps: " ++ Value.repr py (.list ((sorted plan.stepIds).map .str)) ++ "." }]
  else if target = stepId then
    [{ stepId := some stepId
       tool := some tool
       code := "self_ref"
       message := "reference '$\x7b" ++ path.text ++ "\x7d' is a self-reference "
         ++ "— a step cannot consume its own output." }]
  else match sorted (reachableProducerStatuses plan target stepId).dedup with
    | [] => maybeCheckFieldPath py registry plan path stepId tool none
    | statuses => statuses.flatMap fun status => maybeCheckFieldPath py registry plan path stepId tool (some status)

/-- `_phase1_check_refs`. -/
def checkRefs (registry : Registry) (plan : Plan) (stepId : String) (action : Action) : List Violation :=
  (iterRefs py (.dict action.args)).flatMap (checkRef py registry plan stepId action.tool)

/-- The texts between `$\x7b` and the next brace: `none` while looking for one, `some` with
what has been read of it, backwards. -/
def broadRefTokens : Option (List Char) → List Char → List (List Char)
  | _, [] => []
  | none, '$' :: '{' :: cs => broadRefTokens (some []) cs
  | none, _ :: cs => broadRefTokens none cs
  | some inner, c :: cs =>
    if c = '}' then inner.reverse :: broadRefTokens none cs else broadRefTokens (some (c :: inner)) cs

/-- `_STRICT_REF_PATH_PATTERN`: the pattern of references, with no segment that begins with
an underscore. -/
def isStrictRefPath (inner : List Char) : Bool :=
  match matchPath py (inner ++ ['}']) [] [] with
  | some (path, n) => n = inner.length + 1 && !path.any isPrivate
  | none => false

/-- `iter_malformed_ref_tokens`, for the strings of a value. -/
def iterMalformedRefTokens (value : Value) : List String :=
  (value.strings.flatMap fun text =>
      (broadRefTokens none text.toList).filter fun inner => !isStrictRefPath py inner).map fun inner =>
     "$\x7b" ++ String.ofList inner ++ "\x7d"

/-- `_phase1_check_ref_syntax`. -/
def checkRefSyntax (stepId : String) (action : Action) : List Violation :=
  (iterMalformedRefTokens py (.dict action.args)).map fun malformed => {
    stepId := some stepId
    tool := some action.tool
    code := "invalid_ref_syntax"
    message := "malformed reference " ++ py.reprStr malformed ++ ". Refs must be of the form "
      ++ "\x60\x60$\x7bstep_id.field.subfield\x7d\x60\x60 — segments non-empty, no underscore-prefixed segments, no "
      ++ "consecutive or trailing dots." }

mutual

/-- The keys of all dicts in a value. -/
def dictKeys : Value → List String
  | .dict kvs => dictKeysDict kvs
  | .list xs => dictKeysList xs
  | _ => []

def dictKeysList : List Value → List String
  | [] => []
  | v :: vs => dictKeys v ++ dictKeysList vs

def dictKeysDict : List (String × Value) → List String
  | [] => []
  | (k, v) :: kvs => k :: dictKeys v ++ dictKeysDict kvs

end

/-- `_phase1_check_ref_in_dict_keys`. -/
def checkRefInDictKeys (stepId : String) (action : Action) : List Violation :=
  ((dictKeys (.dict action.args)).filter fun key => !(refsOf py key).isEmpty).map fun key => {
    stepId := some stepId
    tool := some action.tool
    code := "unsupported_ref_location"
    message := "reference " ++ py.reprStr key ++ " appears as a DICT KEY in action args. References in dict keys are "
      ++ "not resolved by executor — refactor to use the ref as a dict VALUE or top-level field." }

/-- `_phase1_check_only_empty_branch`: a producer that a selector reads must end by itself
when it has found nothing. -/
def checkOnlyEmptyBranch (plan : Plan) : List Violation :=
  plan.actions.flatMap fun (stepId, action) =>
    (iterRefs py (.dict action.args)).flatMap fun path =>
      match hasOnlySegment path, plan.action? (extractStepId path) with
      | true, some producer =>
        if producer.expectedOutcomes.any fun branch =>
            (match branch.expected.lookup "status" with
              | some (.str status) => status = "empty"
              | _ => false) && branch.next.isNone then []
        else
          let producerId := extractStepId path
          [{ stepId := some stepId
             tool := some action.tool
             code := "only_selector_missing_empty_branch"
             message := "arg ref '$\x7b" ++ path.text ++ "\x7d' uses the '.only' selector on step '" ++ producerId
               ++ "', but that producer step has no expected_outcomes branch with match=\x7bstatus: 'empty'\x7d. "
               ++ "The zero-results case must be handled explicitly by the producer's empty branch (rule 2e). "
               ++ "Add a branch with \x7bmatch: \x7bstatus: 'empty'\x7d\x7d to step '" ++ producerId ++ "'." }]
      | _, _ => []

/-- The violations that `validate_plan` reports about the references in arguments. -/
def refViolations (registry : Registry) (plan : Plan) : List Violation :=
  (plan.actions.flatMap fun (stepId, action) =>
    match registry action.tool with
    | none => []
    | some _ => checkRefSyntax py stepId action ++ checkRefInDictKeys py stepId action ++
        checkRefs py registry plan stepId action)
  ++ detectRefCycles py plan ++ checkOnlyEmptyBranch py plan

end Checks

end Sreda.Planner
