import Sreda.Lib.Keyed
import Sreda.Planner.DataPaths
import Sreda.Planner.RefResolution

/-!
# The status of a path

Before anything has run, `_ref_field_exists_in_output` walks a reference through the annotations of the output; in the run
`_resolve_path` and `_resolve_only_ref` walk it through the values. The first one takes every `.only` for a step into a list, the
last one only the first.

## What is proved

* a path that is impossible for an annotation can be followed from no value of it (`not_follow_of_impossible`), and one that is
  resolvable from every value that takes the arms of the unions that allow it (`follow_of_resolvable`), with any number of selectors;
* with one selector at most, to follow a path is what the run does (`resolveAnyRef_iff`);
* the status of a reference says what the run does with it (`path_status_mirrors`).
-/

namespace Sreda.Planner

open Sreda.Lib

/-! ### Following a path -/

variable {v u : Value} {first : String} {rest segments : List String} {bare : Annotation} {member : Model}

section Follow

/-- The element of a list that has one. -/
def Value.sole? : Value → Option Value
  | .list [element] => some element
  | _ => none

variable (py : Py)

/-- What a segment means: a selector goes to the one element of a list, and any other segment is read as the walk reads it. -/
def stepInto (v : Value) (segment : String) : Option Value :=
  if segment = "only" then v.sole? else (walkFields py v [segment]).toOption

/-- What a path means. -/
def follow : List String → Value → Option Value
  | [], v => some v
  | first :: rest, v => (stepInto py v first).bind (follow rest)

/-- Every list that a selector of the path is read of has exactly one element. -/
def SingleElements (path : List String) (v : Value) : Prop :=
  ∀ before after xs, path = before ++ "only" :: after → follow py before v = some (.list xs) → xs.length = 1

variable {py}

theorem Value.sole?_eq_some {element : Value} : v.sole? = some element ↔ v = .list [element] := by
  constructor
  · intro h
    unfold sole? at h
    split at h
    · rw [Option.some.inj h]
    · cases h
  · rintro rfl
    rfl

theorem toOption_eq_some {ε α : Type} {x : Except ε α} {a : α} : x.toOption = some a ↔ x = .ok a := by
  cases x with
  | error e => exact ⟨(fun h => by cases h), (fun h => by cases h)⟩
  | ok b => exact ⟨fun h => congrArg Except.ok (Option.some.inj h), fun h => congrArg some (Except.ok.inj h)⟩

theorem follow_cons {w : Value} :
    follow py (first :: rest) v = some w ↔ ∃ u, stepInto py v first = some u ∧ follow py rest u = some w := by
  rw [follow, Option.bind_eq_some_iff]

theorem stepInto_only {element : Value} : stepInto py v "only" = some element ↔ v = .list [element] := by
  rw [stepInto, if_pos rfl, Value.sole?_eq_some]

theorem stepInto_field (hfirst : first ≠ "only") :
    stepInto py v first = some u ↔ walkFields py v [first] = .ok u := by
  rw [stepInto, if_neg hfirst, toOption_eq_some]

theorem walkFields_private (h : first.toList.head? = some '_') (v : Value) (rest : List String) :
    walkFields py v (first :: rest) = .error (.underscore first) := by
  cases v <;> simp [walkFields, h]

theorem walkFields_cons {w : Value} :
    walkFields py v (first :: rest) = .ok w ↔ ∃ u, walkFields py v [first] = .ok u ∧ walkFields py u rest = .ok w := by
  by_cases hprivate : first.toList.head? = some '_'
  · rw [walkFields_private hprivate, walkFields_private hprivate]
    simp
  · cases hdict : v.isDict with
    | true =>
      obtain ⟨kvs, rfl⟩ : ∃ kvs, v = .dict kvs := by
        cases v with
        | dict kvs => exact ⟨kvs, rfl⟩
        | _ => cases hdict
      simp only [walkFields, if_neg hprivate]
      cases kvs.lookup first <;> simp
    | false =>
      simp only [walkFields_not_dict hdict, if_neg hprivate]
      cases py.getattr v first <;> simp [walkFields]

/-- Without a selector, to follow a path is to walk it. -/
theorem follow_fields : ∀ {path : List String} {v w : Value}, "only" ∉ path →
    (follow py path v = some w ↔ walkFields py v path = .ok w)
  | [], v, w, _ => by
    rw [follow, walkFields]
    exact ⟨fun h => congrArg Except.ok (Option.some.inj h), fun h => congrArg some (Except.ok.inj h)⟩
  | first :: rest, v, w, h => by
    obtain ⟨hfirst, hrest⟩ := not_or.mp (mt List.mem_cons.mpr h)
    rw [follow_cons, walkFields_cons]
    exact exists_congr fun u => and_congr (stepInto_field (Ne.symm hfirst)) (follow_fields hrest)

/-- Up to the first selector, to follow a path is to walk it. -/
theorem follow_only {after : List String} {w : Value} : ∀ {before : List String} {v : Value}, "only" ∉ before →
    (follow py (before ++ "only" :: after) v = some w ↔
      ∃ element, walkFields py v before = .ok (.list [element]) ∧ follow py after element = some w)
  | [], v, _ => by
    rw [List.nil_append, follow_cons]
    refine exists_congr fun element => and_congr_left fun _ => ?_
    rw [stepInto_only, walkFields]
    exact ⟨congrArg Except.ok, Except.ok.inj⟩
  | first :: before, v, h => by
    obtain ⟨hfirst, hbefore⟩ := not_or.mp (mt List.mem_cons.mpr h)
    rw [List.cons_append, follow_cons]
    constructor
    · rintro ⟨u, hu, hfollow⟩
      obtain ⟨element, hlist, hafter⟩ := (follow_only hbefore).mp hfollow
      exact ⟨element, walkFields_cons.mpr ⟨u, (stepInto_field (Ne.symm hfirst)).mp hu, hlist⟩, hafter⟩
    · rintro ⟨element, hwalk, hafter⟩
      obtain ⟨u, hu, hlist⟩ := walkFields_cons.mp hwalk
      exact ⟨u, (stepInto_field (Ne.symm hfirst)).mpr hu, (follow_only hbefore).mpr ⟨element, hlist, hafter⟩⟩

/-- **With one selector at most, the run follows the path.** -/
theorem resolveAnyRef_iff {target : String} {state : List (String × Dict)} {output : Dict}
    (htarget : target ≠ "only") (hfirst : segments.head? ≠ some "only") (honce : segments.count "only" ≤ 1)
    (hlookup : state.lookup target = some output) :
    resolveAnyRef py state (target :: segments) = .ok v ↔ follow py segments (.dict output) = some v := by
  by_cases honly : "only" ∈ segments
  · obtain ⟨before, after, rfl, hbefore⟩ := List.eq_append_cons_of_mem honly
    have hafter : "only" ∉ after := by
      rw [List.count_append, List.count_cons_self] at honce
      exact List.count_eq_zero.mp (by omega)
    have hhas : hasOnlySegment (target :: (before ++ "only" :: after)) = true := by simp [hasOnlySegment]
    rw [resolveAnyRef, if_pos hhas, follow_only hbefore]
    cases before with
    | nil => exact absurd rfl hfirst
    | cons first before =>
      have hselector : "only" ∉ target :: first :: before := by
        rw [List.mem_cons, not_or]
        exact ⟨Ne.symm htarget, hbefore⟩
      refine (resolveOnlyRef_iff hselector hlookup).trans ?_
      exact exists_congr fun element => and_congr_right fun _ => (follow_fields hafter).symm
  · have hno : hasOnlySegment (target :: segments) = false := by
      rw [hasOnlySegment, Bool.eq_false_iff]
      simpa using ⟨Ne.symm htarget, honly⟩
    rw [resolveAnyRef, hno, if_neg Bool.false_ne_true, follow_fields honly]
    simp only [resolvePath, hlookup]
    constructor
    · intro h
      split at h
      · next value heq =>
        split at heq
        · next w hw =>
          obtain rfl := Except.ok.inj heq
          rw [hw]
          exact congrArg Except.ok (Except.ok.inj h)
        all_goals cases heq
      · cases h
    · intro h
      rw [h]

end Follow

/-! ### The values of an annotation -/

/-- A list, or an instance of another class whose values `_is_sequence_origin` looks for. -/
def Value.isSequence : Value → Bool
  | .list _ => true
  | .object type _ => ["tuple", "set", "frozenset", "deque"].contains type
  | _ => false

/-- The value is one that a field with this annotation is dumped as. Unlike `Conforms` this says all of it: a dict has no keys but
the fields of its model and the `computed` ones, and a `Sequence` may hold a list. -/
inductive Dumped (models : String → Model) (computed : List String) : Annotation → Value → Prop where
  | any (v : Value) : Dumped models computed .any v
  | noneType : Dumped models computed .noneType .null
  | scalar (v : Value) : Dumped models computed (.scalar v.typeName) v
  | literal {values : List String} {s : String} : s ∈ values → Dumped models computed (.literal values) (.str s)
  | list {element : Annotation} {xs : List Value} : (∀ x ∈ xs, Dumped models computed element x) →
      Dumped models computed (.list element) (.list xs)
  | sequence (element : Annotation) {v : Value} : v.isSequence = true → Dumped models computed (.sequence element) v
  | dict {value : Annotation} {kvs : Dict} : (∀ entry ∈ kvs, Dumped models computed value entry.2) →
      Dumped models computed (.dict value) (.dict kvs)
  | model {name : String} {kvs : Dict} (value : String → Value) :
      (∀ field ann, (models name).lookup field = some ann → kvs.lookup field = some (value field)) →
      (∀ field ann, (models name).lookup field = some ann → Dumped models computed ann (value field)) →
      (∀ field v, kvs.lookup field = some v → field ∈ computed ∨ ∃ ann, (models name).lookup field = some ann) →
      Dumped models computed (.model name) (.dict kvs)
  | union {arms : List Annotation} {arm : Annotation} {v : Value} : arm ∈ arms → Dumped models computed arm v →
      Dumped models computed (.union arms) v
  | annotated {inner : Annotation} {v : Value} : Dumped models computed inner v → Dumped models computed (.annotated inner) v

/-- The dict is a dump of this model. -/
structure DumpOf (models : String → Model) (computed : List String) (model : Model) (kvs : Dict) : Prop where
  fields : ∀ field ann, model.lookup field = some ann → ∃ v, kvs.lookup field = some v ∧ Dumped models computed ann v
  keys : ∀ field v, kvs.lookup field = some v → field ∈ computed ∨ ∃ ann, model.lookup field = some ann

/-- The arms of an annotation, which is its only one if it is no union. -/
def Annotation.arms (ann : Annotation) : List Annotation := (flattenUnionArms ann).getD [ann]

/-- There is nothing to strip. -/
def Annotation.isBare : Annotation → Bool
  | .union _ => false
  | .annotated _ => false
  | _ => true

section Values

variable {models : String → Model} {computed : List String}

theorem Dumped.dumpOf {name : String} (h : Dumped models computed (.model name) v) :
    ∃ kvs, v = .dict kvs ∧ DumpOf models computed (models name) kvs := by
  cases h with
  | model value hlookup hvalue hkeys =>
    exact ⟨_, rfl, fun field ann hf => ⟨value field, hlookup field ann hf, hvalue field ann hf⟩, hkeys⟩

/-- Outside of unions, stripping an annotation loses nothing. -/
theorem Dumped.strip : ∀ {ann : Annotation} {v : Value}, flattenUnionArms ann = none → Dumped models computed ann v →
    Dumped models computed (stripOptionalAndAnnotated ann) v
  | .annotated inner, v, hflat, h => by
    cases h with
    | annotated hinner =>
      have hflat' : flattenUnionArms inner = none := by simpa [flattenUnionArms] using hflat
      have hstrip := Dumped.strip hflat' hinner
      exact hstrip
  | .union arms, _, hflat, _ => by simp [flattenUnionArms] at hflat
  | .any, _, _, h => h
  | .noneType, _, _, h => h
  | .scalar _, _, _, h => h
  | .literal _, _, _, h => h
  | .list _, _, _, h => h
  | .sequence _, _, _, h => h
  | .dict _, _, _, h => h
  | .model _, _, _, h => h

theorem isBare_strip : ∀ {ann : Annotation}, flattenUnionArms ann = none → (stripOptionalAndAnnotated ann).isBare = true
  | .annotated inner, hflat => by
    have hflat' : flattenUnionArms inner = none := by simpa [flattenUnionArms] using hflat
    have hbare := isBare_strip hflat'
    exact hbare
  | .union arms, hflat => by simp [flattenUnionArms] at hflat
  | .any, _ => rfl
  | .noneType, _ => rfl
  | .scalar _, _ => rfl
  | .literal _, _ => rfl
  | .list _, _ => rfl
  | .sequence _, _ => rfl
  | .dict _, _ => rfl
  | .model _, _ => rfl

theorem strip_of_isBare (h : bare.isBare = true) : stripOptionalAndAnnotated bare = bare := by
  cases bare with
  | union arms => cases h
  | annotated inner => cases h
  | _ => rfl

theorem flatten_stripAnnotated : ∀ ann : Annotation, flattenUnionArms ann.stripAnnotated = flattenUnionArms ann
  | .annotated inner => by
    rw [ Annotation.stripAnnotated, flattenUnionArms]
    exact flatten_stripAnnotated inner
  | .union _ => rfl
  | .any => rfl
  | .noneType => rfl
  | .scalar _ => rfl
  | .literal _ => rfl
  | .list _ => rfl
  | .sequence _ => rfl
  | .dict _ => rfl
  | .model _ => rfl

theorem Dumped.stripAnnotated {ann : Annotation} (h : Dumped models computed ann v) :
    Dumped models computed ann.stripAnnotated v := by
  induction h with
  | annotated _ ih => exact ih
  | any v => exact .any v
  | noneType => exact .noneType
  | scalar v => exact .scalar v
  | literal hs => exact .literal hs
  | list hall => exact .list hall
  | sequence element hseq => exact .sequence element hseq
  | dict hall => exact .dict hall
  | model value hlookup hvalue hkeys => exact .model value hlookup hvalue hkeys
  | union harm hv => exact .union harm hv

theorem mem_flattenArms {arm inner : Annotation} {arms : List Annotation} (harm : arm ∈ arms) (hnone : arm.isNoneType = false)
    (hinner : inner ∈ (flattenUnionArms arm).getD [arm.stripAnnotated]) : inner ∈ flattenArms arms := by
  induction arms with
  | nil => cases harm
  | cons first arms ih =>
    rw [flattenArms, List.mem_append]
    rcases List.mem_cons.mp harm with rfl | harm
    · rw [hnone, if_neg Bool.false_ne_true]
      exact .inl hinner
    · exact .inr (ih harm)

mutual

theorem flatten_of_mem_arms : ∀ {ann : Annotation} {arms : List Annotation}, flattenUnionArms ann = some arms →
    ∀ arm ∈ arms, flattenUnionArms arm = none
  | .annotated inner, arms, h => by
    rw [flattenUnionArms] at h
    exact flatten_of_mem_arms h
  | .union arms', arms, h => by
    rw [flattenUnionArms] at h
    obtain rfl := Option.some.inj h
    exact flatten_of_mem_flattenArms arms'

theorem flatten_of_mem_flattenArms : ∀ (arms : List Annotation), ∀ arm ∈ flattenArms arms, flattenUnionArms arm = none
  | [], _, h => by cases h
  | first :: arms, arm, h => by
    rw [flattenArms, List.mem_append] at h
    rcases h with h | h
    · split at h
      · cases h
      · cases hflat : flattenUnionArms first with
        | none =>
          rw [hflat] at h
          obtain rfl := List.mem_singleton.mp h
          exact (flatten_stripAnnotated first).trans hflat
        | some nested =>
          rw [hflat] at h
          exact flatten_of_mem_arms hflat arm h
    · exact flatten_of_mem_flattenArms arms arm h

end

/-- **A value of an annotation is `None`, or a value of one of its arms**, which are no unions. -/
theorem Dumped.arm {ann : Annotation} (h : Dumped models computed ann v) :
    v = .null ∨ ∃ arm ∈ ann.arms, flattenUnionArms arm = none ∧ Dumped models computed arm v := by
  -- what is no union is its own arm
  have hself : ∀ {ann : Annotation} {v : Value}, flattenUnionArms ann = none → Dumped models computed ann v →
      v = .null ∨ ∃ arm ∈ ann.arms, flattenUnionArms arm = none ∧ Dumped models computed arm v := fun {ann _} hflat h =>
    .inr ⟨ann, by rw [ Annotation.arms, hflat]; exact List.mem_cons_self, hflat, h⟩
  induction h with
  | any v => exact hself rfl (.any v)
  | noneType => exact .inl rfl
  | scalar v => exact hself rfl (.scalar v)
  | literal hs => exact hself rfl (.literal hs)
  | list hall => exact hself rfl (.list hall)
  | sequence element hseq => exact hself rfl (.sequence element hseq)
  | dict hall => exact hself rfl (.dict hall)
  | model value hlookup hvalue hkeys => exact hself rfl (.model value hlookup hvalue hkeys)
  | @annotated inner v hv ih =>
    cases hflat : flattenUnionArms inner with
    | none => exact hself (by rw [flattenUnionArms, hflat]) (.annotated hv)
    | some arms =>
      have harms : ( Annotation.annotated inner).arms = inner.arms := by
        rw [ Annotation.arms, Annotation.arms, flattenUnionArms, hflat]
        rfl
      rwa [harms]
  | @union arms arm v harm hv ih =>
    have hunion : ( Annotation.union arms).arms = flattenArms arms := by
      rw [ Annotation.arms, flattenUnionArms]
      rfl
    rw [hunion]
    cases hnone : arm.isNoneType with
    | true =>
      cases arm with
      | noneType =>
        cases hv
        exact .inl rfl
      | _ => cases hnone
    | false =>
      cases hflat : flattenUnionArms arm with
      | none =>
        have hmem : arm.stripAnnotated ∈ flattenArms arms := mem_flattenArms harm hnone (by rw [hflat]; exact List.mem_cons_self)
        exact .inr ⟨arm.stripAnnotated, hmem, (flatten_stripAnnotated arm).trans hflat, hv.stripAnnotated⟩
      | some nested =>
        refine ih.imp_right ?_
        rintro ⟨inner, hinner, hplain⟩
        refine ⟨inner, mem_flattenArms harm hnone ?_, hplain⟩
        rw [ Annotation.arms, hflat] at hinner
        rwa [hflat]

end Values

/-! ### The status and the values -/

section Status

variable (models : String → Model) (computed : List String) (py : Py)

/-- The status of a path in an annotation that is no union. -/
def armStatus (first : String) (rest : List String) (arm : Annotation) : Option Bool :=
  let bare := stripOptionalAndAnnotated arm
  if first = "only" then
    match peelListElementAnnotation bare with
    | none => some false
    | some element => annotationPathStatus models rest element
  else
    match tryExtractBasemodel bare with
    | some name => memberFieldStatus (annotationPathStatus models rest) (models name) first
    | none => if isSequenceOrigin bare then some false else none

/-- The annotation that a segment leads to. -/
def segmentType (arm : Annotation) (first : String) : Option Annotation :=
  if first = "only" then peelListElementAnnotation (stripOptionalAndAnnotated arm)
  else (tryExtractBasemodel (stripOptionalAndAnnotated arm)).bind fun name => (models name).lookup first

/-- The annotation names no element type, but a value of it may be a list. -/
def Annotation.isOpen : Annotation → Bool
  | .any => true
  | .scalar name => name = "list"
  | .sequence _ => true
  | _ => false

/-- No selector of the path is read of a field whose annotation leaves open whether it holds a list. -/
def typedSelectors : List String → Annotation → Bool
  | [], _ => true
  | first :: rest, ann => ann.arms.all fun arm =>
      (first ≠ "only" || !(stripOptionalAndAnnotated arm).isOpen) &&
        (segmentType models arm first).all (typedSelectors rest)

/-- No segment is the name of an attribute of `None` or of a sequence. -/
def NoAttribute (path : List String) : Prop :=
  ∀ field ∈ path, py.getattr .null field = none ∧ ∀ v : Value, v.isSequence = true → py.getattr v field = none

/-- At each union along the path the value is one of an arm that the check allows. -/
def TakesArms : List String → Annotation → Value → Prop
  | [], _, _ => True
  | first :: rest, ann, v => ∃ arm ∈ ann.arms,
      (flattenUnionArms ann ≠ none → armStatus models first rest arm = some true ∧ Dumped models computed arm v) ∧
        ∀ field u, segmentType models arm first = some field → stepInto py v first = some u → TakesArms rest field u

variable {models computed py}

theorem combineStatuses_false {statuses : List (Option Bool)} :
    combineStatuses statuses = some false ↔ ∀ status ∈ statuses, status = some false := by
  rw [combineStatuses]
  constructor
  · intro h status hstatus
    split at h
    · cases h
    · next htrue =>
      split at h
      · cases h
      · next hnone =>
        rw [List.contains_iff_mem] at htrue hnone
        match status, hstatus with
        | none, hstatus => exact absurd hstatus hnone
        | some true, hstatus => exact absurd hstatus htrue
        | some false, _ => rfl
  · intro h
    have htrue : statuses.contains (some true) = false := by
      rw [Bool.eq_false_iff, Ne, List.contains_iff_mem]
      exact fun hmem => by cases h _ hmem
    have hnone : statuses.contains none = false := by
      rw [Bool.eq_false_iff, Ne, List.contains_iff_mem]
      exact fun hmem => by cases h _ hmem
    rw [htrue, hnone]
    rfl

theorem combineStatuses_true {statuses : List (Option Bool)} :
    combineStatuses statuses = some true ↔ some true ∈ statuses := by
  rw [combineStatuses, ← List.contains_iff_mem]
  constructor
  · intro h
    split at h
    · next htrue => exact htrue
    · split at h <;> cases h
  · intro h
    rw [if_pos h]

/-- The status of a path is that of the arms, put together. -/
theorem annotationPathStatus_cons (first : String) (rest : List String) (ann : Annotation) :
    annotationPathStatus models (first :: rest) ann = combineStatuses (ann.arms.map (armStatus models first rest)) := by
  have hone : ∀ status : Option Bool, combineStatuses [status] = status
    | none => rfl
    | some true => rfl
    | some false => rfl
  rw [annotationPathStatus, Annotation.arms]
  cases flattenUnionArms ann with
  | none => exact (hone _).symm
  | some arms => rfl

theorem peel_eq_some {element : Annotation} (hbare : bare.isBare = true) :
    peelListElementAnnotation bare = some element ↔ bare = .list element := by
  rw [ peelListElementAnnotation, strip_of_isBare hbare]
  constructor
  · intro h
    split at h
    · rw [Option.some.inj h]
    · cases h
  · rintro rfl
    rfl

theorem tryExtract_eq_some {name : String} (hbare : bare.isBare = true) :
    tryExtractBasemodel bare = some name ↔ bare = .model name := by
  rw [tryExtractBasemodel, strip_of_isBare hbare]
  constructor
  · intro h
    split at h
    · rw [Option.some.inj h]
    · cases h
  · rintro rfl
    rfl

theorem stepInto_dict {kvs : Dict} (hfirst : first ≠ "only") (hpublic : isPrivate first = false) :
    stepInto py (.dict kvs) first = some u ↔ kvs.lookup first = some u := by
  have hno : ¬ first.toList.head? = some '_' := by simpa [isPrivate] using hpublic
  rw [stepInto_field hfirst]
  simp only [walkFields, if_neg hno]
  cases kvs.lookup first <;> simp

/-- A segment that is no attribute of a value that is no dict. -/
theorem stepInto_not_dict (hdict : v.isDict = false) (hfirst : first ≠ "only")
    (hattr : py.getattr v first = none) : stepInto py v first = none := by
  have hraises := (walkFields_raises_iff hdict first).mpr (.inr hattr)
  obtain ⟨e, he⟩ := hraises
  rw [stepInto, if_neg hfirst, he]
  rfl

theorem isDict_of_isSequence (h : v.isSequence = true) : v.isDict = false := by
  cases v with
  | dict kvs => cases h
  | _ => rfl

/-- A field of a dump of a model, whose path the model allows. -/
theorem field_of_resolvable {model : Model} {kvs : Dict} (hkvs : DumpOf models computed model kvs)
    (hfirst : first ≠ "only") (hpublic : isPrivate first = false)
    (hstatus : memberFieldStatus (annotationPathStatus models rest) model first = some true) :
    ∃ field u, model.lookup first = some field ∧ stepInto py (.dict kvs) first = some u ∧ Dumped models computed field u ∧
      annotationPathStatus models rest field = some true := by
  rw [memberFieldStatus, if_neg hfirst, hpublic, if_neg Bool.false_ne_true] at hstatus
  cases hl : model.lookup first with
  | none =>
    rw [hl] at hstatus
    cases hstatus
  | some field =>
    rw [hl] at hstatus
    obtain ⟨u, hu, hdumped⟩ := hkvs.fields first field hl
    exact ⟨field, u, rfl, (stepInto_dict hfirst hpublic).mpr hu, hdumped, hstatus⟩

/-- A field of a dump of a model, whose path the model rejects. -/
theorem field_of_impossible {model : Model} {kvs : Dict} (hkvs : DumpOf models computed model kvs)
    (hcomputed : first ∉ computed)
    (hstatus : memberFieldStatus (annotationPathStatus models rest) model first = some false)
    (hu : stepInto py (.dict kvs) first = some u) :
    ∃ field, model.lookup first = some field ∧ Dumped models computed field u ∧
      annotationPathStatus models rest field = some false := by
  rw [memberFieldStatus] at hstatus
  split at hstatus
  · cases hstatus
  · next hfirst =>
    split at hstatus
    · cases hstatus
    · next hpublic =>
      have hkey := (stepInto_dict hfirst (Bool.eq_false_iff.mpr hpublic)).mp hu
      obtain ⟨field, hl⟩ := (hkvs.keys first u hkey).resolve_left hcomputed
      rw [hl] at hstatus
      obtain ⟨w, hw, hdumped⟩ := hkvs.fields first field hl
      obtain rfl := Option.some.inj (hkey.symm.trans hw)
      exact ⟨field, hl, hdumped, hstatus⟩

/-- No union stands along the path. -/
def unionFree (models : String → Model) : List String → Annotation → Bool
  | [], _ => true
  | first :: rest, ann => (flattenUnionArms ann).isNone && (segmentType models ann first).all (unionFree models rest)

/-- Where no union stands along the path, every value takes its arms. -/
theorem takesArms_of_unionFree : ∀ {path : List String} {ann : Annotation} {v : Value}, unionFree models path ann = true →
    TakesArms models computed py path ann v
  | [], _, _, _ => trivial
  | first :: rest, ann, v, h => by
    obtain ⟨hflat, hrest⟩ := Bool.and_eq_true_iff.mp h
    rw [Option.isNone_iff_eq_none] at hflat
    refine ⟨ann, ?_, fun hunion => absurd hflat hunion, fun field u hfield _ => ?_⟩
    · rw [ Annotation.arms, hflat]
      exact List.mem_cons_self
    · rw [hfield] at hrest
      exact takesArms_of_unionFree hrest

theorem step_of_resolvable {arm : Annotation}
    (hflat : flattenUnionArms arm = none) (hv : Dumped models computed arm v) (hpublic : isPrivate first = false)
    (hstatus : armStatus models first rest arm = some true)
    (hsingle : first = "only" → ∀ xs, v = .list xs → xs.length = 1) :
    ∃ field u, segmentType models arm first = some field ∧ stepInto py v first = some u ∧
      Dumped models computed field u ∧ annotationPathStatus models rest field = some true := by
  have hbare := isBare_strip hflat
  have hdumped := Dumped.strip hflat hv
  rw [armStatus] at hstatus
  rw [segmentType]
  by_cases hfirst : first = "only"
  · rw [if_pos hfirst] at hstatus ⊢
    cases hpeel : peelListElementAnnotation (stripOptionalAndAnnotated arm) with
    | none =>
      rw [hpeel] at hstatus
      cases hstatus
    | some element =>
      rw [hpeel] at hstatus
      rw [(peel_eq_some hbare).mp hpeel] at hdumped
      cases hdumped with
      | list hall =>
        obtain ⟨x, rfl⟩ := List.length_eq_one_iff.mp (hsingle hfirst _ rfl)
        refine ⟨element, x, rfl, ?_, hall x List.mem_cons_self, hstatus⟩
        rw [hfirst]
        exact stepInto_only.mpr rfl
  · rw [if_neg hfirst] at hstatus ⊢
    cases hmodel : tryExtractBasemodel (stripOptionalAndAnnotated arm) with
    | none =>
      rw [hmodel] at hstatus
      dsimp only at hstatus
      split at hstatus <;> cases hstatus
    | some name =>
      rw [hmodel] at hstatus
      rw [(tryExtract_eq_some hbare).mp hmodel] at hdumped
      obtain ⟨kvs, rfl, hkvs⟩ := hdumped.dumpOf
      exact field_of_resolvable hkvs hfirst hpublic hstatus

theorem step_of_impossible {arm : Annotation}
    (hflat : flattenUnionArms arm = none) (hv : Dumped models computed arm v) (hcomputed : first ∉ computed)
    (hattr : ∀ v : Value, v.isSequence = true → py.getattr v first = none)
    (htyped : first = "only" → (stripOptionalAndAnnotated arm).isOpen = false)
    (hstatus : armStatus models first rest arm = some false) (hu : stepInto py v first = some u) :
    ∃ field, segmentType models arm first = some field ∧ Dumped models computed field u ∧
      annotationPathStatus models rest field = some false := by
  have hbare := isBare_strip hflat
  have hdumped := Dumped.strip hflat hv
  rw [armStatus] at hstatus
  rw [segmentType]
  by_cases hfirst : first = "only"
  · rw [if_pos hfirst] at hstatus ⊢
    rw [hfirst] at hu
    obtain rfl := stepInto_only.mp hu
    specialize htyped hfirst
    generalize stripOptionalAndAnnotated arm = bare at hbare hdumped hstatus htyped ⊢
    -- only a list is dumped as one
    cases hdumped with
    | list hall =>
      rw [(peel_eq_some hbare).mpr rfl] at hstatus ⊢
      exact ⟨_, rfl, hall u List.mem_cons_self, hstatus⟩
    | any => cases htyped
    | scalar => cases htyped
    | sequence => cases htyped
    | union => cases hbare
    | annotated => cases hbare
  · rw [if_neg hfirst] at hstatus ⊢
    cases hmodel : tryExtractBasemodel (stripOptionalAndAnnotated arm) with
    | none =>
      rw [hmodel] at hstatus
      dsimp only at hstatus
      split at hstatus
      · next hseq =>
        have hsequence : v.isSequence = true := by
          generalize stripOptionalAndAnnotated arm = bare at hdumped hseq hbare
          cases hdumped with
          | list => rfl
          | sequence _ h => exact h
          | union => cases hbare
          | annotated => cases hbare
          | _ => cases hseq
        rw [stepInto_not_dict (isDict_of_isSequence hsequence) hfirst (hattr v hsequence)] at hu
        cases hu
      · cases hstatus
    | some name =>
      rw [hmodel] at hstatus
      rw [(tryExtract_eq_some hbare).mp hmodel] at hdumped
      obtain ⟨kvs, rfl, hkvs⟩ := hdumped.dumpOf
      exact field_of_impossible hkvs hcomputed hstatus hu

theorem singleElements_nil (v : Value) : SingleElements py [] v := by
  intro before after xs h
  cases before <;> cases h

/-- The lists of a path are the one in front of it and those of its rest. -/
theorem singleElements_cons : SingleElements py (first :: rest) v ↔
      (first = "only" → ∀ xs, v = .list xs → xs.length = 1) ∧
        ∀ u, stepInto py v first = some u → SingleElements py rest u := by
  constructor
  · refine fun h => ⟨?_, fun u hu before after xs hrest hfollow => ?_⟩
    · rintro rfl xs rfl
      exact h [] rest xs rfl rfl
    · refine h (first :: before) after xs (by rw [hrest, List.cons_append]) ?_
      exact follow_cons.mpr ⟨u, hu, hfollow⟩
  · rintro ⟨hfirst, hrest⟩ before after xs hpath hfollow
    cases before with
    | nil =>
      obtain ⟨rfl, rfl⟩ := List.cons.inj hpath
      exact hfirst rfl xs (Option.some.inj hfollow)
    | cons segment before =>
      obtain ⟨rfl, rfl⟩ := List.cons.inj hpath
      obtain ⟨u, hu, hfollow⟩ := follow_cons.mp hfollow
      exact hrest u hu before after xs rfl hfollow

/-- **A resolvable path is followed** from every value that takes the arms that allow it, when its lists have one element. -/
theorem follow_of_resolvable : ∀ {path : List String} {ann : Annotation} {v : Value}, Dumped models computed ann v →
    annotationPathStatus models path ann = some true → (∀ field ∈ path, isPrivate field = false) →
    TakesArms models computed py path ann v → SingleElements py path v → ∃ w, follow py path v = some w
  | [], _, v, _, _, _, _, _ => ⟨v, rfl⟩
  | first :: rest, ann, v, hv, hstatus, hpublic, htakes, hsingle => by
    obtain ⟨hpublic, hrest⟩ := List.forall_mem_cons.mp hpublic
    obtain ⟨arm, harm, hunion, hbelow⟩ := htakes
    rw [annotationPathStatus_cons] at hstatus
    have harmv : flattenUnionArms arm = none ∧ armStatus models first rest arm = some true ∧ Dumped models computed arm v := by
      cases hflat : flattenUnionArms ann with
      | none =>
        rw [ Annotation.arms, hflat] at harm hstatus
        obtain rfl := List.mem_singleton.mp harm
        refine ⟨hflat, ?_, hv⟩
        exact (List.mem_singleton.mp (combineStatuses_true.mp hstatus)).symm
      | some arms =>
        rw [ Annotation.arms, hflat] at harm
        exact ⟨flatten_of_mem_arms hflat arm harm, hunion (by rw [hflat]; exact Option.some_ne_none _)⟩
    obtain ⟨hflat, hstatus, hv⟩ := harmv
    obtain ⟨hone, hsingle⟩ := singleElements_cons.mp hsingle
    obtain ⟨field, u, hfield, hu, hdumped, hdeeper⟩ := step_of_resolvable hflat hv hpublic hstatus hone
    obtain ⟨w, hw⟩ := follow_of_resolvable hdumped hdeeper hrest (hbelow field u hfield hu) (hsingle u hu)
    exact ⟨w, follow_cons.mpr ⟨u, hu, hw⟩⟩

/-- **An impossible path is followed** from no value. -/
theorem not_follow_of_impossible : ∀ {path : List String} {ann : Annotation} {v w : Value}, Dumped models computed ann v →
    annotationPathStatus models path ann = some false → typedSelectors models path ann = true → NoAttribute py path →
    (∀ field ∈ path, field ∉ computed) → follow py path v ≠ some w
  | [], _, _, _, _, hstatus, _, _, _ => by cases hstatus
  | first :: rest, ann, v, w, hv, hstatus, htyped, hattr, hcomputed => by
    obtain ⟨⟨hnull, hsequence⟩, hattr⟩ := List.forall_mem_cons.mp hattr
    obtain ⟨hfirst, hcomputed⟩ := List.forall_mem_cons.mp hcomputed
    intro hfollow
    obtain ⟨u, hu, hfollow⟩ := follow_cons.mp hfollow
    rcases hv.arm with rfl | ⟨arm, harm, hflat, hv⟩
    · -- nothing is read of `None`
      by_cases honly : first = "only"
      · rw [honly] at hu
        cases stepInto_only.mp hu
      · rw [stepInto_not_dict rfl honly hnull] at hu
        cases hu
    · rw [annotationPathStatus_cons] at hstatus
      have harmstatus := combineStatuses_false.mp hstatus _ (List.mem_map_of_mem harm)
      obtain ⟨hopen, hdeeper⟩ := Bool.and_eq_true_iff.mp (List.all_eq_true.mp htyped arm harm)
      have hclosed : first = "only" → (stripOptionalAndAnnotated arm).isOpen = false := by
        intro honly
        simpa [honly] using hopen
      obtain ⟨field, hfield, hdumped, hstatus⟩ := step_of_impossible hflat hv hfirst hsequence hclosed harmstatus hu
      rw [hfield] at hdeeper
      exact not_follow_of_impossible hdumped hstatus hdeeper hattr hcomputed hfollow

end Status

/-! ### The status of a reference -/

/-- The variants that `_ref_field_exists_in_output` looks at. -/
def OutputModel.relevant (output : OutputModel) (narrowToStatus : Option String) : List Model :=
  match narrowToStatus with
  | none => output.members
  | some status => filterMembersByStatus output.members status

/-- `typedSelectors` of a path that begins at a variant. -/
def typedMemberSelectors (models : String → Model) (member : Model) : List String → Bool
  | [] => true
  | first :: rest => (member.lookup first).all (typedSelectors models rest)

/-- `TakesArms` of a path that begins at a dump of a variant. -/
def TakesMemberArms (models : String → Model) (computed : List String) (py : Py) (member : Model) (dumped : Dict) :
    List String → Prop
  | [] => True
  | first :: rest => ∀ field u, member.lookup first = some field → dumped.lookup first = some u →
      TakesArms models computed py rest field u

section Reference

variable {output : OutputModel} {computed : List String} {py : Py} {narrowToStatus : Option String}

theorem refFieldExistsInOutput_eq (output : OutputModel) (segments : List String) (narrowToStatus : Option String) :
    refFieldExistsInOutput output segments narrowToStatus =
      if (output.relevant narrowToStatus).isEmpty then none
      else match segments with
        | [] => some true
        | first :: _ =>
          if isPrivate first then some true
          else combineStatuses ((output.relevant narrowToStatus).map fun member =>
            memberPathStatus output.models member segments) := by
  unfold refFieldExistsInOutput
  cases narrowToStatus with
  | none =>
    rw [OutputModel.relevant]
    cases hmembers : output.members with
    | nil => rfl
    | cons member members => rfl
  | some status =>
    rw [OutputModel.relevant]
    cases hmembers : output.members with
    | nil => simp [filterMembersByStatus]
    | cons member members => rfl

/-- An impossible path is impossible in each relevant variant. -/
theorem member_of_impossible (h : refFieldExistsInOutput output segments narrowToStatus = some false)
    (hmember : member ∈ output.relevant narrowToStatus) : memberPathStatus output.models member segments = some false := by
  rw [refFieldExistsInOutput_eq] at h
  split at h
  · cases h
  · split at h
    · cases h
    · split at h
      · cases h
      · exact combineStatuses_false.mp h _ (List.mem_map_of_mem hmember)

/-- A resolvable path is resolvable in some relevant variant. -/
theorem member_of_resolvable (hpublic : ∀ field ∈ segments, isPrivate field = false)
    (h : refFieldExistsInOutput output segments narrowToStatus = some true) :
    ∃ member ∈ output.relevant narrowToStatus, memberPathStatus output.models member segments = some true := by
  rw [refFieldExistsInOutput_eq] at h
  split at h
  · cases h
  · next hnonempty =>
    cases segments with
    | nil =>
      obtain ⟨member, hmember⟩ := List.exists_mem_of_ne_nil _ (mt List.isEmpty_iff.mpr hnonempty)
      exact ⟨member, hmember, rfl⟩
    | cons first rest =>
      dsimp only at h
      rw [hpublic first List.mem_cons_self, if_neg Bool.false_ne_true] at h
      obtain ⟨member, hmember, hstatus⟩ := List.mem_map.mp (combineStatuses_true.mp h)
      exact ⟨member, hmember, hstatus⟩

/-- A selector is not the first segment of a path that is decided. -/
theorem first_ne_only {models : String → Model} {answer : Bool}
    (h : memberPathStatus models member (first :: rest) = some answer) : first ≠ "only" := by
  rintro rfl
  rw [memberPathStatus, memberFieldStatus, if_pos rfl] at h
  cases h

/-- An output of a variant of which the path is impossible. -/
theorem DumpOf.not_follow {models : String → Model} {dumped : Dict} (hdumped : DumpOf models computed member dumped)
    (hstatus : memberPathStatus models member segments = some false)
    (htyped : typedMemberSelectors models member segments = true) (hattr : NoAttribute py segments)
    (hcomputed : ∀ field ∈ segments, field ∉ computed) (v : Value) : follow py segments (.dict dumped) ≠ some v := by
  cases segments with
  | nil => cases hstatus
  | cons first rest =>
    intro hfollow
    obtain ⟨u, hu, hfollow⟩ := follow_cons.mp hfollow
    obtain ⟨hfirst, hrest⟩ := List.forall_mem_cons.mp hcomputed
    obtain ⟨field, hfield, hudumped, hdeeper⟩ := field_of_impossible hdumped hfirst hstatus hu
    rw [typedMemberSelectors, hfield] at htyped
    exact not_follow_of_impossible hudumped hdeeper htyped (List.forall_mem_cons.mp hattr).2 hrest hfollow

/-- An output of a variant of which the path is resolvable. -/
theorem DumpOf.follow {models : String → Model} {dumped : Dict} (hdumped : DumpOf models computed member dumped)
    (hstatus : memberPathStatus models member segments = some true) (hpublic : ∀ field ∈ segments, isPrivate field = false)
    (htakes : TakesMemberArms models computed py member dumped segments)
    (hsingle : SingleElements py segments (.dict dumped)) : ∃ v, Planner.follow py segments (.dict dumped) = some v := by
  cases segments with
  | nil => exact ⟨.dict dumped, rfl⟩
  | cons first rest =>
    obtain ⟨hfirst, hrest⟩ := List.forall_mem_cons.mp hpublic
    have honly := first_ne_only hstatus
    obtain ⟨field, u, hfield, hu, hudumped, hdeeper⟩ := field_of_resolvable hdumped honly hfirst hstatus
    have hkey := (stepInto_dict honly hfirst).mp hu
    obtain ⟨-, hsingle⟩ := singleElements_cons.mp hsingle
    obtain ⟨v, hv⟩ := follow_of_resolvable hudumped hdeeper hrest (htakes field u hfield hkey) (hsingle u hu)
    exact ⟨v, follow_cons.mpr ⟨u, hu, hv⟩⟩

/-- **The status of a reference says what the run does with it**, up to one selector. An impossible one fails at every output of
the relevant variants, where no attribute and no open annotation is in the way; a resolvable one is resolvable in some variant, and
resolves at every output of such a variant that takes the arms that allow it. -/
theorem path_status_mirrors (py : Py) (output : OutputModel) (computed : List String) (narrowToStatus : Option String)
    {target : String} {segments : List String} (htarget : target ≠ "only") (honce : segments.count "only" ≤ 1) :
    (refFieldExistsInOutput output segments narrowToStatus = some false → NoAttribute py segments →
      (∀ field ∈ segments, field ∉ computed) → ∀ member ∈ output.relevant narrowToStatus,
        typedMemberSelectors output.models member segments = true → ∀ dumped, DumpOf output.models computed member dumped →
        ∀ state, state.lookup target = some dumped → ∀ v, resolveAnyRef py state (target :: segments) ≠ .ok v) ∧
    (refFieldExistsInOutput output segments narrowToStatus = some true → (∀ field ∈ segments, isPrivate field = false) →
      (∃ member ∈ output.relevant narrowToStatus, memberPathStatus output.models member segments = some true) ∧
      ∀ member ∈ output.relevant narrowToStatus, memberPathStatus output.models member segments = some true →
        ∀ dumped, DumpOf output.models computed member dumped →
        TakesMemberArms output.models computed py member dumped segments → SingleElements py segments (.dict dumped) →
        ∀ state, state.lookup target = some dumped → ∃ v, resolveAnyRef py state (target :: segments) = .ok v) := by
  -- a selector is not the first segment of what is decided
  have hhead : ∀ {member : Model} {answer : Bool}, memberPathStatus output.models member segments = some answer →
      segments.head? ≠ some "only" := by
    intro member answer hstatus heq
    obtain ⟨rest, rfl⟩ := List.head?_eq_some_iff.mp heq
    exact first_ne_only hstatus rfl
  constructor
  · intro hstatus hattr hcomputed member hmember htyped dumped hdumped state hlookup v hv
    have himpossible := member_of_impossible hstatus hmember
    rw [resolveAnyRef_iff htarget (hhead himpossible) honce hlookup] at hv
    exact hdumped.not_follow himpossible htyped hattr hcomputed v hv
  · intro hstatus hpublic
    refine ⟨member_of_resolvable hpublic hstatus, fun member _ hresolvable dumped hdumped htakes hsingle state hlookup => ?_⟩
    obtain ⟨v, hv⟩ := hdumped.follow hresolvable hpublic htakes hsingle
    exact ⟨v, (resolveAnyRef_iff htarget (hhead hresolvable) honce hlookup).mpr hv⟩

/-- A field that is a task or a reminder, rows of numbers, and a field of any type. -/
def mixedMember : Model :=
  [("status", .literal ["ok"]), ("target", .union [.model "Task", .model "Reminder"]),
    ("rows", .list (.list (.scalar "int"))), ("extra", .any)]

def mixedOutput : OutputModel where
  members := [mixedMember]
  models := fun name => if name = "Task" then [("title", .scalar "str")] else [("due", .scalar "str")]
  discriminated := List.pairwise_singleton _ _

/-- The target is a reminder. -/
def mixedDump : Dict :=
  [("status", .str "ok"), ("target", .dict [("due", .str "noon")]), ("rows", .list [.list [.int 1]]),
    ("extra", .list [.int 1])]

theorem mixed_dumpOf : DumpOf mixedOutput.models [] mixedMember mixedDump := by
  constructor
  · intro field ann h
    have hmem := mem_of_lookup h
    simp only [mixedMember, List.mem_cons, Prod.mk.injEq, List.not_mem_nil, or_false] at hmem
    rcases hmem with ⟨rfl, rfl⟩ | ⟨rfl, rfl⟩ | ⟨rfl, rfl⟩ | ⟨rfl, rfl⟩
    · exact ⟨_, rfl, .literal List.mem_cons_self⟩
    · have hreminder : Annotation.model "Reminder" ∈ [ Annotation.model "Task", .model "Reminder"] := by simp
      have hfields : ∀ field ann, (mixedOutput.models "Reminder").lookup field = some ann →
          field = "due" ∧ ann = .scalar "str" := fun field ann hf => by simpa [mixedOutput] using mem_of_lookup hf
      refine ⟨_, rfl, .union hreminder (.model (fun _ => .str "noon") ?_ ?_ ?_)⟩
      · intro field ann hf
        obtain ⟨rfl, -⟩ := hfields field ann hf
        rfl
      · intro field ann hf
        obtain ⟨-, rfl⟩ := hfields field ann hf
        exact .scalar (.str "noon")
      · intro field v hf
        obtain ⟨rfl, -⟩ : field = "due" ∧ v = .str "noon" := by simpa using mem_of_lookup hf
        exact .inr ⟨_, rfl⟩
    · refine ⟨_, rfl, .list fun row hrow => ?_⟩
      rw [List.mem_singleton.mp hrow]
      refine .list fun x hx => ?_
      rw [List.mem_singleton.mp hx]
      exact .scalar (.int 1)
    · exact ⟨_, rfl, .any _⟩
  · intro field v h
    have hmem := mem_of_lookup h
    simp only [mixedDump, List.mem_cons, Prod.mk.injEq, List.not_mem_nil, or_false] at hmem
    rcases hmem with ⟨rfl, -⟩ | ⟨rfl, -⟩ | ⟨rfl, -⟩ | ⟨rfl, -⟩
    all_goals exact .inr ⟨_, rfl⟩

theorem mixed_rows_single (rest : List String) (h : SingleElements Py.ascii rest (.list [.int 1])) :
    SingleElements Py.ascii ("rows" :: "only" :: rest) (.dict mixedDump) := by
  refine singleElements_cons.mpr ⟨by simp, fun rows hrows => ?_⟩
  obtain rfl : .list [.list [.int 1]] = rows := Option.some.inj hrows
  refine singleElements_cons.mpr ⟨fun _ xs hxs => ?_, fun row hrow => ?_⟩
  · rw [← Value.list.inj hxs]
    rfl
  · obtain rfl : .list [.int 1] = row := Option.some.inj hrow
    exact h

/-- The rows have no field, and the one row is reached. -/
theorem path_status_mirrors_mixed :
    (∀ v, resolveAnyRef Py.ascii [("s1", mixedDump)] ["s1", "rows", "first"] ≠ .ok v) ∧
      ∃ v, resolveAnyRef Py.ascii [("s1", mixedDump)] ["s1", "rows", "only"] = .ok v := by
  have hmember : mixedMember ∈ mixedOutput.relevant none := List.mem_singleton.mpr rfl
  constructor
  · have hattr : NoAttribute Py.ascii ["rows", "first"] := fun _ _ => ⟨rfl, fun _ _ => rfl⟩
    exact (@path_status_mirrors Py.ascii mixedOutput [] none "s1" ["rows", "first"] (by decide) (by decide)).1 (by decide)
      hattr (by simp) mixedMember hmember (by decide) mixedDump mixed_dumpOf _ rfl
  · have hsingle := mixed_rows_single [] (singleElements_nil _)
    have htakes : TakesMemberArms mixedOutput.models [] Py.ascii mixedMember mixedDump ["rows", "only"] := by
      intro field u hfield _
      obtain rfl : .list (.list (.scalar "int")) = field := Option.some.inj hfield
      exact takesArms_of_unionFree (by decide)
    obtain ⟨-, hall⟩ := (@path_status_mirrors Py.ascii mixedOutput [] none "s1" ["rows", "only"] (by decide) (by decide)).2
      (by decide) (by decide)
    exact hall mixedMember hmember (by decide) mixedDump mixed_dumpOf htakes hsingle _ rfl

/-- **Where the status says something else**: a reminder has no title, a second selector is read as a field, and a field of any type
may hold a list. -/
theorem status_not_mirrored :
    DumpOf mixedOutput.models [] mixedMember mixedDump ∧
      (refFieldExistsInOutput mixedOutput ["target", "title"] none = some true ∧
        ∃ e, resolveAnyRef Py.ascii [("s1", mixedDump)] ["s1", "target", "title"] = .error e) ∧
      (refFieldExistsInOutput mixedOutput ["rows", "only", "only"] none = some true ∧
        SingleElements Py.ascii ["rows", "only", "only"] (.dict mixedDump) ∧
        ∃ e, resolveAnyRef Py.ascii [("s1", mixedDump)] ["s1", "rows", "only", "only"] = .error e) ∧
      refFieldExistsInOutput mixedOutput ["extra", "only"] none = some false ∧
        resolveAnyRef Py.ascii [("s1", mixedDump)] ["s1", "extra", "only"] = .ok (.int 1) := by
  refine ⟨mixed_dumpOf, ⟨by decide, _, rfl⟩, ⟨by decide, mixed_rows_single _ ?_, _, rfl⟩, by decide, rfl⟩
  refine singleElements_cons.mpr ⟨fun _ xs hxs => ?_, fun u _ => singleElements_nil u⟩
  rw [← Value.list.inj hxs]
  rfl

end Reference

end Sreda.Planner
