import Sreda.Planner.Interpolation

/-!
# References and the data of the outputs

A reference names a key of a dict at each segment. `_resolve_path` follows the keys of dicts, and where it comes to another value it
asks for an attribute of that name, so that the methods of strings and lists can be named as well. Only segments that begin with
an underscore are refused.

## What is proved

* the references of an argument yield data of the outputs, and fail at every segment that is applied to something else than a
  dict, iff none of these segments names an attribute (`refs_expose_data`).
-/

namespace Sreda.Planner

section Data

variable (py : Py)

def Value.isDict : Value → Bool
  | .dict _ => true
  | _ => false

/-- The part of a value that the keys of its dicts lead to. -/
def dataAt : Value → List String → Option Value
  | v, [] => some v
  | .dict kvs, field :: fields =>
    match kvs.lookup field with
    | some v => dataAt v fields
    | none => none
  | _, _ :: _ => none

/-- A reference yields data only: what it resolves to is a part of the output that the keys lead to, and a segment that is applied
to something else than a dict raises. -/
structure ExposesData (state : List (String × Dict)) (path : RefPath) : Prop where
  data : ∀ v, resolvePath py path state = .ok v →
    ∃ output, state.lookup (extractStepId path) = some output ∧ dataAt (.dict output) (path.drop 1) = some v
  raises : ∀ output before field rest current, state.lookup (extractStepId path) = some output →
    path.drop 1 = before ++ field :: rest → dataAt (.dict output) before = some current → current.isDict = false →
    ∃ e, walkFields py current [field] = .error e

/-- No segment of the path names an attribute: where the keys lead to something else than a dict, the next segment begins with an
underscore, or there is no attribute of that name. -/
def NamesNoAttribute (state : List (String × Dict)) (path : RefPath) : Prop :=
  ∀ output before field rest current, state.lookup (extractStepId path) = some output →
    path.drop 1 = before ++ field :: rest → dataAt (.dict output) before = some current → current.isDict = false →
    field.toList.head? = some '_' ∨ py.getattr current field = none

variable {py}

theorem walkFields_not_dict {current : Value} (h : current.isDict = false) (field : String) (fields : List String) :
    walkFields py current (field :: fields) =
      if field.toList.head? = some '_' then .error (.underscore field)
      else match py.getattr current field with
        | some value => walkFields py value fields
        | none => .error (.noAttribute field current) := by
  cases current with
  | dict kvs => cases h
  | _ => rfl

/-- A segment raises iff it does not name an attribute. -/
theorem walkFields_raises_iff {current : Value} (h : current.isDict = false) (field : String) :
    (∃ e, walkFields py current [field] = .error e) ↔ field.toList.head? = some '_' ∨ py.getattr current field = none := by
  rw [walkFields_not_dict h]
  by_cases hprivate : field.toList.head? = some '_'
  · rw [if_pos hprivate]
    exact iff_of_true ⟨_, rfl⟩ (.inl hprivate)
  · rw [if_neg hprivate, or_iff_right hprivate]
    cases hattr : py.getattr current field with
    | none => exact iff_of_true ⟨_, rfl⟩ rfl
    | some value =>
      refine iff_of_false ?_ (fun hnone => by cases hnone)
      rintro ⟨e, he⟩
      cases he

/-- **A walk that meets no attribute** follows the keys. -/
theorem dataAt_of_walkFields : ∀ {fields : List String} {current v : Value},
    (∀ before field rest other, fields = before ++ field :: rest → dataAt current before = some other → other.isDict = false →
      field.toList.head? = some '_' ∨ py.getattr other field = none) →
    walkFields py current fields = .ok v → dataAt current fields = some v
  | [], current, v, _, hwalk => by
    obtain rfl := Except.ok.inj hwalk
    cases current <;> rfl
  | field :: fields, current, v, hnone, hwalk => by
    cases hdict : current.isDict with
    | false =>
      have hfirst := hnone [] field fields current rfl (by cases current <;> rfl) hdict
      rw [walkFields_not_dict hdict] at hwalk
      rcases hfirst with hprivate | hattr
      · rw [if_pos hprivate] at hwalk
        cases hwalk
      · rw [hattr] at hwalk
        split at hwalk <;> cases hwalk
    | true =>
      cases current with
      | dict kvs =>
        rw [walkFields] at hwalk
        split at hwalk
        · cases hwalk
        · cases hlookup : kvs.lookup field with
          | none =>
            rw [hlookup] at hwalk
            cases hwalk
          | some value =>
            rw [hlookup] at hwalk
            rw [dataAt, hlookup]
            refine dataAt_of_walkFields (fun before field' rest other hsplit hdata => ?_) hwalk
            refine hnone (field :: before) field' rest other (congrArg _ hsplit) ?_
            rw [dataAt, hlookup]
            exact hdata
      | _ => cases hdict

/-- **One reference.** -/
theorem exposesData_iff (state : List (String × Dict)) (path : RefPath) :
    ExposesData py state path ↔ NamesNoAttribute py state path := by
  constructor
  · intro h output before field rest current hlookup hsplit hdata hdict
    exact (walkFields_raises_iff hdict field).mp (h.raises output before field rest current hlookup hsplit hdata hdict)
  · intro h
    refine ⟨fun v hv => ?_, fun output before field rest current hlookup hsplit hdata hdict => ?_⟩
    · obtain ⟨output, hlookup⟩ := resolvePath_ok hv
      have hwalk : walkFields py (.dict output) (path.drop 1) = .ok v := by
        cases path with
        | nil => cases hv
        | cons nodeId fields =>
          have hlookup' : state.lookup nodeId = some output := hlookup
          simp only [resolvePath, hlookup'] at hv
          split at hv
          · next heq => exact heq.trans (congrArg Except.ok (Except.ok.inj hv))
          all_goals cases hv
      refine ⟨output, hlookup, dataAt_of_walkFields (fun before field rest other hsplit hdata hdict => ?_) hwalk⟩
      exact h output before field rest other hlookup hsplit hdata hdict
    · exact (walkFields_raises_iff hdict field).mpr (h output before field rest current hlookup hsplit hdata hdict)

end Data

/-- **The references of an argument expose data only**, iff none of their segments names an attribute of a value that is no
dict. -/
theorem refs_expose_data (py : Py) (args : Value) (state : List (String × Dict)) :
    (∀ path ∈ iterRefs py args, ExposesData py state path) ↔ ∀ path ∈ iterRefs py args, NamesNoAttribute py state path :=
  forall₂_congr fun path _ => exposesData_iff state path

/-- Python as far as it is needed for one method of strings. -/
def upperPy : Py :=
  { Py.ascii with
    getattr := fun v field =>
      match v with
      | .str _ => if field = "upper" then some (.object "builtin_function_or_method" 0) else none
      | _ => none }

def titleState : List (String × Dict) := [("s1", [("title", .str "milk")])]

def upperArgs : Value := .dict [("title", .str "$\x7bs1.title.upper\x7d")]

/-- **A method of a string**: the reference resolves to it. -/
theorem method_exposed :
    ["s1", "title", "upper"] ∈ iterRefs upperPy upperArgs ∧
      resolveRefs upperPy upperArgs titleState = .ok (.dict [("title", .object "builtin_function_or_method" 0)]) ∧
      ¬ ExposesData upperPy titleState ["s1", "title", "upper"] := by
  refine ⟨by decide, rfl, fun h => ?_⟩
  obtain ⟨e, he⟩ := h.raises _ ["title"] "upper" [] (.str "milk") rfl rfl rfl rfl
  cases he

end Sreda.Planner
