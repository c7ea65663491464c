import Sreda.Planner.Interpolation

/-!
# The selector `.only`

The module `selector`: a reference with a segment `only` goes through the one element of a
list. It is resolved in a pass of its own, before `resolve_refs`, and what the pass
resolves is wrapped so that `resolve_refs` leaves it alone. The labels that an ambiguity
offers to the user are left out.
-/

namespace Sreda.Planner

/-- What the selector pass can raise. -/
inductive SelectorError where
  | invalidReference (error : InvalidReferenceError)
  /-- `SelectorAmbiguityError`: the list has `count` elements, not one. -/
  | ambiguity (refPath : RefPath) (count : ℕ)

/-- `_has_only_segment`. -/
def hasOnlySegment (path : RefPath) : Bool := path.contains "only"

section Resolve

variable (py : Py)

/-- The text of a walk that stops, of which `place` says where a key is missing. -/
def selectorWalkMessage (path : RefPath) (place : String) : WalkError → String
  | .underscore field => "Ref '$\x7b" ++ path.text ++ "\x7d': field '" ++ field
      ++ "' starts with underscore — private attribute access forbidden."
  | .missing field available => "Ref '$\x7b" ++ path.text ++ "\x7d': field '" ++ field
      ++ "' not in " ++ place ++ ". Available: " ++ listOrNone py available
  | .noAttribute field current => "Ref '$\x7b" ++ path.text ++ "\x7d': cannot access '" ++ field
      ++ "' on " ++ current.typeName ++ "."

/-- `_resolve_only_ref`. -/
def resolveOnlyRef (path : RefPath) (state : List (String × Dict)) : Except SelectorError Value :=
  let beforeOnly := path.takeWhile (· ≠ "only")
  let afterOnly := (path.dropWhile (· ≠ "only")).drop 1
  let invalid {α : Type} (message : String) : Except SelectorError α := .error (.invalidReference ⟨message⟩)
  match beforeOnly with
  | stepId :: fields@(_ :: _) =>
    match state.lookup stepId with
    | none => invalid ("Ref '$\x7b" ++ path.text ++ "\x7d' refers to unknown step '" ++ stepId
        ++ "'. Available: " ++ listOrNone py (sorted (state.map Prod.fst)))
    | some output =>
      match walkFields py (.dict output) fields with
      | .error e => invalid (selectorWalkMessage py path ("result of '" ++ stepId ++ "'") e)
      | .ok (.list [element]) =>
        match walkFields py element afterOnly with
        | .error e => invalid (selectorWalkMessage py path "element" e)
        | .ok value => .ok value
      | .ok (.list xs) => .error (.ambiguity path xs.length)
      | .ok current => invalid ("Ref '$\x7b" ++ path.text ++ "\x7d': '.only' selector expects a list, "
          ++ "but field resolved to " ++ current.typeName ++ ".")
  | _ => invalid ("Ref '$\x7b" ++ path.text ++ "\x7d': '.only' must be preceded by at least "
      ++ "'step_id.field' (got " ++ Value.repr py (.list (beforeOnly.map .str)) ++ ").")

/-- What one reference of a string resolves to in the selector pass. -/
def resolveAnyRef (state : List (String × Dict)) (path : RefPath) : Except SelectorError Value :=
  if hasOnlySegment path then resolveOnlyRef py path state
  else match resolvePath py path state with
    | .ok value => .ok value
    | .error e => .error (.invalidReference e)

/-- `_resolve_selector_in_string`. -/
def resolveSelectorInString (state : List (String × Dict)) (text : String) : Except SelectorError Value :=
  if (refsOf py text).any hasOnlySegment then
    match tokens py text with
    | [.ref path] => return .literal (← resolveOnlyRef py path state)
    | ts => return .literal (.str (← interpolate py (resolveAnyRef py state) ts))
  else .ok (.str text)

/-- `resolve_selector_refs`. -/
def resolveSelectorRefs (value : Value) (state : List (String × Dict)) : Except SelectorError Value :=
  value.mapStrings (resolveSelectorInString py state)

end Resolve

mutual

/-- `unwrap_resolved`. -/
def unwrapResolved : Value → Value
  | .literal v => unwrapResolved v
  | .dict kvs => .dict (unwrapResolvedDict kvs)
  | .list xs => .list (unwrapResolvedList xs)
  | v => v

def unwrapResolvedList : List Value → List Value
  | [] => []
  | v :: vs => unwrapResolved v :: unwrapResolvedList vs

def unwrapResolvedDict : List (String × Value) → List (String × Value)
  | [] => []
  | (k, v) :: kvs => (k, unwrapResolved v) :: unwrapResolvedDict kvs

end

/-! ### What a resolved argument tells about the state -/

variable {state : List (String × Dict)} {v : Value} {target : String} {output : Dict}

section Resolved

variable {py : Py}

/-- The state holds the output of the step that the path starts at. -/
def Available (state : List (String × Dict)) (path : RefPath) : Prop :=
  ∃ output, state.lookup (extractStepId path) = some output

theorem resolveOnlyRef_ok {path : RefPath} (h : resolveOnlyRef py path state = .ok v) : Available state path := by
  unfold resolveOnlyRef at h
  simp only at h
  split at h
  · rename_i stepId field fields hbefore
    have hhead : extractStepId path = stepId := by
      cases path with
      | nil => simp at hbefore
      | cons p ps =>
        by_cases hp : p = "only"
        · simp [hp] at hbefore
        · simp [hp] at hbefore
          simp [extractStepId, hbefore.1]
    cases hl : state.lookup stepId with
    | none => simp [hl] at h
    | some output => exact ⟨output, hhead ▸ hl⟩
  · cases h

theorem resolveAnyRef_ok {path : RefPath} (h : resolveAnyRef py state path = .ok v) : Available state path := by
  unfold resolveAnyRef at h
  split at h
  · exact resolveOnlyRef_ok h
  · cases hp : resolvePath py path state with
    | ok w => exact resolvePath_ok hp
    | error e => simp [hp] at h

/-- In the selector pass a string either is left as it is or has all its references
resolved. -/
theorem resolveSelectorInString_ok {text : String} (h : resolveSelectorInString py state text = .ok v) :
    v = .str text ∨ ∀ path ∈ refsOf py text, Available state path := by
  unfold resolveSelectorInString at h
  split at h
  · right
    intro path hp
    split at h
    · rename_i q htok
      obtain rfl : path = q := by simpa [refsOf, htok, Token.ref?] using hp
      obtain ⟨w, hw, -⟩ := Value.bind_ok.1 h
      exact resolveOnlyRef_ok hw
    · obtain ⟨s, hs, -⟩ := Value.bind_ok.1 h
      obtain ⟨w, hw⟩ := interpolate_ok hs path hp
      exact resolveAnyRef_ok hw
  · left
    simpa using h.symm

/-- **When both passes succeed, every reference in the value starts at a step whose output
the state holds.** -/
theorem refs_available {value selected resolved : Value} (hsel : resolveSelectorRefs py value state = .ok selected)
    (hres : resolveRefs py selected state = .ok resolved) :
    ∀ path ∈ iterRefs py value, Available state path := by
  intro path hp
  obtain ⟨text, htext, hp⟩ := List.mem_flatMap.1 hp
  obtain ⟨v, hv, hsub⟩ := Value.mapStrings_ok hsel text htext
  rcases resolveSelectorInString_ok hv with rfl | hall
  · -- the selector pass left the string to `resolve_refs`
    obtain ⟨w, hw, -⟩ := Value.mapStrings_ok hres text (hsub text (by simp [Value.strings]))
    obtain ⟨u, hu⟩ := resolveInString_ok hw path hp
    exact resolvePath_ok hu
  · exact hall path hp

/-- A reference without a selector resolves when its path can be walked. -/
theorem resolveAnyRef_fields {fields : List String}
    (hselector : "only" ∉ target :: fields) (hlookup : state.lookup target = some output)
    (hwalk : walkFields py (.dict output) fields = .ok v) :
    resolveAnyRef py state (target :: fields) = .ok v := by
  have hno : hasOnlySegment (target :: fields) = false := by
    rw [hasOnlySegment, Bool.eq_false_iff]
    simpa using hselector
  rw [resolveAnyRef, hno, if_neg Bool.false_ne_true]
  simp [resolvePath, hlookup, hwalk]

/-- A reference with a selector resolves iff the path up to it ends at a list of one element, and the rest of the path can be walked
from there. -/
theorem resolveOnlyRef_iff {first : String} {before after : List String}
    (hselector : "only" ∉ target :: first :: before)
    (hlookup : state.lookup target = some output) :
    resolveOnlyRef py (target :: first :: before ++ "only" :: after) state = .ok v ↔
      ∃ element, walkFields py (.dict output) (first :: before) = .ok (.list [element]) ∧
        walkFields py element after = .ok v := by
  have hpre : ∀ field ∈ target :: first :: before, decide (field ≠ "only") = true := fun field hf =>
    decide_eq_true fun heq => hselector (heq ▸ hf)
  have htake : (target :: first :: before ++ "only" :: after).takeWhile (· ≠ "only") = target :: first :: before := by
    rw [List.takeWhile_append_of_pos hpre]
    simp
  have hdrop : ((target :: first :: before ++ "only" :: after).dropWhile (· ≠ "only")).drop 1 = after := by
    rw [List.dropWhile_append_of_pos hpre]
    simp
  rw [resolveOnlyRef, htake, hdrop]
  simp only [hlookup]
  cases hwalk : walkFields py (.dict output) (first :: before) with
  | error e => simp
  | ok current =>
    constructor
    · intro h
      split at h
      · cases h
      · next element heq =>
        obtain rfl := Except.ok.inj heq
        split at h
        · cases h
        · next value hvalue => exact ⟨element, rfl, hvalue.trans (congrArg Except.ok (Except.ok.inj h))⟩
      · cases h
      · cases h
    · rintro ⟨element, heq, hvalue⟩
      obtain rfl := Except.ok.inj heq
      simp only [hvalue]

theorem resolveAnyRef_only {first : String} {before after : List String}
    {element : Value} (hselector : "only" ∉ target :: first :: before)
    (hlookup : state.lookup target = some output)
    (hlist : walkFields py (.dict output) (first :: before) = .ok (.list [element]))
    (hwalk : walkFields py element after = .ok v) :
    resolveAnyRef py state (target :: first :: before ++ "only" :: after) = .ok v := by
  have hhas : hasOnlySegment (target :: first :: before ++ "only" :: after) = true := by simp [hasOnlySegment]
  rw [resolveAnyRef, if_pos hhas]
  exact (resolveOnlyRef_iff hselector hlookup).mpr ⟨element, hlist, hwalk⟩

theorem resolveSelectorInString_total {text : String}
    (h : ∀ path ∈ refsOf py text, ∃ v, resolveAnyRef py state path = .ok v) :
    ∃ v, resolveSelectorInString py state text = .ok v := by
  unfold resolveSelectorInString
  split
  · rename_i hany
    split
    · rename_i path htok
      obtain ⟨v, hv⟩ := h path (by simp [refsOf, htok, Token.ref?])
      have honly : hasOnlySegment path = true := by simpa [refsOf, htok, Token.ref?] using hany
      rw [resolveAnyRef, if_pos honly] at hv
      exact ⟨_, Value.bind_ok.2 ⟨v, hv, rfl⟩⟩
    · obtain ⟨s, hs⟩ := interpolate_total _ h
      exact ⟨_, Value.bind_ok.2 ⟨s, hs, rfl⟩⟩
  · exact ⟨_, rfl⟩

/-- **When every reference in the value resolves, both passes succeed.** -/
theorem refs_resolved {value : Value} (h : ∀ path ∈ iterRefs py value, ∃ v, resolveAnyRef py state path = .ok v) :
    ∃ selected resolved, resolveSelectorRefs py value state = .ok selected ∧
      resolveRefs py selected state = .ok resolved := by
  have hstring : ∀ text ∈ value.strings, ∀ path ∈ refsOf py text, ∃ v, resolveAnyRef py state path = .ok v :=
    fun text ht path hp => h path (List.mem_flatMap.2 ⟨text, ht, hp⟩)
  obtain ⟨selected, hsel⟩ := Value.mapStrings_total (f := resolveSelectorInString py state)
    fun text ht => resolveSelectorInString_total (hstring text ht)
  refine ⟨selected, ?_⟩
  obtain ⟨resolved, hres⟩ := Value.mapStrings_total (v := selected) (f := resolveInString py state)
      fun text ht => by
    -- a string that the selector pass has left holds no selector
    obtain ⟨source, hsource, x, hx, ht⟩ := Value.mem_of_mapStrings hsel text ht
    unfold resolveSelectorInString at hx
    split at hx
    · obtain ⟨v, rfl⟩ : ∃ v, x = .literal v := by
        split at hx
        · obtain ⟨v, -, hv⟩ := Value.bind_ok.1 hx
          exact ⟨v, (Except.ok.inj hv).symm⟩
        · obtain ⟨s, -, hs⟩ := Value.bind_ok.1 hx
          exact ⟨.str s, (Except.ok.inj hs).symm⟩
      simp [Value.strings] at ht
    · rename_i hno
      obtain rfl := Except.ok.inj hx
      obtain rfl : text = source := by simpa [Value.strings] using ht
      refine resolveInString_total fun path hp => ?_
      obtain ⟨v, hv⟩ := hstring text hsource path hp
      have hnot : hasOnlySegment path = false := by
        simp only [Bool.not_eq_true, List.any_eq_false] at hno
        simpa using hno path hp
      rw [resolveAnyRef, hnot, if_neg Bool.false_ne_true] at hv
      cases hpath : resolvePath py path state with
      | ok w => exact ⟨w, rfl⟩
      | error e => simp [hpath] at hv
  exact ⟨resolved, hsel, hres⟩

end Resolved

end Sreda.Planner
