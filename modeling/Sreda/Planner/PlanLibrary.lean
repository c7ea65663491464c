import Mathlib
import Sreda.Planner.Interpolation
import Sreda.Planner.Schemas

/-!
# The form of a plan in the library

The module `plan_library`: a plan that went well is stored for all tenants, as a form in which
placeholders stand for what the user said. Arguments and template data are walked to any depth;
a string stays when it is a reference, the keys of the arguments stay when the tool's input model
declares them, and everything else becomes a placeholder or a count.

The attributes that the source reads with `getattr` are there, as the plan is a validated one. The
form is a record; in the source it is a dict with these keys.

## What is proved

* what `_redact_value` leaves of a value (`mem_strings_redactValue`, `mem_keys_redactValue`), and
  that it makes the same of two values that differ in their literals (`redactValue_congr`);
* `_REF_RE` takes one string more for each reference: the reference with a line feed after it, which
  is no reference to `interpolation` (`isFullRefString_of_isRef`, `not_isFullRefString_of_line`);
* two plans that differ in literals alone have one form, and the form holds nothing but
  placeholders, references and declared keys, exactly when neither plan shows such a string
  (`projectPlanForm_meets_iff`).
-/

namespace Sreda.Planner.PlanLibrary

/-! ### Patterns -/

/-- The class `\d` of the regular expressions. -/
structure Digits (py : Py) where
  isDigit : Char → Bool
  isDigit_ascii : ∀ c : Char, c.toNat < 128 → isDigit c = c.isDigit
  isWord_of_isDigit : ∀ c : Char, isDigit c = true → py.isWord c = true

/-- The digits of ASCII texts. -/
def Digits.ascii : Digits Py.ascii where
  isDigit := Char.isDigit
  isDigit_ascii _ _ := rfl
  isWord_of_isDigit c h := by simp [Py.ascii, Char.isAlphanum, h]

/-- `ARG_PLACEHOLDER`. -/
def argPlaceholder : String := "<arg>"

/-- `KEY_PLACEHOLDER`. -/
def keyPlaceholder : String := "<k>"

/-- The text that a pattern with `$` at its end has to match: `$` lets a line feed through. -/
def beforeEnd (cs : List Char) : List Char := if cs.getLast? = some '\n' then cs.dropLast else cs

/-- `_IDENT_RE.match`. -/
def isIdent (text : String) : Bool :=
  match beforeEnd text.toList with
  | [] => false
  | c :: cs => ('a' ≤ c && c ≤ 'z') && cs.length ≤ 63 && cs.all fun c => ('a' ≤ c && c ≤ 'z') || c.isDigit || c == '_'

/-- The rest of `(\.[A-Za-z_][A-Za-z0-9_]*)*\}`, after a point or inside of a segment. -/
def readFields : Bool → List Char → Bool
  | _, [] => false
  | false, c :: cs => startsSegment c && readFields true cs
  | true, c :: cs =>
    if c = '}' then cs.isEmpty
    else if c = '.' then readFields false cs
    else (c.isAlphanum || c == '_') && readFields true cs

section Redact

variable {py : Py} (d : Digits py)

/-- `^s\d+$`. -/
def isStepId (text : String) : Bool :=
  match beforeEnd text.toList with
  | 's' :: cs => !cs.isEmpty && cs.all d.isDigit
  | _ => false

/-- The rest of `\d+(\.[A-Za-z_][A-Za-z0-9_]*)*\}`, when a digit has been read or not. -/
def readStep : Bool → List Char → Bool
  | _, [] => false
  | read, c :: cs =>
    if d.isDigit c then readStep true cs
    else read && if c = '}' then cs.isEmpty else c == '.' && readFields false cs

/-- `_REF_RE.match`. -/
def isRef (text : String) : Bool :=
  match beforeEnd text.toList with
  | '$' :: '{' :: 's' :: cs => readStep d false cs
  | _ => false

/-! ### Values -/

/-- `sorted(items)` of the items of a dict: by their keys, no two of which are the same. -/
def sortItems {α : Type} (items : List (String × α)) : List (String × α) := items.insertionSort fun a b => a.1 ≤ b.1

mutual

/-- `_redact_value`. -/
def redactValue : Value → Value
  | .str s => if isRef d s then .str s else .str argPlaceholder
  | .bool b => .bool b
  | .null => .null
  | .list xs => .list (redactFirst 5 xs)
  | .dict kvs =>
    if kvs.isEmpty then .dict []
    else .dict [(keyPlaceholder, .list (((sortItems (redactItems kvs)).map Prod.snd).take 5)),
      ("n_keys", .int kvs.length)]
  | _ => .str argPlaceholder

/-- `[_redact_value(x) for x in xs[:n]]`. -/
def redactFirst : ℕ → List Value → List Value
  | _, [] => []
  | 0, _ => []
  | n + 1, v :: vs => redactValue v :: redactFirst n vs

/-- The items with their values redacted, not yet sorted. -/
def redactItems : List (String × Value) → List (String × Value)
  | [] => []
  | (k, v) :: kvs => (k, redactValue v) :: redactItems kvs

end

/-- `out[key] = v`. -/
def setItem (out : Dict) (key : String) (v : Value) : Dict :=
  if (out.lookup key).isSome then out.map fun item => if item.1 = key then (key, v) else item
  else out ++ [(key, v)]

/-- `_redact_args`. -/
def redactArgs (args : Dict) (allowed : List String) : Dict :=
  let out := ((sortItems args).filter fun arg => allowed.contains arg.1).map fun arg => (arg.1, redactValue d arg.2)
  let extra := ((sortItems args).filter fun arg => !allowed.contains arg.1).length
  if extra = 0 then out else setItem out "n_extra_keys" (.int extra)

end Redact

/-! ### Plans -/

/-- What a plan says of its own clarity. -/
inductive Clarity where
  | clear
  | needsClarification
  | replyOnly

/-- `plan.clarity`, as a text. -/
def Clarity.text : Clarity → String
  | clear => "clear"
  | needsClarification => "needs_clarification"
  | replyOnly => "reply_only"

/-- A plan with the two fields that only the reply and the library read. -/
structure PlanDocument extends Plan where
  clarity : Clarity
  compose : ComposerCall

/-- `MIGRATED_TOOL_SPECS`: the tools with the fields of their input models. -/
structure ToolFields where
  specs : List (String × List String)
  /-- `_TOOL_NAME_PATTERN`: a name begins with a small letter. -/
  names : ∀ spec ∈ specs, ∃ c cs, spec.1.toList = c :: cs ∧ 'a' ≤ c
  /-- No field has the name of a marker. -/
  fields : ∀ spec ∈ specs, "n_extra_keys" ∉ spec.2

/-- `_tool_arg_fields`. -/
def ToolFields.of (tools : ToolFields) (tool : String) : List String := (tools.specs.lookup tool).getD []

/-- The result of `_compose_form`. -/
structure ComposeForm where
  kind : String
  templateId : Option String
  llmPromptKey : Option String
  templateDataShape : Option Value

/-- One of the `outcomes` of a step. -/
structure OutcomeForm where
  status : String
  next : Bool
  compose : ComposeForm

/-- One of the `steps` of a form. -/
structure StepForm where
  id : String
  tool : String
  argsShape : Dict
  dependsOn : List String
  intentGroup : String
  outcomes : List OutcomeForm

/-- The form of a plan, with `v = 1`. -/
structure PlanForm where
  clarity : String
  steps : List StepForm
  compose : ComposeForm

section Form

variable {py : Py} (d : Digits py) (tools : ToolFields)

/-- A text that matches `_IDENT_RE`, or the placeholder. -/
def identOr (text : String) : String := if isIdent text then text else argPlaceholder

def ComposerKind.text : ComposerKind → String
  | .template => "template"
  | .llm => "llm"

/-- `_compose_form`; without a composer call it is given the empty dict. -/
def composeForm : Option ComposerCall → ComposeForm
  | none => ⟨"", none, none, none⟩
  | some compose => {
      kind := ComposerKind.text compose.kind
      templateId := compose.templateId.filter isIdent
      llmPromptKey := compose.llmPromptKey.filter isIdent
      templateDataShape :=
        if compose.templateData.isEmpty then none else some (redactValue d (.dict compose.templateData)) }

variable (py) in
/-- The text of the status that a branch expects. -/
def statusForm (expected : Dict) : String :=
  match expected.lookup "status" with
  | none | some .null => argPlaceholder
  | some status => identOr (status.toStr py)

def outcomeForm (branch : OutcomeBranch) : OutcomeForm where
  status := statusForm py branch.expected
  next := branch.next.isSome
  compose := composeForm d branch.compose

def stepForm (entry : String × Action) : StepForm where
  id := if isStepId d entry.1 then entry.1 else argPlaceholder
  tool := identOr entry.2.tool
  argsShape := redactArgs d entry.2.args (tools.of (identOr entry.2.tool))
  dependsOn := entry.2.dependsOn.filter (isStepId d)
  intentGroup := if entry.2.intentGroup = "default" then "default" else argPlaceholder
  outcomes := entry.2.expectedOutcomes.map (outcomeForm d)

/-- `project_plan_form`. -/
def projectPlanForm (plan : PlanDocument) : PlanForm where
  clarity := identOr plan.clarity.text
  steps := (sortItems plan.actions).map (stepForm d tools)
  compose := composeForm d (some plan.compose)

end Form

/-! ### What is asked of a form -/

mutual

/-- The keys inside a value, to any depth. -/
def keys : Value → List String
  | .list xs => keysList xs
  | .dict kvs => keysDict kvs
  | _ => []

def keysList : List Value → List String
  | [] => []
  | v :: vs => keys v ++ keysList vs

def keysDict : List (String × Value) → List String
  | [] => []
  | (k, v) :: kvs => k :: (keys v ++ keysDict kvs)

end

/-- The keys that the projection puts in itself. -/
def markers : List String := [keyPlaceholder, "n_keys", "n_extra_keys"]

section Claims

variable {py : Py} (d : Digits py) (tools : ToolFields)

variable (py) in
/-- `is_full_ref_string`: exactly one reference and nothing else. -/
def isFullRefString (text : String) : Bool :=
  match tokens py text with
  | [.ref _] => true
  | _ => false

variable (py) in
/-- Only placeholders and complete references, under the given keys and the markers. -/
structure Clean (fields : List String) (v : Value) : Prop where
  strings : ∀ text ∈ v.strings, text = argPlaceholder ∨ isFullRefString py text = true
  keys : ∀ key ∈ keys v, key ∈ fields ∨ key ∈ markers

/-- The form holds no personal data: in the arguments of every step there are placeholders and
references under fields of its tool, and in the template data there are no keys of the plan. -/
def PlanForm.CleanFor (py : Py) (form : PlanForm) (plan : PlanDocument) : Prop :=
  List.Forall₂ (fun (entry : String × Action) (step : StepForm) =>
      Clean py (tools.of entry.2.tool) (.dict step.argsShape) ∧
      ∀ outcome ∈ step.outcomes, ∀ data ∈ outcome.compose.templateDataShape, Clean py [] data)
    (sortItems plan.actions) form.steps ∧
  ∀ data ∈ form.compose.templateDataShape, Clean py [] data

variable (py) in
/-- A string or number literal, with the references that a text mentions. -/
inductive Literal : Value → List RefPath → Prop where
  | int (n : ℤ) : Literal (.int n) []
  | float (q : ℚ) : Literal (.float q) []
  | str (s : String) : isFullRefString py s = false → Literal (.str s) (refsOf py s)

variable (py) in
/-- Two values that differ in nothing but literals; a text and its replacement mention the same
references. -/
inductive SameShape : Value → Value → Prop where
  | refl (v : Value) : SameShape v v
  | literal {v w : Value} {refs : List RefPath} : Literal py v refs → Literal py w refs → SameShape v w
  | list (pairs : List (Value × Value)) : (∀ p ∈ pairs, SameShape p.1 p.2) →
      SameShape (.list (pairs.map Prod.fst)) (.list (pairs.map Prod.snd))
  | dict (items : List (String × Value × Value)) : (∀ item ∈ items, SameShape item.2.1 item.2.2) →
      SameShape (.dict (items.map fun item => (item.1, item.2.1))) (.dict (items.map fun item => (item.1, item.2.2)))

variable (py) in
structure ComposerCall.SameShape (c c' : ComposerCall) : Prop where
  kind : c'.kind = c.kind
  templateId : c'.templateId = c.templateId
  llmPromptKey : c'.llmPromptKey = c.llmPromptKey
  templateData : PlanLibrary.SameShape py (.dict c.templateData) (.dict c'.templateData)

variable (py) in
structure OutcomeBranch.SameShape (b b' : OutcomeBranch) : Prop where
  expected : b'.expected = b.expected
  next : b'.next = b.next
  compose : Option.Rel (ComposerCall.SameShape py) b.compose b'.compose

variable (py) in
structure Action.SameShape (a a' : Action) : Prop where
  tool : a'.tool = a.tool
  args : PlanLibrary.SameShape py (.dict a.args) (.dict a'.args)
  expectedOutcomes : List.Forall₂ (OutcomeBranch.SameShape py) a.expectedOutcomes a'.expectedOutcomes
  intentGroup : a'.intentGroup = a.intentGroup
  dependsOn : a'.dependsOn = a.dependsOn

variable (py) in
/-- Two plans that differ only in literals of arguments and of template data. -/
structure PlanDocument.SameShape (plan plan' : PlanDocument) : Prop where
  actions : List.Forall₂ (fun e e' => e.1 = e'.1 ∧ Action.SameShape py e.2 e'.2) plan.actions plan'.actions
  clarity : plan'.clarity = plan.clarity
  compose : ComposerCall.SameShape py plan.compose plan'.compose

/-- The strings that the walk through a value comes to: it looks at five elements of a list and at
five values of a dict. -/
inductive Shows : Value → String → Prop where
  | str (s : String) : Shows (.str s) s
  | list {xs : List Value} {v : Value} {s : String} : v ∈ xs.take 5 → Shows v s → Shows (.list xs) s
  | dict {kvs : Dict} {item : String × Value} {s : String} : item ∈ (sortItems kvs).take 5 → Shows item.2 s →
      Shows (.dict kvs) s

/-- A reference with a line feed after it. -/
def isRefLine (text : String) : Bool := isRef d text && text.toList.getLast? == some '\n'

/-- A plan shows a string: in an argument that the tool declares, or in template data. -/
def PlanDocument.Shows (plan : PlanDocument) (text : String) : Prop :=
  (∃ entry ∈ plan.actions,
    (∃ arg ∈ entry.2.args, arg.1 ∈ tools.of (identOr entry.2.tool) ∧ PlanLibrary.Shows arg.2 text) ∨
    ∃ branch ∈ entry.2.expectedOutcomes, ∃ c ∈ branch.compose, PlanLibrary.Shows (.dict c.templateData) text) ∨
  PlanLibrary.Shows (.dict plan.compose.templateData) text

end Claims

/-! ### References -/

section References

variable {py : Py} {d : Digits py}

theorem isWord_of_segment {c : Char} (h : (c.isAlphanum || c == '_') = true) : py.isWord c = true := by
  have hascii : c.toNat < 128 := by
    simp only [Bool.or_eq_true, beq_iff_eq, Char.isAlphanum, Char.isAlpha, Char.isUpper, Char.isLower, Char.isDigit,
      Bool.and_eq_true, decide_eq_true_eq, UInt32.le_iff_toNat_le, ge_iff_le] at h
    rcases h with h | rfl
    · have hval : c.toNat = c.val.toNat := rfl
      have hZ : 'Z'.val.toNat = 90 := rfl
      have hz : 'z'.val.toNat = 122 := rfl
      have h9 : '9'.val.toNat = 57 := rfl
      omega
    · decide
  rw [py.isWord_ascii c hascii]
  exact h

/-- The segments that the library reads are read by `interpolation`, up to the brace at the end. -/
theorem matchPath_of_readFields : ∀ (cs seg : List Char) (path : RefPath), readFields (!seg.isEmpty) cs = true →
    ∃ p, matchPath py cs seg path = some (p, cs.length)
  | [], seg, path, h => by simp [readFields] at h
  | c :: cs, [], path, h => by
    have hread : startsSegment c = true ∧ readFields true cs = true := by simpa [readFields] using h
    obtain ⟨p, hp⟩ := matchPath_of_readFields cs [c] path hread.2
    exact ⟨p, by simp [matchPath, hread.1, hp]⟩
  | c :: cs, s :: seg, path, h => by
    simp only [List.isEmpty_cons, Bool.not_false, readFields] at h
    split_ifs at h with hbrace hdot
    · obtain rfl : cs = [] := by simpa using h
      exact ⟨(String.ofList (s :: seg).reverse :: path).reverse, by simp [matchPath, hbrace]⟩
    · obtain ⟨p, hp⟩ := matchPath_of_readFields cs [] (String.ofList (s :: seg).reverse :: path) h
      exact ⟨p, by simp_all [matchPath]⟩
    · rw [Bool.and_eq_true] at h
      obtain ⟨p, hp⟩ := matchPath_of_readFields cs (c :: s :: seg) path h.2
      exact ⟨p, by simp [matchPath, hbrace, hdot, isWord_of_segment h.1, hp]⟩

theorem matchPath_of_readStep : ∀ (cs seg : List Char) (read : Bool) (path : RefPath), readStep d read cs = true →
    seg ≠ [] → ∃ p, matchPath py cs seg path = some (p, cs.length)
  | [], _, _, _, h, _ => by simp [readStep] at h
  | c :: cs, seg, read, path, h, hseg => by
    have hbegun : seg.isEmpty = false := by simpa using hseg
    rw [readStep] at h
    split_ifs at h with hdigit hbrace
    · obtain ⟨p, hp⟩ := matchPath_of_readStep cs (c :: seg) true path h (by simp)
      have hne : ∀ a : Char, a.toNat < 128 → a.isDigit = false → c ≠ a := by
        rintro a ha hnot rfl
        rw [d.isDigit_ascii c ha, hnot] at hdigit
        cases hdigit
      exact ⟨p, by simp [matchPath, hbegun, hne '}' (by decide) (by decide), hne '.' (by decide) (by decide),
        d.isWord_of_isDigit c hdigit, hp]⟩
    · obtain ⟨-, rfl⟩ : read = true ∧ cs = [] := by simpa using h
      exact ⟨(String.ofList seg.reverse :: path).reverse, by simp [matchPath, hbegun, hbrace]⟩
    · obtain ⟨-, hdot, hfields⟩ : read = true ∧ c = '.' ∧ readFields false cs = true := by simpa using h
      obtain ⟨p, hp⟩ : ∃ p, matchPath py cs [] (String.ofList seg.reverse :: path) = some (p, cs.length) :=
        matchPath_of_readFields cs [] _ hfields
      exact ⟨p, by simp [matchPath, hbegun, hdot, hp]⟩

theorem scan_length : ∀ cs : List Char, scan py cs.length cs = []
  | [] => by simp [scan]
  | c :: cs => scan_length cs

/-- What `_REF_RE` matches, without a line feed at its end, is one reference. -/
theorem isFullRefString_of_isRef {text : String} (h : isRef d text = true) (hline : isRefLine d text = false) :
    isFullRefString py text = true := by
  have hend : beforeEnd text.toList = text.toList := by
    refine if_neg fun hlast => ?_
    simp [isRefLine, h, hlast] at hline
  rw [isRef, hend] at h
  split at h
  · next cs htext =>
    obtain ⟨p, hp⟩ := matchPath_of_readStep cs ['s'] false [] h (by simp)
    have hmatch : matchRef py ('$' :: '{' :: 's' :: cs) = some (p, cs.length + 3) := by
      simp [matchRef, matchPath, startsSegment, hp]
    have htokens : tokens py text = [.ref p] := by
      rw [tokens, htext, scan, hmatch]
      exact congrArg _ (scan_length ('{' :: 's' :: cs))
    simp [isFullRefString, htokens]
  · cases h

theorem matchPath_line {cs seg : List Char} {path p : RefPath} {n : ℕ}
    (h : matchPath py (cs ++ ['\n']) seg path = some (p, n)) : n ≤ cs.length := by
  induction cs generalizing seg path p n with
  | nil =>
    have hword : py.isWord '\n' = false := py.isWord_ascii _ (by decide)
    have hstart : startsSegment '\n' = false := by decide
    simp [matchPath, hword, hstart] at h
  | cons c cs ih =>
    have hrest : ∀ {seg' : List Char} {path' : RefPath},
        ((matchPath py (cs ++ ['\n']) seg' path').map fun q => (q.1, q.2 + 1)) = some (p, n) → n ≤ (c :: cs).length := by
      intro seg' path' hmap
      obtain ⟨⟨p', n'⟩, hrec, heq⟩ := Option.map_eq_some_iff.mp hmap
      have hle := ih hrec
      obtain ⟨-, rfl⟩ := Prod.mk.inj heq
      simpa using hle
    rw [List.cons_append, matchPath] at h
    split_ifs at h
    · exact hrest h
    · obtain ⟨-, rfl⟩ := Prod.mk.inj (Option.some.inj h)
      simp
    · exact hrest h
    · exact hrest h

theorem matchRef_line {cs : List Char} {p : RefPath} {n : ℕ} (h : matchRef py (cs ++ ['\n']) = some (p, n)) :
    n ≤ cs.length := by
  match cs, h with
  | [], h => simp [matchRef] at h
  | [_], h => simp [matchRef] at h
  | a :: b :: cs, h =>
    rw [List.cons_append, List.cons_append, matchRef.eq_def] at h
    split at h
    · next heq =>
      obtain ⟨-, -, rfl⟩ : '$' = '$' ∧ '{' = '{' ∧ cs ++ ['\n'] = _ := ⟨rfl, rfl, (List.cons.inj (List.cons.inj heq).2).2⟩
      obtain ⟨⟨p', n'⟩, hrec, hpair⟩ := Option.map_eq_some_iff.mp h
      have hle := matchPath_line hrec
      obtain ⟨-, rfl⟩ := Prod.mk.inj hpair
      simpa using hle
    · cases h

/-- The line feed at the end of a text is a token of its own. -/
theorem scan_line : ∀ (cs : List Char) (skip : ℕ), skip ≤ cs.length →
    ∃ ts, scan py skip (cs ++ ['\n']) = ts ++ [.char '\n']
  | [], skip, h => by
    obtain rfl : skip = 0 := by simpa using h
    exact ⟨[], by simp [scan, matchRef]⟩
  | c :: cs, skip + 1, h => scan_line cs skip (by simpa using h)
  | c :: cs, 0, _ => by
    rw [List.cons_append, scan]
    split
    · next path n hmatch =>
      have hle : n ≤ (c :: cs).length := matchRef_line hmatch
      obtain ⟨ts, hts⟩ := scan_line cs (n - 1) (by simp at hle; omega)
      exact ⟨.ref path :: ts, by rw [hts, List.cons_append]⟩
    · obtain ⟨ts, hts⟩ := scan_line cs 0 (Nat.zero_le _)
      exact ⟨.char c :: ts, by rw [hts, List.cons_append]⟩

/-- A text with a line feed at its end is no reference. -/
theorem not_isFullRefString_of_line {text : String} (h : text.toList.getLast? = some '\n') :
    isFullRefString py text = false := by
  obtain ⟨cs, hcs⟩ := List.getLast?_eq_some_iff.mp h
  obtain ⟨ts, hts⟩ : ∃ ts, scan py 0 (cs ++ ['\n']) = ts ++ [.char '\n'] := scan_line cs 0 (Nat.zero_le _)
  rw [← hcs] at hts
  rw [isFullRefString, tokens, hts]
  split
  · next heq =>
    have hlast := congrArg List.getLast? heq
    simp at hlast
  · rfl

end References

/-! ### Values -/

/-- Induction over the containers that the walk enters. -/
@[elab_as_elim]
theorem value_induction {P : Value → Prop} (null : P .null) (bool : ∀ b, P (.bool b)) (int : ∀ n, P (.int n))
    (float : ∀ q, P (.float q)) (str : ∀ s, P (.str s)) (list : ∀ xs, (∀ v ∈ xs, P v) → P (.list xs))
    (dict : ∀ kvs : Dict, (∀ item ∈ kvs, P item.2) → P (.dict kvs)) (literal : ∀ v, P (.literal v))
    (object : ∀ type id, P (.object type id)) : ∀ v, P v
  | .null => null
  | .bool b => bool b
  | .int n => int n
  | .float q => float q
  | .str s => str s
  | .list xs => list xs fun v _ =>
    value_induction null bool int float str list dict literal object v
  | .dict kvs => dict kvs fun item hitem => by
    have hlt : sizeOf item.2 < sizeOf item := by cases item; simp only [Prod.mk.sizeOf_spec]; omega
    have hmem := List.sizeOf_lt_of_mem hitem
    exact value_induction null bool int float str list dict literal object item.2
  | .literal v => literal v
  | .object type id => object type id
termination_by v => sizeOf v

variable {α : Type} {key : String} {v : Value} {plan : PlanDocument}

section Values

variable {py : Py} {d : Digits py}

theorem redactFirst_eq : ∀ (n : ℕ) (xs : List Value), redactFirst d n xs = (xs.take n).map (redactValue d)
  | 0, [] => by simp [redactFirst]
  | n + 1, [] => by simp [redactFirst]
  | 0, v :: vs => by simp [redactFirst]
  | n + 1, v :: vs => by simp [redactFirst, redactFirst_eq n vs]

theorem redactItems_eq : ∀ kvs : Dict, redactItems d kvs = kvs.map fun item => (item.1, redactValue d item.2)
  | [] => rfl
  | (k, v) :: kvs => by simp [redactItems, redactItems_eq kvs]

theorem sortItems_map {β : Type} (f : α → β) (items : List (String × α)) :
    sortItems (items.map fun item => (item.1, f item.2)) = (sortItems items).map fun item => (item.1, f item.2) :=
  (List.map_insertionSort (fun a b : String × α => a.1 ≤ b.1) (fun a b : String × β => a.1 ≤ b.1)
    (fun item => (item.1, f item.2)) items fun _ _ _ _ => Iff.rfl).symm

theorem mem_sortItems {items : List (String × α)} {item : String × α} : item ∈ sortItems items ↔ item ∈ items :=
  List.mem_insertionSort _

theorem redactValue_list (xs : List Value) : redactValue d (.list xs) = .list ((xs.take 5).map (redactValue d)) := by
  rw [redactValue, redactFirst_eq]

theorem redactValue_dict {kvs : Dict} (h : kvs ≠ []) : redactValue d (.dict kvs) =
    .dict [(keyPlaceholder, .list (((sortItems kvs).take 5).map fun item => redactValue d item.2)),
      ("n_keys", .int kvs.length)] := by
  rw [redactValue, if_neg (by simpa using h), redactItems_eq, sortItems_map, List.map_map, ← List.map_take]
  rfl

theorem mem_stringsList {text : String} : ∀ vs : List Value, text ∈ Value.stringsList vs ↔ ∃ v ∈ vs, text ∈ v.strings := by
  intro vs
  induction vs with
  | nil => simp [Value.stringsList]
  | cons v vs ih => simp [Value.stringsList, ih]

theorem mem_stringsDict {text : String} : ∀ kvs : Dict, text ∈ Value.stringsDict kvs ↔ ∃ item ∈ kvs, text ∈ item.2.strings
  | [] => by simp [Value.stringsDict]
  | item :: kvs => by simp [Value.stringsDict, mem_stringsDict kvs]

theorem mem_keysList : ∀ vs : List Value, key ∈ keysList vs ↔ ∃ v ∈ vs, key ∈ keys v := by
  intro vs
  induction vs with
  | nil => simp [keysList]
  | cons v vs ih => simp [keysList, ih]

theorem mem_keysDict : ∀ kvs : Dict, key ∈ keysDict kvs ↔ ∃ item ∈ kvs, key = item.1 ∨ key ∈ keys item.2
  | [] => by simp [keysDict]
  | item :: kvs => by simp [keysDict, mem_keysDict kvs, or_assoc]

/-- A string of the result is a placeholder, or a string of the value that looks like a reference. -/
theorem mem_strings_redactValue {text : String} : text ∈ (redactValue d v).strings →
    text = argPlaceholder ∨ Shows v text ∧ isRef d text = true := by
  induction v using value_induction with
  | str s =>
    intro h
    rw [redactValue] at h
    split_ifs at h with href
    · obtain rfl : text = s := by simpa [Value.strings] using h
      exact .inr ⟨.str _, href⟩
    · exact .inl (by simpa [Value.strings] using h)
  | list xs ih =>
    intro h
    rw [redactValue_list, Value.strings, mem_stringsList] at h
    obtain ⟨_, hmem, h⟩ := h
    obtain ⟨v, hv, rfl⟩ := List.mem_map.mp hmem
    exact (ih v (List.mem_of_mem_take hv) h).imp_right fun ⟨hshows, href⟩ => ⟨.list hv hshows, href⟩
  | dict kvs ih =>
    intro h
    by_cases hnil : kvs = []
    · simp [hnil, redactValue, Value.strings, Value.stringsDict] at h
    · rw [redactValue_dict hnil] at h
      simp only [Value.strings, Value.stringsDict, List.append_nil, mem_stringsList] at h
      obtain ⟨_, hmem, h⟩ := h
      obtain ⟨item, hitem, rfl⟩ := List.mem_map.mp hmem
      have hkvs : item ∈ kvs := mem_sortItems.mp (List.mem_of_mem_take hitem)
      exact (ih item hkvs h).imp_right fun ⟨hshows, href⟩ => ⟨.dict hitem hshows, href⟩
  | null => simp [redactValue, Value.strings]
  | bool b => simp [redactValue, Value.strings]
  | int n => exact fun h => .inl (by simpa [redactValue, Value.strings] using h)
  | float q => exact fun h => .inl (by simpa [redactValue, Value.strings] using h)
  | literal v => exact fun h => .inl (by simpa [redactValue, Value.strings] using h)
  | object type id => exact fun h => .inl (by simpa [redactValue, Value.strings] using h)

/-- A string that looks like a reference stays. -/
theorem Shows.mem_strings {text : String} (h : Shows v text) (href : isRef d text = true) :
    text ∈ (redactValue d v).strings := by
  induction h with
  | str s => simp [redactValue, href, Value.strings]
  | list hv _ ih =>
    rw [redactValue_list, Value.strings, mem_stringsList]
    exact ⟨_, List.mem_map_of_mem hv, ih href⟩
  | @dict kvs item s hitem _ ih =>
    have hnil : kvs ≠ [] := List.ne_nil_of_mem (mem_sortItems.mp (List.mem_of_mem_take hitem))
    rw [redactValue_dict hnil]
    simp only [Value.strings, Value.stringsDict, List.append_nil, mem_stringsList]
    exact ⟨_, List.mem_map_of_mem hitem, ih href⟩

/-- The keys of the result are the projection's own. -/
theorem mem_keys_redactValue : key ∈ keys (redactValue d v) → key ∈ markers := by
  induction v using value_induction with
  | str s =>
    intro h
    rw [redactValue] at h
    split_ifs at h <;> simp [keys] at h
  | list xs ih =>
    intro h
    rw [redactValue_list, keys, mem_keysList] at h
    obtain ⟨_, hmem, h⟩ := h
    obtain ⟨v, hv, rfl⟩ := List.mem_map.mp hmem
    exact ih v (List.mem_of_mem_take hv) h
  | dict kvs ih =>
    intro h
    by_cases hnil : kvs = []
    · simp [hnil, redactValue, keys, keysDict] at h
    · rw [redactValue_dict hnil] at h
      simp only [keys, keysDict, List.append_nil, List.mem_cons, List.mem_append, mem_keysList, List.not_mem_nil] at h
      rcases h with rfl | ⟨_, hmem, h⟩ | rfl | h
      · simp [markers]
      · obtain ⟨item, hitem, rfl⟩ := List.mem_map.mp hmem
        exact ih item (mem_sortItems.mp (List.mem_of_mem_take hitem)) h
      · simp [markers]
      · cases h
  | null => simp [redactValue, keys]
  | bool b => simp [redactValue, keys]
  | int n => simp [redactValue, keys]
  | float q => simp [redactValue, keys]
  | literal v => simp [redactValue, keys]
  | object type id => simp [redactValue, keys]

/-! ### Redacted values are clean, and say nothing of a literal -/

theorem isRef_of_line {text : String} (h : isRefLine d text = true) : isRef d text = true := by
  rw [isRefLine, Bool.and_eq_true] at h
  exact h.1

/-- A reference with a line feed after it is neither a placeholder nor a reference. -/
theorem not_clean_of_line {text : String} (h : isRefLine d text = true) :
    ¬ (text = argPlaceholder ∨ isFullRefString py text = true) := by
  have hlast : text.toList.getLast? = some '\n' := by
    simp only [isRefLine, Bool.and_eq_true, beq_iff_eq] at h
    exact h.2
  rintro (rfl | hfull)
  · exact absurd hlast (by decide)
  · rw [not_isFullRefString_of_line hlast] at hfull
    cases hfull

theorem strings_redactValue_iff :
    (∀ text ∈ (redactValue d v).strings, text = argPlaceholder ∨ isFullRefString py text = true) ↔
      ∀ text, Shows v text → isRefLine d text = false := by
  constructor
  · intro h text hshows
    refine Bool.eq_false_iff.mpr fun hline => ?_
    exact not_clean_of_line hline (h text (hshows.mem_strings (isRef_of_line hline)))
  · intro h text hmem
    exact (mem_strings_redactValue hmem).imp_right fun ⟨hshows, href⟩ => isFullRefString_of_isRef href (h text hshows)

theorem clean_redactValue_iff {fields : List String} :
    Clean py fields (redactValue d v) ↔ ∀ text, Shows v text → isRefLine d text = false :=
  ⟨fun h => strings_redactValue_iff.mp h.strings,
    fun h => ⟨strings_redactValue_iff.mpr h, fun _ hkey => .inr (mem_keys_redactValue hkey)⟩⟩

theorem setItem_of_not_mem {out : Dict} (h : ∀ item ∈ out, item.1 ≠ key) (v : Value) :
    setItem out key v = out ++ [(key, v)] := by
  refine if_neg ?_
  rw [List.lookup_eq_none_iff.mpr fun item hitem => by simpa using (h item hitem).symm]
  exact Bool.false_ne_true

section Args

variable {args : Dict} {allowed fields : List String}

theorem mem_redactArgs (hmarker : "n_extra_keys" ∉ allowed) {item : String × Value} :
    item ∈ redactArgs d args allowed →
      (∃ arg ∈ args, arg.1 ∈ allowed ∧ item = (arg.1, redactValue d arg.2)) ∨ ∃ n : ℕ, item = ("n_extra_keys", .int n) := by
  have hout : ∀ item ∈ ((sortItems args).filter fun arg => allowed.contains arg.1).map fun arg => (arg.1, redactValue d arg.2),
      ∃ arg ∈ args, arg.1 ∈ allowed ∧ item = (arg.1, redactValue d arg.2) := by
    intro item hitem
    obtain ⟨arg, harg, rfl⟩ := List.mem_map.mp hitem
    obtain ⟨hmem, hallowed⟩ := List.mem_filter.mp harg
    exact ⟨arg, mem_sortItems.mp hmem, by simpa using hallowed, rfl⟩
  intro h
  rw [redactArgs] at h
  split_ifs at h
  · exact .inl (hout item h)
  · rw [setItem_of_not_mem] at h
    · rcases List.mem_append.mp h with h | h
      · exact .inl (hout item h)
      · exact .inr ⟨_, List.mem_singleton.mp h⟩
    · intro item hitem hkey
      obtain ⟨arg, -, hallowed, rfl⟩ := hout item hitem
      exact hmarker (hkey ▸ hallowed)

theorem mem_redactArgs_of_allowed (hmarker : "n_extra_keys" ∉ allowed) {arg : String × Value} (harg : arg ∈ args)
    (hallowed : arg.1 ∈ allowed) : (arg.1, redactValue d arg.2) ∈ redactArgs d args allowed := by
  have hout : (arg.1, redactValue d arg.2) ∈
      ((sortItems args).filter fun arg => allowed.contains arg.1).map fun arg => (arg.1, redactValue d arg.2) :=
    List.mem_map.mpr ⟨arg, List.mem_filter.mpr ⟨mem_sortItems.mpr harg, by simpa using hallowed⟩, rfl⟩
  rw [redactArgs]
  split_ifs
  · exact hout
  · rw [setItem_of_not_mem]
    · exact List.mem_append_left _ hout
    · intro item hitem hkey
      obtain ⟨arg, harg, rfl⟩ := List.mem_map.mp hitem
      exact hmarker (hkey ▸ by simpa using (List.mem_filter.mp harg).2)

theorem clean_redactArgs_iff (hmarker : "n_extra_keys" ∉ allowed) (hsub : allowed ⊆ fields) :
    Clean py fields (.dict (redactArgs d args allowed)) ↔
      ∀ arg ∈ args, arg.1 ∈ allowed → ∀ text, Shows arg.2 text → isRefLine d text = false := by
  constructor
  · intro h arg harg hallowed
    refine strings_redactValue_iff.mp fun text htext => h.strings text ?_
    exact (mem_stringsDict _).mpr ⟨_, mem_redactArgs_of_allowed hmarker harg hallowed, htext⟩
  · intro h
    constructor
    · intro text htext
      obtain ⟨item, hitem, htext⟩ := (mem_stringsDict _).mp htext
      rcases mem_redactArgs hmarker hitem with ⟨arg, harg, hallowed, rfl⟩ | ⟨n, rfl⟩
      · exact strings_redactValue_iff.mpr (h arg harg hallowed) text htext
      · simp [Value.strings] at htext
    · intro key hkey
      obtain ⟨item, hitem, hkey⟩ := (mem_keysDict _).mp hkey
      rcases mem_redactArgs hmarker hitem with ⟨arg, harg, hallowed, rfl⟩ | ⟨n, rfl⟩
      · rcases hkey with rfl | hkey
        · exact .inl (hsub hallowed)
        · exact .inr (mem_keys_redactValue hkey)
      · rcases hkey with rfl | hkey
        · exact .inr (by simp [markers])
        · simp [keys] at hkey

end Args

theorem redactValue_literal {refs : List RefPath} (h : Literal py v refs)
    (hline : ∀ text, Shows v text → isRefLine d text = false) : redactValue d v = .str argPlaceholder := by
  cases h with
  | int n => rfl
  | float q => rfl
  | str s hfull =>
    have href : isRef d s = false := by
      refine Bool.eq_false_iff.mpr fun href => ?_
      rw [isFullRefString_of_isRef href (hline s (.str s))] at hfull
      cases hfull
    simp [redactValue, href]

theorem shows_list_map {f : α → Value} {xs : List α} {x : α} {text : String} (hx : x ∈ xs.take 5)
    (h : Shows (f x) text) : Shows (.list (xs.map f)) text := by
  refine .list ?_ h
  rw [← List.map_take]
  exact List.mem_map_of_mem hx

theorem shows_dict_map {f : α → Value} {items : List (String × α)} {item : String × α} {text : String}
    (hitem : item ∈ (sortItems items).take 5) (h : Shows (f item.2) text) :
    Shows (.dict (items.map fun item => (item.1, f item.2))) text := by
  have hmem : (item.1, f item.2) ∈ (sortItems (items.map fun item => (item.1, f item.2))).take 5 := by
    rw [sortItems_map, ← List.map_take]
    exact List.mem_map_of_mem hitem
  exact .dict hmem h

/-- **Values that differ in literals alone are redacted to the same.** -/
theorem redactValue_congr {w : Value} (h : SameShape py v w) :
    (∀ text, Shows v text → isRefLine d text = false) → (∀ text, Shows w text → isRefLine d text = false) →
      redactValue d v = redactValue d w := by
  induction h with
  | refl v => exact fun _ _ => rfl
  | literal hv hw => exact fun h h' => by rw [redactValue_literal hv h, redactValue_literal hw h']
  | list pairs _ ih =>
    intro h h'
    rw [redactValue_list, redactValue_list, ← List.map_take, ← List.map_take, List.map_map, List.map_map]
    refine congrArg Value.list (List.map_congr_left fun p hp => ?_)
    exact ih p (List.mem_of_mem_take hp) (fun text ht => h text (shows_list_map hp ht))
      fun text ht => h' text (shows_list_map hp ht)
  | dict items _ ih =>
    intro h h'
    by_cases hnil : items = []
    · rw [hnil, List.map_nil, List.map_nil]
    · have hvalues : ((sortItems items).take 5).map (fun item => redactValue d item.2.1) =
          ((sortItems items).take 5).map (fun item => redactValue d item.2.2) := by
        refine List.map_congr_left fun item hitem => ?_
        exact ih item (mem_sortItems.mp (List.mem_of_mem_take hitem))
          (fun text ht => h text (@shows_dict_map _ Prod.fst _ _ _ hitem ht))
          fun text ht => h' text (@shows_dict_map _ Prod.snd _ _ _ hitem ht)
      rw [redactValue_dict (by simpa using hnil), redactValue_dict (by simpa using hnil), sortItems_map, sortItems_map,
        ← List.map_take, ← List.map_take, List.map_map, List.map_map, List.length_map, List.length_map]
      exact congrArg (fun values => Value.dict [(keyPlaceholder, .list values), ("n_keys", .int items.length)]) hvalues

theorem SameShape.dict_inv {kvs kws : Dict} (h : SameShape py (.dict kvs) (.dict kws)) :
    ∃ items : List (String × Value × Value), kvs = items.map (fun item => (item.1, item.2.1)) ∧
      kws = items.map (fun item => (item.1, item.2.2)) ∧ ∀ item ∈ items, SameShape py item.2.1 item.2.2 := by
  cases h with
  | refl =>
    refine ⟨kvs.map fun item => (item.1, item.2, item.2), ?_, ?_, fun item hitem => ?_⟩
    · rw [List.map_map]
      exact (List.map_id kvs).symm
    · rw [List.map_map]
      exact (List.map_id kvs).symm
    · obtain ⟨kv, -, rfl⟩ := List.mem_map.mp hitem
      exact .refl _
  | literal hv => cases hv
  | dict items hitems => exact ⟨items, rfl, rfl, hitems⟩

theorem redactArgs_congr {args args' : Dict} {allowed : List String} (hshape : SameShape py (.dict args) (.dict args'))
    (h : ∀ arg ∈ args, arg.1 ∈ allowed → ∀ text, Shows arg.2 text → isRefLine d text = false)
    (h' : ∀ arg ∈ args', arg.1 ∈ allowed → ∀ text, Shows arg.2 text → isRefLine d text = false) :
    redactArgs d args allowed = redactArgs d args' allowed := by
  obtain ⟨items, rfl, rfl, hitems⟩ := hshape.dict_inv
  have hout : ((sortItems items).filter fun item => allowed.contains item.1).map (fun item => (item.1, redactValue d item.2.1)) =
      ((sortItems items).filter fun item => allowed.contains item.1).map (fun item => (item.1, redactValue d item.2.2)) := by
    refine List.map_congr_left fun item hitem => ?_
    obtain ⟨hmem, hallowed⟩ := List.mem_filter.mp hitem
    have hmem : item ∈ items := mem_sortItems.mp hmem
    have hallowed : item.1 ∈ allowed := by simpa using hallowed
    rw [redactValue_congr (hitems item hmem) (h _ (List.mem_map_of_mem hmem) hallowed)
      (h' _ (List.mem_map_of_mem hmem) hallowed)]
  simp only [redactArgs, sortItems_map, List.filter_map, List.map_map, List.length_map]
  exact congrArg (fun out => if ((sortItems items).filter fun item => !allowed.contains item.1).length = 0 then out
    else setItem out "n_extra_keys" (.int ((sortItems items).filter fun item => !allowed.contains item.1).length)) hout

end Values

/-! ### The form of a plan -/

section Plans

variable {py : Py} {d : Digits py} {tools : ToolFields}

theorem ToolFields.marker_not_mem (tool : String) : "n_extra_keys" ∉ tools.of tool := by
  rw [ToolFields.of]
  cases hlookup : tools.specs.lookup tool with
  | none => simp
  | some fields =>
    obtain ⟨pre, post, heq, -⟩ := List.lookup_eq_some_iff.mp hlookup
    exact tools.fields (tool, fields) (by simp [heq])

/-- A name that is no identifier declares no fields. -/
theorem ToolFields.of_identOr_subset (tool : String) : tools.of (identOr tool) ⊆ tools.of tool := by
  unfold identOr
  split_ifs
  · exact fun _ h => h
  · have hnone : tools.specs.lookup argPlaceholder = none := by
      refine List.lookup_eq_none_iff.mpr fun spec hspec => ?_
      obtain ⟨c, cs, hname, hc⟩ := tools.names spec hspec
      suffices hne : argPlaceholder ≠ spec.1 by simpa using hne
      intro heq
      rw [← heq] at hname
      obtain ⟨rfl, -⟩ : '<' = c ∧ _ := List.cons.inj hname
      exact absurd hc (by decide)
    simp [ToolFields.of, hnone]

theorem clean_composeForm_iff {c : ComposerCall} :
    (∀ data ∈ (composeForm d (some c)).templateDataShape, Clean py [] data) ↔
      ∀ text, Shows (.dict c.templateData) text → isRefLine d text = false := by
  rw [composeForm]
  by_cases hnil : c.templateData = []
  · have hshows : ∀ text, ¬ Shows (.dict []) text := by
      intro text h
      cases h with
      | dict hitem => simp [sortItems] at hitem
    simp [hnil, hshows]
  · have hempty : c.templateData.isEmpty = false := by simpa using hnil
    simp [hempty, clean_redactValue_iff]

theorem composeForm_congr {c c' : ComposerCall} (hshape : ComposerCall.SameShape py c c')
    (h : ∀ text, Shows (.dict c.templateData) text → isRefLine d text = false)
    (h' : ∀ text, Shows (.dict c'.templateData) text → isRefLine d text = false) :
    composeForm d (some c) = composeForm d (some c') := by
  have hempty : c'.templateData.isEmpty = c.templateData.isEmpty := by
    obtain ⟨items, hitems, hitems', -⟩ := hshape.templateData.dict_inv
    rw [hitems, hitems', List.isEmpty_map, List.isEmpty_map]
  simp only [composeForm, hshape.kind, hshape.templateId, hshape.llmPromptKey, hempty,
    redactValue_congr hshape.templateData h h']

/-- No line is shown by the template data of a branch. -/
def BranchOk (d : Digits py) (branch : OutcomeBranch) : Prop :=
  ∀ c ∈ branch.compose, ∀ text, Shows (.dict c.templateData) text → isRefLine d text = false

/-- No line is shown by a step. -/
structure StepOk (d : Digits py) (tools : ToolFields) (action : Action) : Prop where
  args : ∀ arg ∈ action.args, arg.1 ∈ tools.of (identOr action.tool) → ∀ text, Shows arg.2 text → isRefLine d text = false
  branches : ∀ branch ∈ action.expectedOutcomes, BranchOk d branch

theorem clean_outcomeForm_iff {branch : OutcomeBranch} :
    (∀ data ∈ (outcomeForm d branch).compose.templateDataShape, Clean py [] data) ↔ BranchOk d branch := by
  rw [outcomeForm, BranchOk]
  cases branch.compose with
  | none => simp [composeForm]
  | some c => simpa using clean_composeForm_iff

theorem outcomeForm_congr {branch branch' : OutcomeBranch} (hshape : OutcomeBranch.SameShape py branch branch')
    (h : BranchOk d branch) (h' : BranchOk d branch') : outcomeForm d branch = outcomeForm d branch' := by
  have hcompose : composeForm d branch.compose = composeForm d branch'.compose := by
    have hrel := hshape.compose
    rw [BranchOk] at h h'
    revert h h'
    generalize branch.compose = c, branch'.compose = c' at hrel
    intro h h'
    cases hrel with
    | none => rfl
    | some hc => exact composeForm_congr hc (h _ rfl) (h' _ rfl)
  simp only [outcomeForm, hshape.expected, hshape.next, hcompose]

theorem clean_stepForm_iff {entry : String × Action} :
    (Clean py (tools.of entry.2.tool) (.dict (stepForm d tools entry).argsShape) ∧
      ∀ outcome ∈ (stepForm d tools entry).outcomes, ∀ data ∈ outcome.compose.templateDataShape, Clean py [] data) ↔
      StepOk d tools entry.2 := by
  have hargs : Clean py (tools.of entry.2.tool) (.dict (stepForm d tools entry).argsShape) ↔ _ :=
    clean_redactArgs_iff (tools.marker_not_mem _) (tools.of_identOr_subset entry.2.tool)
  constructor
  · rintro ⟨h, hout⟩
    refine ⟨hargs.mp h, fun branch hbranch => clean_outcomeForm_iff.mp ?_⟩
    exact hout _ (List.mem_map_of_mem hbranch)
  · rintro ⟨h, hbranches⟩
    refine ⟨hargs.mpr h, fun outcome houtcome => ?_⟩
    obtain ⟨branch, hbranch, rfl⟩ := List.mem_map.mp houtcome
    exact clean_outcomeForm_iff.mpr (hbranches branch hbranch)

theorem stepForm_congr {entry entry' : String × Action} (hkey : entry.1 = entry'.1)
    (hshape : Action.SameShape py entry.2 entry'.2) (h : StepOk d tools entry.2) (h' : StepOk d tools entry'.2) :
    stepForm d tools entry = stepForm d tools entry' := by
  have hargs : redactArgs d entry.2.args (tools.of (identOr entry.2.tool)) =
      redactArgs d entry'.2.args (tools.of (identOr entry.2.tool)) :=
    redactArgs_congr hshape.args h.args (hshape.tool ▸ h'.args)
  have houtcomes : entry.2.expectedOutcomes.map (outcomeForm d) = entry'.2.expectedOutcomes.map (outcomeForm d) := by
    have hrel := hshape.expectedOutcomes
    have hok := h.branches
    have hok' := h'.branches
    generalize entry.2.expectedOutcomes = bs, entry'.2.expectedOutcomes = bs' at hrel hok hok'
    induction hrel with
    | nil => rfl
    | cons hb _ ih =>
      rw [List.map_cons, List.map_cons, outcomeForm_congr hb (hok _ (by simp)) (hok' _ (by simp)),
        ih (fun b hb => hok b (by simp [hb])) fun b hb => hok' b (by simp [hb])]
  simp only [stepForm, hkey, hshape.tool, hshape.intentGroup, hshape.dependsOn, hargs, houtcomes]

/-- Two dicts with the same keys and related values are two columns of one table. -/
theorem exists_items {R : α → α → Prop} {l l' : List (String × α)}
    (h : List.Forall₂ (fun e e' => e.1 = e'.1 ∧ R e.2 e'.2) l l') : ∃ items : List (String × α × α),
      l = items.map (fun item => (item.1, item.2.1)) ∧ l' = items.map (fun item => (item.1, item.2.2)) ∧
      ∀ item ∈ items, R item.2.1 item.2.2 := by
  induction h with
  | nil => exact ⟨[], rfl, rfl, by simp⟩
  | @cons e e' _ _ he _ ih =>
    obtain ⟨items, rfl, rfl, hitems⟩ := ih
    refine ⟨(e.1, e.2, e'.2) :: items, rfl, ?_, ?_⟩
    · rw [List.map_cons, he.1]
    · exact List.forall_mem_cons.mpr ⟨he.2, hitems⟩

theorem shows_iff : (∀ text, plan.Shows tools text → isRefLine d text = false) ↔
    (∀ entry ∈ plan.actions, StepOk d tools entry.2) ∧
      ∀ text, Shows (.dict plan.compose.templateData) text → isRefLine d text = false := by
  constructor
  · intro h
    refine ⟨fun entry hentry => ⟨fun arg harg hallowed text ht => ?_, fun branch hbranch c hc text ht => ?_⟩,
      fun text ht => h text (.inr ht)⟩
    · exact h text (.inl ⟨entry, hentry, .inl ⟨arg, harg, hallowed, ht⟩⟩)
    · exact h text (.inl ⟨entry, hentry, .inr ⟨branch, hbranch, c, hc, ht⟩⟩)
  · rintro ⟨hsteps, hcompose⟩ text
      (⟨entry, hentry, ⟨arg, harg, hallowed, ht⟩ | ⟨branch, hbranch, c, hc, ht⟩⟩ | ht)
    · exact (hsteps entry hentry).args arg harg hallowed text ht
    · exact (hsteps entry hentry).branches branch hbranch c hc text ht
    · exact hcompose text ht

/-- A form is clean when, and only when, its plan shows no reference with a line feed after it. -/
theorem cleanFor_iff : (projectPlanForm d tools plan).CleanFor tools py plan ↔
    ∀ text, plan.Shows tools text → isRefLine d text = false := by
  rw [shows_iff, PlanForm.CleanFor, projectPlanForm, List.forall₂_map_right_iff, List.forall₂_same, clean_composeForm_iff]
  refine and_congr_left' ⟨fun h entry hentry => ?_, fun h entry hentry => ?_⟩
  · exact clean_stepForm_iff.mp (h entry (mem_sortItems.mpr hentry))
  · exact clean_stepForm_iff.mpr (h entry (mem_sortItems.mp hentry))

/-- Plans that differ in literals alone have one form. -/
theorem projectPlanForm_congr {plan' : PlanDocument} (hshape : PlanDocument.SameShape py plan plan')
    (h : ∀ text, plan.Shows tools text → isRefLine d text = false)
    (h' : ∀ text, plan'.Shows tools text → isRefLine d text = false) :
    projectPlanForm d tools plan = projectPlanForm d tools plan' := by
  obtain ⟨hsteps, hcompose⟩ := shows_iff.mp h
  obtain ⟨hsteps', hcompose'⟩ := shows_iff.mp h'
  obtain ⟨items, hitems, hitems', hactions⟩ := exists_items hshape.actions
  have hforms : (sortItems plan.actions).map (stepForm d tools) = (sortItems plan'.actions).map (stepForm d tools) := by
    rw [hitems, hitems', sortItems_map, sortItems_map, List.map_map, List.map_map]
    refine List.map_congr_left fun item hitem => ?_
    have hmem : item ∈ items := mem_sortItems.mp hitem
    refine stepForm_congr rfl (hactions item hmem) (hsteps (item.1, item.2.1) ?_) (hsteps' (item.1, item.2.2) ?_)
    · rw [hitems]
      exact List.mem_map_of_mem hmem
    · rw [hitems']
      exact List.mem_map_of_mem hmem
  simp only [projectPlanForm, hshape.clarity, hforms, composeForm_congr hshape.compose hcompose hcompose']

variable (d tools) in
/-- What is asked of two plans: one form when they differ in literals alone, and clean forms. -/
def Meets (plan plan' : PlanDocument) : Prop :=
  (PlanDocument.SameShape py plan plan' → projectPlanForm d tools plan = projectPlanForm d tools plan') ∧
  (projectPlanForm d tools plan).CleanFor tools py plan ∧ (projectPlanForm d tools plan').CleanFor tools py plan'

variable (d tools) in
/-- **The library learns nothing of a literal**, as long as no string that the projection comes to
is a reference with a line feed after it; such a string is stored as it is. -/
theorem projectPlanForm_meets_iff (plan plan' : PlanDocument) : Meets d tools plan plan' ↔
    ∀ text, plan.Shows tools text ∨ plan'.Shows tools text → isRefLine d text = false := by
  rw [Meets, cleanFor_iff, cleanFor_iff]
  constructor
  · rintro ⟨-, h, h'⟩ text (ht | ht)
    · exact h text ht
    · exact h' text ht
  · intro h
    have hplan : ∀ text, plan.Shows tools text → isRefLine d text = false := fun text ht => h text (.inl ht)
    have hplan' : ∀ text, plan'.Shows tools text → isRefLine d text = false := fun text ht => h text (.inr ht)
    exact ⟨fun hshape => projectPlanForm_congr hshape hplan hplan', hplan, hplan'⟩

end Plans

/-! ### A title with a line feed -/

/-- `schedule_reminder`, with its input model. -/
def reminderTools : ToolFields where
  specs := [("schedule_reminder", ["title", "trigger_iso", "recurrence_rule"])]
  names := by
    intro spec hspec
    obtain rfl := List.mem_singleton.mp hspec
    exact ⟨'s', _, rfl, by decide⟩
  fields := by
    intro spec hspec
    obtain rfl := List.mem_singleton.mp hspec
    simp

def confirmCall : ComposerCall where
  kind := .template
  templateId := some "reminder_scheduled"
  templateData := []
  llmPromptKey := none
  kind_consistent := by simp

/-- A step with these arguments that is asked to go well. -/
def okStep (tool : String) (args : Dict) : Action where
  tool := tool
  args := args
  expectedOutcomes := [⟨[("status", .str "ok")], none, none, terminus_none⟩]
  intentGroup := "default"
  dependsOn := []
  expectedOutcomes_ne_nil := by simp

/-- A reminder with this title, after a look at the reminders there are. -/
def reminderPlan (title : String) : PlanDocument where
  actions := [("s1", okStep "list_reminders" []), ("s2", okStep "schedule_reminder" [("title", .str title)])]
  keys_nodup := by simp
  keys_format := by
    intro key hkey
    obtain rfl | rfl : key = "s1" ∨ key = "s2" := by simpa using hkey
    · decide
    · decide
  dependsOn_ok := by simp [okStep]
  next_ok := by simp [okStep]
  dependsOn_acyclic := dependsOn_acyclic_of_nil (by simp [okStep])
  clarity := .clear
  compose := confirmCall

/-- A title that is a reference and a line feed is stored, and not told from the same reference
inside of a text, whose form is another one. -/
theorem line_feed_leaks :
    PlanDocument.SameShape Py.ascii (reminderPlan "$\x7bs1.title\x7d\n") (reminderPlan "to $\x7bs1.title\x7d") ∧
    projectPlanForm Digits.ascii reminderTools (reminderPlan "$\x7bs1.title\x7d\n") ≠
      projectPlanForm Digits.ascii reminderTools (reminderPlan "to $\x7bs1.title\x7d") ∧
    ¬ Meets Digits.ascii reminderTools (reminderPlan "$\x7bs1.title\x7d\n") (reminderPlan "to $\x7bs1.title\x7d") := by
  have hshape : PlanDocument.SameShape Py.ascii (reminderPlan "$\x7bs1.title\x7d\n") (reminderPlan "to $\x7bs1.title\x7d") := by
    refine ⟨.cons ⟨rfl, rfl, .refl _, .cons ⟨rfl, rfl, .none⟩ .nil, rfl, rfl⟩ (.cons ⟨rfl, rfl, ?_, ?_, rfl, rfl⟩ .nil),
      rfl, rfl, rfl, rfl, .refl _⟩
    · refine .dict [("title", .str "$\x7bs1.title\x7d\n", .str "to $\x7bs1.title\x7d")] fun item hitem => ?_
      obtain rfl := List.mem_singleton.mp hitem
      exact .literal (.str _ (by decide)) (.str _ (by decide))
    · exact .cons ⟨rfl, rfl, .none⟩ .nil
  have hne : projectPlanForm Digits.ascii reminderTools (reminderPlan "$\x7bs1.title\x7d\n") ≠
      projectPlanForm Digits.ascii reminderTools (reminderPlan "to $\x7bs1.title\x7d") := by
    intro heq
    have hstrings := congrArg (fun form => form.steps.map fun step => Value.stringsDict step.argsShape) heq
    exact absurd hstrings (by decide)
  exact ⟨hshape, hne, fun h => hne (h.1 hshape)⟩

end Sreda.Planner.PlanLibrary
