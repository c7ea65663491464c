import Sreda.Planner.Value

/-!
# References in strings

The module `interpolation`: `${node.field.subfield}` inside a string is a reference to the
output of an earlier step. A dotted path is kept as the list of its segments. A string is
read once from the left into tokens, a character or a reference each, which is what
`finditer` of the reference pattern finds; every function of the module works on them.
-/

namespace Sreda.Planner

/-- A dotted path, split at its dots. -/
abbrev RefPath := List String

/-- The text of a dotted path. -/
def RefPath.text (path : RefPath) : String := ".".intercalate path

/-- `InvalidReferenceError`, with its text. -/
structure InvalidReferenceError where
  message : String

/-- What a string consists of. -/
inductive Token where
  | char (c : Char)
  | ref (path : RefPath)

namespace Token

/-- The path of a reference. -/
def ref? : Token → Option RefPath
  | char _ => none
  | ref path => some path

end Token

section Pattern

variable (py : Py)

/-- `[A-Za-z_]`. -/
def startsSegment (c : Char) : Bool := c.isAlpha || c == '_'

/-- Read the rest of `[A-Za-z_]\w*(?:\.[A-Za-z_]\w*)*\}`: `seg` is the segment being read,
backwards, and `path` holds the segments read before it, backwards. The result is the path
and the number of characters read. -/
def matchPath : List Char → List Char → RefPath → Option (RefPath × ℕ)
  | [], _, _ => none
  | c :: cs, seg, path =>
    if seg.isEmpty then
      if startsSegment c then (matchPath cs [c] path).map fun (p, n) => (p, n + 1) else none
    else if c = '}' then some ((String.ofList seg.reverse :: path).reverse, 1)
    else if c = '.' then
      (matchPath cs [] (String.ofList seg.reverse :: path)).map fun (p, n) => (p, n + 1)
    else if py.isWord c then (matchPath cs (c :: seg) path).map fun (p, n) => (p, n + 1)
    else none

/-- `_REF_PATTERN` at the start of the text. -/
def matchRef : List Char → Option (RefPath × ℕ)
  | '$' :: '{' :: cs => (matchPath py cs [] []).map fun (p, n) => (p, n + 2)
  | _ => none

/-- The tokens of a text, of which the next `skip` characters belong to the reference that
was read last. -/
def scan : ℕ → List Char → List Token
  | _, [] => []
  | skip + 1, _ :: cs => scan skip cs
  | 0, c :: cs =>
    match matchRef py (c :: cs) with
    | some (path, n) => .ref path :: scan (n - 1) cs
    | none => .char c :: scan 0 cs

/-- The tokens of a string. -/
def tokens (text : String) : List Token := scan py 0 text.toList

/-- The references of a string: the groups of `_REF_PATTERN.finditer(text)`. -/
def refsOf (text : String) : List RefPath := (tokens py text).filterMap Token.ref?

/-- `iter_refs`. -/
def iterRefs (value : Value) : List RefPath := value.strings.flatMap (refsOf py)

end Pattern

/-- `extract_step_id`: the first segment of a path. -/
def extractStepId (path : RefPath) : String := path.headD ""

/-! ### Walking a path -/

/-- Why a path cannot be walked further. -/
inductive WalkError where
  /-- The field starts with an underscore. -/
  | underscore (field : String)
  /-- The field is not a key of the dict with these keys. -/
  | missing (field : String) (available : List String)
  /-- The value is no dict and has no such attribute. -/
  | noAttribute (field : String) (current : Value)

section Walk

variable (py : Py)

/-- Follow `fields` from a value: the keys of dicts, the attributes of anything else. -/
def walkFields : Value → List String → Except WalkError Value
  | current, [] => .ok current
  | current, field :: fields =>
    if field.toList.head? = some '_' then .error (.underscore field)
    else match current with
      | .dict kvs =>
        match kvs.lookup field with
        | some value => walkFields value fields
        | none => .error (.missing field (sorted (kvs.map Prod.fst)))
      | current =>
        match py.getattr current field with
        | some value => walkFields value fields
        | none => .error (.noAttribute field current)

/-- `repr` of a list of strings, or `(none)` for the empty list. -/
def listOrNone (names : List String) : String :=
  if names.isEmpty then "(none)" else Value.repr py (.list (names.map .str))

/-- `_resolve_path`. -/
def resolvePath (path : RefPath) (state : List (String × Dict)) : Except InvalidReferenceError Value :=
  let reference := "Reference '$\x7b" ++ path.text ++ "\x7d'"
  match path with
  | [] => .error ⟨"Empty reference path '$\x7b" ++ path.text ++ "\x7d'"⟩
  | nodeId :: fields =>
    match state.lookup nodeId with
    | none => .error ⟨reference ++ " refers to unknown node '" ++ nodeId ++ "'. Available nodes: "
        ++ listOrNone py (sorted (state.map Prod.fst))⟩
    | some output =>
      match walkFields py (.dict output) fields with
      | .ok value => .ok value
      | .error (.underscore field) => .error ⟨reference ++ " — field '" ++ field
          ++ "' starts with underscore. Private/dunder attribute access is forbidden "
          ++ "(prevents leakage of internal Python structure)."⟩
      | .error (.missing field available) => .error ⟨reference ++ " — field '" ++ field
          ++ "' not in result of '" ++ nodeId ++ "'. Available fields: " ++ listOrNone py available⟩
      | .error (.noAttribute field current) => .error ⟨reference ++ " — cannot access field '" ++ field
          ++ "' on value of type " ++ current.typeName ++ " (value: " ++ current.repr py ++ ")."⟩

/-- The text of the tokens, the references replaced by the text of what they resolve to. -/
def interpolate {ε : Type} (resolve : RefPath → Except ε Value) : List Token → Except ε String
  | [] => return ""
  | .char c :: ts => return c.toString ++ (← interpolate resolve ts)
  | .ref path :: ts => do
    let value ← resolve path
    let rest ← interpolate resolve ts
    return value.toStr py ++ rest

/-- `_resolve_in_string`. -/
def resolveInString (state : List (String × Dict)) (text : String) : Except InvalidReferenceError Value :=
  if (refsOf py text).isEmpty then .ok (.str text)
  else match tokens py text with
    | [.ref path] => resolvePath py path state
    | ts => do return .str (← interpolate py (resolvePath py · state) ts)

/-- `resolve_refs`. -/
def resolveRefs (value : Value) (state : List (String × Dict)) : Except InvalidReferenceError Value :=
  value.mapStrings (resolveInString py state)

variable {py}

theorem interpolate_ok {ε : Type} {resolve : RefPath → Except ε Value} :
    ∀ {ts : List Token} {s : String}, interpolate py resolve ts = .ok s →
      ∀ path ∈ ts.filterMap Token.ref?, ∃ v, resolve path = .ok v
  | [], _, _, _, hp => by simp at hp
  | .char c :: ts, _, h, path, hp => by
    obtain ⟨rest, hrest, -⟩ := Value.bind_ok.1 h
    exact interpolate_ok hrest path (by simpa [Token.ref?] using hp)
  | .ref path :: ts, _, h, q, hq => by
    obtain ⟨v, hv, h⟩ := Value.bind_ok.1 h
    obtain ⟨rest, hrest, -⟩ := Value.bind_ok.1 h
    rcases List.mem_cons.1 (by simpa [Token.ref?] using hq : q ∈ path :: ts.filterMap Token.ref?) with rfl | hq
    · exact ⟨v, hv⟩
    · exact interpolate_ok hrest q hq

theorem interpolate_total {ε : Type} {resolve : RefPath → Except ε Value} :
    ∀ (ts : List Token), (∀ path ∈ ts.filterMap Token.ref?, ∃ v, resolve path = .ok v) →
      ∃ s, interpolate py resolve ts = .ok s
  | [], _ => ⟨"", rfl⟩
  | .char c :: ts, h => by
    obtain ⟨s, hs⟩ := interpolate_total ts fun path hp => h path (by simpa [Token.ref?] using hp)
    exact ⟨_, Value.bind_ok.2 ⟨s, hs, rfl⟩⟩
  | .ref path :: ts, h => by
    obtain ⟨v, hv⟩ := h path (by simp [Token.ref?])
    obtain ⟨s, hs⟩ := interpolate_total ts fun q hq => h q (List.mem_cons_of_mem _ hq)
    exact ⟨_, Value.bind_ok.2 ⟨v, hv, Value.bind_ok.2 ⟨s, hs, rfl⟩⟩⟩

/-- A string resolves when all its references do. -/
theorem resolveInString_total {state : List (String × Dict)} {text : String}
    (h : ∀ path ∈ refsOf py text, ∃ v, resolvePath py path state = .ok v) :
    ∃ v, resolveInString py state text = .ok v := by
  unfold resolveInString
  split
  · exact ⟨_, rfl⟩
  · split
    · rename_i path htok
      exact h path (by simp [refsOf, htok, Token.ref?])
    · obtain ⟨s, hs⟩ := interpolate_total _ h
      exact ⟨_, Value.bind_ok.2 ⟨s, hs, rfl⟩⟩

/-- A string resolves only when all its references do. -/
theorem resolveInString_ok {state : List (String × Dict)} {text : String} {v : Value}
    (h : resolveInString py state text = .ok v) :
    ∀ path ∈ refsOf py text, ∃ w, resolvePath py path state = .ok w := by
  intro path hp
  have hne : (refsOf py text).isEmpty = false := by
    cases hr : refsOf py text with
    | nil => rw [hr] at hp; cases hp
    | cons _ _ => rfl
  simp only [resolveInString, hne, Bool.false_eq_true, if_false] at h
  split at h
  · rename_i q htok
    obtain rfl : path = q := by simpa [refsOf, htok, Token.ref?] using hp
    exact ⟨v, h⟩
  · obtain ⟨s, hs, -⟩ := Value.bind_ok.1 h
    exact interpolate_ok hs path hp

/-- A path resolves only at a node that the state holds. -/
theorem resolvePath_ok {path : RefPath} {state : List (String × Dict)} {v : Value}
    (h : resolvePath py path state = .ok v) : ∃ output, state.lookup (extractStepId path) = some output := by
  cases path with
  | nil => simp [resolvePath] at h
  | cons nodeId fields =>
    cases hl : state.lookup nodeId with
    | none => simp [resolvePath, hl] at h
    | some output => exact ⟨output, by simpa [extractStepId] using hl⟩

end Walk

end Sreda.Planner
