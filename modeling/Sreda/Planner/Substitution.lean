import Sreda.Planner.ArgTree

/-!
# Interpolation as one substitution

The executor resolves the references in the arguments of a step in two passes, `resolve_selector_refs` and `resolve_refs`, and peels
the wrappers of the first one with `unwrap_resolved`. What the first pass has put in must not be read again by the second.

## What is proved

* when both passes succeed, the references that were found are all resolved, iff each tuple with a reference in it is its own
  substitution (`detected_resolved`);
* where no tuple holds a reference, the passes are one substitution: each reference of a string is replaced by its value, and
  nothing that is put in is read again (`interpolation_substitution`).
-/

namespace Sreda.Planner

namespace ArgTree

variable (py : Py) (state : List (String × Dict))

/-- `iter_refs`. -/
def iterRefs (args : ArgTree) : List RefPath := args.strings.flatMap (refsOf py)

/-- `contains_ref`. -/
def containsRef (args : ArgTree) : Bool := args.strings.any fun text => !(refsOf py text).isEmpty

/-- `resolve_selector_refs`. -/
def resolveSelectorRefs (args : ArgTree) : Except SelectorError ArgTree := args.walk false (resolveSelectorInString py state)

/-- `resolve_refs`. -/
def resolveRefs (args : ArgTree) : Except InvalidReferenceError ArgTree := args.walk false (resolveInString py state)

/-- The two passes, and the wrappers peeled. -/
def interpolated (args : ArgTree) : Except SelectorError ArgTree :=
  match args.resolveSelectorRefs py state with
  | .error e => .error e
  | .ok selected =>
    match selected.resolveRefs py state with
    | .error e => .error (.invalidReference e)
    | .ok resolved => .ok resolved.unwrap

/-! ### The substitution -/

/-- One substitution in a string: a reference that is all of it becomes its value, another one the text of its value. -/
def substituteString (text : String) : Except SelectorError Value :=
  match tokens py text with
  | [.ref path] => resolveAnyRef py state path
  | ts => do return .str (← interpolate py (resolveAnyRef py state) ts)

/-- One substitution in all strings of the argument. -/
def substitute (args : ArgTree) : Except SelectorError ArgTree := args.walk true (substituteString py state)

end ArgTree

/-! ### One string -/

section Text

variable {py : Py} {ε₁ ε₂ : Type}

/-- Two ways to resolve that agree on the references give the same text. -/
theorem interpolate_congr {resolve₁ : RefPath → Except ε₁ Value} {resolve₂ : RefPath → Except ε₂ Value} :
    ∀ {ts : List Token}, (∀ path ∈ ts.filterMap Token.ref?, ∀ v, resolve₁ path = .ok v ↔ resolve₂ path = .ok v) →
      ∀ s, interpolate py resolve₁ ts = .ok s ↔ interpolate py resolve₂ ts = .ok s
  | [], _, s => by
    rw [interpolate, interpolate, Value.pure_eq_ok, Value.pure_eq_ok]
  | .char c :: ts, h, s => by
    rw [interpolate, interpolate, Value.bind_ok, Value.bind_ok]
    have hrest : ∀ path ∈ ts.filterMap Token.ref?, ∀ v, resolve₁ path = .ok v ↔ resolve₂ path = .ok v := h
    refine exists_congr fun rest => and_congr (interpolate_congr hrest rest) ?_
    rw [Value.pure_eq_ok, Value.pure_eq_ok]
  | .ref path :: ts, h, s => by
    obtain ⟨hfirst, hothers⟩ := List.forall_mem_cons.mp h
    rw [interpolate, interpolate, Value.bind_ok, Value.bind_ok]
    refine exists_congr fun v => and_congr (hfirst v) ?_
    rw [Value.bind_ok, Value.bind_ok]
    refine exists_congr fun rest => and_congr (interpolate_congr hothers rest) ?_
    rw [Value.pure_eq_ok, Value.pure_eq_ok]

theorem interpolate_chars (resolve : RefPath → Except ε₁ Value) (cs : List Char) :
    interpolate py resolve (cs.map .char) = .ok (String.ofList cs) := by
  induction cs with
  | nil => rfl
  | cons c cs ih =>
    rw [List.map_cons, interpolate, ih]
    refine congrArg Except.ok (String.toList_inj.mp ?_)
    simp [Char.toString]

theorem scan_chars : ∀ {cs : List Char}, (scan py 0 cs).filterMap Token.ref? = [] → scan py 0 cs = cs.map .char
  | [], _ => rfl
  | c :: cs, h => by
    rw [scan] at h ⊢
    cases hmatch : matchRef py (c :: cs) with
    | some found =>
      rw [hmatch] at h
      cases h
    | none =>
      rw [hmatch] at h
      exact congrArg _ (scan_chars h)

theorem interpolate_text {text : String} (h : refsOf py text = []) (resolve : RefPath → Except ε₁ Value) :
    interpolate py resolve (tokens py text) = .ok text := by
  rw [tokens, scan_chars h, interpolate_chars, String.ofList_toList]

variable {state : List (String × Dict)}

theorem resolveAnyRef_plain {path : RefPath} (h : hasOnlySegment path = false) (v : Value) :
    resolvePath py path state = .ok v ↔ resolveAnyRef py state path = .ok v := by
  rw [resolveAnyRef, h, if_neg Bool.false_ne_true]
  cases resolvePath py path state with
  | ok w => exact ⟨fun heq => congrArg Except.ok (Except.ok.inj heq), fun heq => congrArg Except.ok (Except.ok.inj heq)⟩
  | error e => exact ⟨(fun heq => by cases heq), (fun heq => by cases heq)⟩

theorem substituteString_one {text : String} {path : RefPath} (h : tokens py text = [.ref path]) :
    ArgTree.substituteString py state text = resolveAnyRef py state path := by
  rw [ArgTree.substituteString, h]

theorem substituteString_mixed {text : String} (h : ∀ path, tokens py text ≠ [.ref path]) :
    ArgTree.substituteString py state text =
      (interpolate py (resolveAnyRef py state) (tokens py text) >>= fun s => pure (.str s)) := by
  rw [ArgTree.substituteString]
  split
  · next path htok => exact absurd htok (h path)
  · rfl

theorem resolveInString_ok_iff {text : String} (h : ∀ path ∈ refsOf py text, hasOnlySegment path = false) (v : Value) :
    resolveInString py state text = .ok v ↔ ArgTree.substituteString py state text = .ok v := by
  rw [resolveInString]
  cases hrefs : refsOf py text with
  | nil =>
    have hsub : ArgTree.substituteString py state text = .ok (.str text) := by
      rw [substituteString_mixed, interpolate_text hrefs]
      · rfl
      · intro path htok
        rw [refsOf, htok] at hrefs
        cases hrefs
    rw [hsub]
    exact ⟨fun heq => congrArg Except.ok (Except.ok.inj heq), fun heq => congrArg Except.ok (Except.ok.inj heq)⟩
  | cons path paths =>
    rw [if_neg (by simp)]
    split
    · next path htok =>
      rw [substituteString_one htok]
      exact resolveAnyRef_plain (h path (by rw [refsOf, htok]; exact List.mem_cons_self)) v
    · next hmixed =>
      rw [substituteString_mixed hmixed, Value.bind_ok, Value.bind_ok]
      refine exists_congr fun s => and_congr ?_ ?_
      · exact interpolate_congr (fun path hpath v => resolveAnyRef_plain (h path hpath) v) s
      · rw [Value.pure_eq_ok, Value.pure_eq_ok]

/-- **The two passes are one on a string**: what the first one has put in is wrapped, and the second one leaves it alone. -/
theorem passes_string (text : String) (out : Value) :
    Value.Passes (resolveSelectorInString py state) (resolveInString py state) (.str text) out ↔
      Value.Pass (ArgTree.substituteString py state) (.str text) out := by
  have hpass : Value.Pass (ArgTree.substituteString py state) (.str text) out ↔
      ∃ r, ArgTree.substituteString py state text = .ok r ∧ unwrapResolved r = out := Iff.rfl
  have hpasses : Value.Passes (resolveSelectorInString py state) (resolveInString py state) (.str text) out ↔
      ∃ s r, resolveSelectorInString py state text = .ok s ∧ s.mapStrings (resolveInString py state) = .ok r ∧
        unwrapResolved r = out := Iff.rfl
  rw [hpass, hpasses]
  -- a wrapped value goes through the second pass, and is peeled
  have hwrapped : ∀ {resolved : Except SelectorError Value},
      (∃ s r, (resolved >>= fun v => pure (.literal v) : Except SelectorError Value) = .ok s ∧
        s.mapStrings (resolveInString py state) = .ok r ∧ unwrapResolved r = out) ↔
      ∃ r, resolved = .ok r ∧ unwrapResolved r = out := by
    intro resolved
    constructor
    · rintro ⟨s, r, hs, hr, rfl⟩
      obtain ⟨v, hv, hs'⟩ := Value.bind_ok.mp hs
      obtain rfl := Value.pure_eq_ok.mp hs'
      cases hr
      exact ⟨v, hv, rfl⟩
    · rintro ⟨v, hv, rfl⟩
      exact ⟨.literal v, .literal v, Value.bind_ok.mpr ⟨v, hv, rfl⟩, rfl, rfl⟩
  rw [resolveSelectorInString]
  cases hany : (refsOf py text).any hasOnlySegment with
  | false =>
    have hno : ∀ path ∈ refsOf py text, hasOnlySegment path = false := fun path hpath => by
      simpa using List.any_eq_false.mp hany path hpath
    rw [if_neg Bool.false_ne_true]
    constructor
    · rintro ⟨s, r, hs, hr, hout⟩
      cases hs
      exact ⟨r, (resolveInString_ok_iff hno r).mp hr, hout⟩
    · rintro ⟨r, hr, hout⟩
      exact ⟨.str text, r, rfl, (resolveInString_ok_iff hno r).mpr hr, hout⟩
  | true =>
    rw [if_pos rfl]
    split
    · next path htok =>
      have honly : hasOnlySegment path = true := by simpa [refsOf, htok, Token.ref?] using hany
      rw [substituteString_one htok, resolveAnyRef, if_pos honly]
      exact hwrapped
    · next hmixed =>
      have hassoc : ∀ x : Except SelectorError String,
          (x >>= fun s => pure (Value.literal (.str s)) : Except SelectorError Value) =
            (x >>= fun s => pure (Value.str s)) >>= fun v => pure (.literal v) := by
        intro x
        cases x <;> rfl
      rw [substituteString_mixed hmixed, hassoc]
      exact hwrapped

end Text

/-! ### The passes -/

namespace ArgTree

section Interpolated

variable {py : Py} {state : List (String × Dict)}

/-- A tuple without references is its own substitution. -/
theorem substitute_of_no_ref {t : ArgTree} (h : t.containsRef py = false) : t.substitute py state = .ok t := by
  refine walk_same fun text htext => ?_
  have hrefs : refsOf py text = [] := by simpa using List.any_eq_false.mp h text htext
  rw [substituteString_mixed, interpolate_text hrefs]
  · rfl
  · intro path htok
    rw [refsOf, htok] at hrefs
    cases hrefs

/-- Both passes, as one walk that does not look into tuples. -/
theorem walk_of_passes {args selected resolved : ArgTree} (hsel : args.resolveSelectorRefs py state = .ok selected)
    (hres : selected.resolveRefs py state = .ok resolved) :
    ∃ r, args.walk false (substituteString py state) = .ok r ∧ r.unwrap = resolved.unwrap :=
  (walks_iff passes_string args _).mp ⟨selected, resolved, hsel, hres, rfl⟩

theorem interpolated_iff (args out : ArgTree) :
    args.interpolated py state = .ok out ↔ ∃ r, args.walk false (substituteString py state) = .ok r ∧ r.unwrap = out := by
  rw [← walks_iff passes_string args out, interpolated]
  constructor
  · intro h
    split at h
    · cases h
    · next selected hsel =>
      split at h
      · cases h
      · next resolved hres => exact ⟨selected, resolved, hsel, hres, Except.ok.inj h⟩
  · rintro ⟨selected, resolved, hsel, hres, rfl⟩
    have hsel' : args.resolveSelectorRefs py state = .ok selected := hsel
    have hres' : selected.resolveRefs py state = .ok resolved := hres
    rw [hsel']
    dsimp only
    rw [hres']

end Interpolated

/-- The references that `iter_refs` finds are all resolved in the result. -/
def AllResolved (py : Py) (state : List (String × Dict)) (args resolved : ArgTree) : Prop :=
  ∃ r, args.substitute py state = .ok r ∧ r.unwrap = resolved.unwrap

end ArgTree

/-- **What is detected is resolved**: when both passes succeed, all references that were found are resolved, iff each tuple in which
`contains_ref` finds one is its own substitution. -/
theorem detected_resolved (py : Py) (state : List (String × Dict)) {args selected resolved : ArgTree}
    (hsel : args.resolveSelectorRefs py state = .ok selected) (hres : selected.resolveRefs py state = .ok resolved) :
    args.AllResolved py state resolved ↔
      ∀ t ∈ args.tuples, t.containsRef py = true → t.substitute py state = .ok t := by
  obtain ⟨r₀, hr₀, hpeeled⟩ := ArgTree.walk_of_passes hsel hres
  constructor
  · rintro ⟨r, hr, heq⟩ t ht -
    exact ArgTree.tuples_fixed hr hr₀ (heq.trans hpeeled.symm) t ht
  · intro h
    refine ⟨r₀, ?_, hpeeled⟩
    rw [← hr₀]
    refine ArgTree.walk_deep fun t ht => ?_
    cases hrefs : t.containsRef py with
    | true => exact h t ht hrefs
    | false => exact ArgTree.substitute_of_no_ref hrefs

/-- A tuple with a reference, and one without. -/
def tupleArgs : ArgTree := .dict [("ids", .tuple [.value (.str "$\x7bs1.x\x7d")]), ("pair", .tuple [.value (.int 1)])]

def stepState : List (String × Dict) := [("s1", [("x", .str "a")])]

theorem detected_resolved_tuple :
    tupleArgs.AllResolved Py.ascii stepState tupleArgs ↔
      ∀ t ∈ tupleArgs.tuples, t.containsRef Py.ascii = true → t.substitute Py.ascii stepState = .ok t := by
  have hsel : tupleArgs.resolveSelectorRefs Py.ascii stepState = .ok tupleArgs := rfl
  have hres : tupleArgs.resolveRefs Py.ascii stepState = .ok tupleArgs := rfl
  exact detected_resolved Py.ascii stepState hsel hres

/-- **A reference in a tuple is left as it is**: both passes succeed. -/
theorem tuple_unresolved :
    tupleArgs.containsRef Py.ascii = true ∧ tupleArgs.iterRefs Py.ascii = [["s1", "x"]] ∧
      tupleArgs.resolveSelectorRefs Py.ascii stepState = .ok tupleArgs ∧
      tupleArgs.resolveRefs Py.ascii stepState = .ok tupleArgs ∧
      ¬ tupleArgs.AllResolved Py.ascii stepState tupleArgs := by
  refine ⟨by decide, by decide, rfl, rfl, ?_⟩
  rintro ⟨r, hr, heq⟩
  have hsub : tupleArgs.substitute Py.ascii stepState =
      .ok (.dict [("ids", .tuple [.value (.str "a")]), ("pair", .tuple [.value (.int 1)])]) := rfl
  rw [hsub] at hr
  obtain rfl := Except.ok.inj hr
  simp [tupleArgs, ArgTree.unwrap, ArgTree.unwrapDict] at heq

mutual

/-- The value holds no wrapper. -/
def Value.plain : Value → Bool
  | .literal _ => false
  | .list xs => plainList xs
  | .dict kvs => plainDict kvs
  | _ => true

def Value.plainList : List Value → Bool
  | [] => true
  | v :: vs => v.plain && plainList vs

def Value.plainDict : List (String × Value) → Bool
  | [] => true
  | (_, v) :: kvs => v.plain && plainDict kvs

end

mutual

/-- Of a value without wrappers nothing is peeled. -/
theorem unwrapResolved_plain : ∀ {v : Value}, v.plain = true → unwrapResolved v = v
  | .list _, h => congrArg Value.list (unwrapResolvedList_plain h)
  | .dict _, h => congrArg Value.dict (unwrapResolvedDict_plain h)
  | .null, _ => rfl
  | .bool _, _ => rfl
  | .int _, _ => rfl
  | .float _, _ => rfl
  | .str _, _ => rfl
  | .object _ _, _ => rfl

theorem unwrapResolvedList_plain : ∀ {vs : List Value}, Value.plainList vs = true → unwrapResolvedList vs = vs
  | [], _ => rfl
  | v :: vs, h => by
    obtain ⟨hv, hvs⟩ := Bool.and_eq_true_iff.mp h
    rw [unwrapResolvedList, unwrapResolved_plain hv, unwrapResolvedList_plain hvs]

theorem unwrapResolvedDict_plain : ∀ {kvs : Dict}, Value.plainDict kvs = true → unwrapResolvedDict kvs = kvs
  | [], _ => rfl
  | (key, v) :: kvs, h => by
    obtain ⟨hv, hkvs⟩ := Bool.and_eq_true_iff.mp h
    rw [unwrapResolvedDict, unwrapResolved_plain hv, unwrapResolvedDict_plain hkvs]

end

/-- **Interpolation is one substitution**: where no tuple holds a reference, the passes leave what replacing each reference of a
string by its value at once leaves; the wrappers that are peeled are those of the passes, and a value of the outputs, which holds
none, is put in as it is. -/
theorem interpolation_substitution (py : Py) (state : List (String × Dict)) {args : ArgTree}
    (h : ∀ t ∈ args.tuples, t.containsRef py = false) :
    (∀ out, args.interpolated py state = .ok out ↔ ∃ r, args.substitute py state = .ok r ∧ r.unwrap = out) ∧
      ∀ v : Value, v.plain = true → unwrapResolved v = v := by
  refine ⟨fun out => ?_, fun v => unwrapResolved_plain⟩
  have hwalk : args.substitute py state = args.walk false (ArgTree.substituteString py state) :=
    ArgTree.walk_deep fun t ht => ArgTree.substitute_of_no_ref (h t ht)
  rw [ArgTree.interpolated_iff, hwalk]

/-- A title, and the name of an item, that look like references. -/
def trickyState : List (String × Dict) :=
  [("s1", [("title", .str "$\x7bs1.secret\x7d"), ("secret", .str "x"),
    ("items", .list [.dict [("name", .str "$\x7bs1.secret\x7d")]])])]

def trickyArgs : ArgTree :=
  .dict [("title", .value (.str "$\x7bs1.title\x7d")), ("pair", .tuple [.value (.int 1)]),
    ("text", .list [.value (.str "$\x7bs1.items.only.name\x7d: $\x7bs1.secret\x7d")])]

/-- After the first pass, whose wrapper the second one leaves alone. -/
def trickySelected (title : String) : ArgTree :=
  .dict [("title", .value (.str title)), ("pair", .tuple [.value (.int 1)]),
    ("text", .list [.value (.literal (.str "$\x7bs1.secret\x7d: x"))])]

/-- The title comes out as it was put in. -/
def trickyResolved : ArgTree :=
  .dict [("title", .value (.str "$\x7bs1.secret\x7d")), ("pair", .tuple [.value (.int 1)]),
    ("text", .list [.value (.str "$\x7bs1.secret\x7d: x")])]

theorem interpolation_substitution_tricky :
    ∃ r, trickyArgs.substitute Py.ascii trickyState = .ok r ∧ r.unwrap = trickyResolved := by
  have hnone : ∀ t ∈ trickyArgs.tuples, t.containsRef Py.ascii = false := by
    intro t ht
    rw [List.mem_singleton.mp ht]
    rfl
  have hsel : trickyArgs.resolveSelectorRefs Py.ascii trickyState = .ok (trickySelected "$\x7bs1.title\x7d") := rfl
  have hres : (trickySelected "$\x7bs1.title\x7d").resolveRefs Py.ascii trickyState =
      .ok (trickySelected "$\x7bs1.secret\x7d") := rfl
  have hout : trickyArgs.interpolated Py.ascii trickyState = .ok trickyResolved := by
    rw [ArgTree.interpolated, hsel]
    dsimp only
    rw [hres]
    rfl
  exact ((interpolation_substitution Py.ascii trickyState hnone).1 trickyResolved).mp hout

/-- **A reference in a key is left as it is.** -/
theorem key_unresolved :
    refsOf Py.ascii "$\x7bs1.x\x7d" = [["s1", "x"]] ∧ resolveAnyRef Py.ascii stepState ["s1", "x"] = .ok (.str "a") ∧
      (ArgTree.dict [("$\x7bs1.x\x7d", .value (.int 1))]).interpolated Py.ascii stepState =
        .ok (.dict [("$\x7bs1.x\x7d", .value (.int 1))]) :=
  ⟨by decide, rfl, rfl⟩

end Sreda.Planner
