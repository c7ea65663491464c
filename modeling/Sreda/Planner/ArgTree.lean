import Sreda.Planner.Selector

/-!
# Walks over arguments

Arguments may hold tuples. `contains_ref` and `iter_refs` look into them; `resolve_refs`, `resolve_selector_refs` and
`unwrap_resolved` do not.

## What is proved

* two walks that are one on every string are one on every argument (`walks_iff`);
* what a walk that looks into tuples leaves, against one that does not (`walk_deep`, `tuples_fixed`).
-/

namespace Sreda.Planner

/-! ### Arguments with tuples -/

/-- An argument: a value without tuples, or a container that may hold tuples further inside. -/
inductive ArgTree where
  | value (v : Value)
  | list (xs : List ArgTree)
  | tuple (xs : List ArgTree)
  | dict (kvs : List (String × ArgTree))

namespace ArgTree

mutual

/-- The strings that `contains_ref` and `iter_refs` look at, in order. -/
def strings : ArgTree → List String
  | value v => v.strings
  | list xs => stringsList xs
  | tuple xs => stringsList xs
  | dict kvs => stringsDict kvs

def stringsList : List ArgTree → List String
  | [] => []
  | t :: ts => t.strings ++ stringsList ts

def stringsDict : List (String × ArgTree) → List String
  | [] => []
  | (_, t) :: kvs => t.strings ++ stringsDict kvs

end

mutual

/-- The tuples that are in no other tuple. -/
def tuples : ArgTree → List ArgTree
  | value _ => []
  | list xs => tuplesList xs
  | tuple xs => [tuple xs]
  | dict kvs => tuplesDict kvs

def tuplesList : List ArgTree → List ArgTree
  | [] => []
  | t :: ts => t.tuples ++ tuplesList ts

def tuplesDict : List (String × ArgTree) → List ArgTree
  | [] => []
  | (_, t) :: kvs => t.tuples ++ tuplesDict kvs

end

section Walk

variable {ε : Type} (deep : Bool) (f : String → Except ε Value)

mutual

/-- Replace every string by what `f` makes of it; the strings inside tuples only when the walk is `deep`. -/
def walk : ArgTree → Except ε ArgTree
  | value v => return value (← v.mapStrings f)
  | list xs => return list (← walkList xs)
  | tuple xs => if deep then return tuple (← walkList xs) else return tuple xs
  | dict kvs => return dict (← walkDict kvs)

def walkList : List ArgTree → Except ε (List ArgTree)
  | [] => return []
  | t :: ts => return (← t.walk) :: (← walkList ts)

def walkDict : List (String × ArgTree) → Except ε (List (String × ArgTree))
  | [] => return []
  | (k, t) :: kvs => return (k, ← t.walk) :: (← walkDict kvs)

end

end Walk

mutual

/-- `unwrap_resolved`. -/
def unwrap : ArgTree → ArgTree
  | value v => value (unwrapResolved v)
  | list xs => list (unwrapList xs)
  | tuple xs => tuple xs
  | dict kvs => dict (unwrapDict kvs)

def unwrapList : List ArgTree → List ArgTree
  | [] => []
  | t :: ts => t.unwrap :: unwrapList ts

def unwrapDict : List (String × ArgTree) → List (String × ArgTree)
  | [] => []
  | (k, t) :: kvs => (k, t.unwrap) :: unwrapDict kvs

end

end ArgTree

/-! ### Two passes over a value -/

namespace Value

variable {ε₁ ε₂ ε₃ : Type} {f : String → Except ε₁ Value} {g : String → Except ε₂ Value} {k : String → Except ε₃ Value}

theorem pure_eq_ok {ε α : Type} {a b : α} : (pure a : Except ε α) = .ok b ↔ a = b := ⟨Except.ok.inj, congrArg Except.ok⟩

theorem mapStrings_list {xs : List Value} {w : Value} :
    (Value.list xs).mapStrings f = .ok w ↔ ∃ ys, mapStringsList f xs = .ok ys ∧ .list ys = w := by
  rw [mapStrings, bind_ok]
  exact exists_congr fun ys => and_congr_right fun _ => pure_eq_ok

theorem mapStrings_dict {kvs : Dict} {w : Value} :
    (Value.dict kvs).mapStrings f = .ok w ↔ ∃ kws, mapStringsDict f kvs = .ok kws ∧ .dict kws = w := by
  rw [mapStrings, bind_ok]
  exact exists_congr fun kws => and_congr_right fun _ => pure_eq_ok

theorem mapStringsList_cons {v : Value} {vs ws : List Value} :
    mapStringsList f (v :: vs) = .ok ws ↔ ∃ y ys, v.mapStrings f = .ok y ∧ mapStringsList f vs = .ok ys ∧ y :: ys = ws := by
  rw [mapStringsList, bind_ok]
  refine exists_congr fun y => ?_
  rw [bind_ok, exists_and_left]
  exact and_congr_right fun _ => exists_congr fun ys => and_congr_right fun _ => pure_eq_ok

theorem mapStringsDict_cons {key : String} {v : Value} {kvs kws : Dict} :
    mapStringsDict f ((key, v) :: kvs) = .ok kws ↔
      ∃ y ys, v.mapStrings f = .ok y ∧ mapStringsDict f kvs = .ok ys ∧ (key, y) :: ys = kws := by
  rw [mapStringsDict, bind_ok]
  refine exists_congr fun y => ?_
  rw [bind_ok, exists_and_left]
  exact and_congr_right fun _ => exists_congr fun ys => and_congr_right fun _ => pure_eq_ok

mutual

/-- A walk that changes no string changes nothing. -/
theorem mapStrings_same : ∀ {v : Value}, (∀ text ∈ v.strings, f text = .ok (.str text)) → v.mapStrings f = .ok v
  | .str text, h => h text (List.mem_singleton.mpr rfl)
  | .list xs, h => mapStrings_list.mpr ⟨xs, mapStringsList_same h, rfl⟩
  | .dict kvs, h => mapStrings_dict.mpr ⟨kvs, mapStringsDict_same h, rfl⟩
  | .null, _ => rfl
  | .bool _, _ => rfl
  | .int _, _ => rfl
  | .float _, _ => rfl
  | .literal _, _ => rfl
  | .object _ _, _ => rfl

theorem mapStringsList_same : ∀ {vs : List Value}, (∀ text ∈ stringsList vs, f text = .ok (.str text)) →
    mapStringsList f vs = .ok vs
  | [], _ => rfl
  | v :: vs, h =>
    mapStringsList_cons.mpr ⟨v, vs, mapStrings_same fun text ht => h text (List.mem_append_left _ ht),
      mapStringsList_same fun text ht => h text (List.mem_append_right _ ht), rfl⟩

theorem mapStringsDict_same : ∀ {kvs : Dict}, (∀ text ∈ stringsDict kvs, f text = .ok (.str text)) →
    mapStringsDict f kvs = .ok kvs
  | [], _ => rfl
  | (_, v) :: kvs, h =>
    mapStringsDict_cons.mpr ⟨v, kvs, mapStrings_same fun text ht => h text (List.mem_append_left _ ht),
      mapStringsDict_same fun text ht => h text (List.mem_append_right _ ht), rfl⟩

end

/-- The passes `f` and `g` succeed on the value, and `out` is left when the wrappers are peeled. -/
def Passes (f : String → Except ε₁ Value) (g : String → Except ε₂ Value) (v out : Value) : Prop :=
  ∃ s r, v.mapStrings f = .ok s ∧ s.mapStrings g = .ok r ∧ unwrapResolved r = out

/-- The pass `k` succeeds on the value, and `out` is left when the wrappers are peeled. -/
def Pass (k : String → Except ε₃ Value) (v out : Value) : Prop := ∃ r, v.mapStrings k = .ok r ∧ unwrapResolved r = out

theorem passes_leaf {v : Value} (hf : v.mapStrings f = .ok v) (hg : v.mapStrings g = .ok v) (hk : v.mapStrings k = .ok v)
    (out : Value) : Passes f g v out ↔ Pass k v out := by
  constructor
  · rintro ⟨s, r, hs, hr, hout⟩
    obtain rfl := Except.ok.inj (hf.symm.trans hs)
    obtain rfl := Except.ok.inj (hg.symm.trans hr)
    exact ⟨_, hk, hout⟩
  · rintro ⟨r, hr, hout⟩
    obtain rfl := Except.ok.inj (hk.symm.trans hr)
    exact ⟨_, _, hf, hg, hout⟩

mutual

/-- **Two passes are one** when they are one on every string. -/
theorem passes_iff (hstring : ∀ text out, Passes f g (.str text) out ↔ Pass k (.str text) out) :
    ∀ v out, Passes f g v out ↔ Pass k v out
  | .str text, out => hstring text out
  | .list xs, out => by
    constructor
    · rintro ⟨s, r, hs, hr, rfl⟩
      obtain ⟨ys, hys, rfl⟩ := mapStrings_list.mp hs
      obtain ⟨zs, hzs, rfl⟩ := mapStrings_list.mp hr
      obtain ⟨ws, hws, hout⟩ := (passesList_iff hstring xs _).mp ⟨ys, zs, hys, hzs, rfl⟩
      refine ⟨.list ws, mapStrings_list.mpr ⟨ws, hws, rfl⟩, ?_⟩
      rw [unwrapResolved, hout, unwrapResolved]
    · rintro ⟨r, hr, rfl⟩
      obtain ⟨ws, hws, rfl⟩ := mapStrings_list.mp hr
      obtain ⟨ys, zs, hys, hzs, hout⟩ := (passesList_iff hstring xs _).mpr ⟨ws, hws, rfl⟩
      refine ⟨.list ys, .list zs, mapStrings_list.mpr ⟨ys, hys, rfl⟩, mapStrings_list.mpr ⟨zs, hzs, rfl⟩, ?_⟩
      rw [unwrapResolved, hout, unwrapResolved]
  | .dict kvs, out => by
    constructor
    · rintro ⟨s, r, hs, hr, rfl⟩
      obtain ⟨ys, hys, rfl⟩ := mapStrings_dict.mp hs
      obtain ⟨zs, hzs, rfl⟩ := mapStrings_dict.mp hr
      obtain ⟨ws, hws, hout⟩ := (passesDict_iff hstring kvs _).mp ⟨ys, zs, hys, hzs, rfl⟩
      refine ⟨.dict ws, mapStrings_dict.mpr ⟨ws, hws, rfl⟩, ?_⟩
      rw [unwrapResolved, hout, unwrapResolved]
    · rintro ⟨r, hr, rfl⟩
      obtain ⟨ws, hws, rfl⟩ := mapStrings_dict.mp hr
      obtain ⟨ys, zs, hys, hzs, hout⟩ := (passesDict_iff hstring kvs _).mpr ⟨ws, hws, rfl⟩
      refine ⟨.dict ys, .dict zs, mapStrings_dict.mpr ⟨ys, hys, rfl⟩, mapStrings_dict.mpr ⟨zs, hzs, rfl⟩, ?_⟩
      rw [unwrapResolved, hout, unwrapResolved]
  | .null, out => passes_leaf rfl rfl rfl out
  | .bool _, out => passes_leaf rfl rfl rfl out
  | .int _, out => passes_leaf rfl rfl rfl out
  | .float _, out => passes_leaf rfl rfl rfl out
  | .literal _, out => passes_leaf rfl rfl rfl out
  | .object _ _, out => passes_leaf rfl rfl rfl out

theorem passesList_iff (hstring : ∀ text out, Passes f g (.str text) out ↔ Pass k (.str text) out) : ∀ vs outs : List Value,
    (∃ ys zs, mapStringsList f vs = .ok ys ∧ mapStringsList g ys = .ok zs ∧ unwrapResolvedList zs = outs) ↔
      ∃ ws, mapStringsList k vs = .ok ws ∧ unwrapResolvedList ws = outs
  | [], outs => by
    constructor
    · rintro ⟨ys, zs, hys, hzs, rfl⟩
      cases hys
      cases hzs
      exact ⟨[], rfl, rfl⟩
    · rintro ⟨ws, hws, rfl⟩
      cases hws
      exact ⟨[], [], rfl, rfl, rfl⟩
  | v :: vs, outs => by
    constructor
    · rintro ⟨ys, zs, hys, hzs, rfl⟩
      obtain ⟨y, ys, hy, hys', rfl⟩ := mapStringsList_cons.mp hys
      obtain ⟨z, zs, hz, hzs', rfl⟩ := mapStringsList_cons.mp hzs
      obtain ⟨w, hw, hout⟩ := (passes_iff hstring v _).mp ⟨y, z, hy, hz, rfl⟩
      obtain ⟨ws, hws, houts⟩ := (passesList_iff hstring vs _).mp ⟨ys, zs, hys', hzs', rfl⟩
      refine ⟨w :: ws, mapStringsList_cons.mpr ⟨w, ws, hw, hws, rfl⟩, ?_⟩
      rw [unwrapResolvedList, hout, houts, unwrapResolvedList]
    · rintro ⟨ws, hws, rfl⟩
      obtain ⟨w, ws, hw, hws', rfl⟩ := mapStringsList_cons.mp hws
      obtain ⟨y, z, hy, hz, hout⟩ := (passes_iff hstring v _).mpr ⟨w, hw, rfl⟩
      obtain ⟨ys, zs, hys, hzs, houts⟩ := (passesList_iff hstring vs _).mpr ⟨ws, hws', rfl⟩
      refine ⟨y :: ys, z :: zs, mapStringsList_cons.mpr ⟨y, ys, hy, hys, rfl⟩, mapStringsList_cons.mpr ⟨z, zs, hz, hzs, rfl⟩, ?_⟩
      rw [unwrapResolvedList, hout, houts, unwrapResolvedList]

theorem passesDict_iff (hstring : ∀ text out, Passes f g (.str text) out ↔ Pass k (.str text) out) : ∀ kvs outs : Dict,
    (∃ ys zs, mapStringsDict f kvs = .ok ys ∧ mapStringsDict g ys = .ok zs ∧ unwrapResolvedDict zs = outs) ↔
      ∃ ws, mapStringsDict k kvs = .ok ws ∧ unwrapResolvedDict ws = outs
  | [], outs => by
    constructor
    · rintro ⟨ys, zs, hys, hzs, rfl⟩
      cases hys
      cases hzs
      exact ⟨[], rfl, rfl⟩
    · rintro ⟨ws, hws, rfl⟩
      cases hws
      exact ⟨[], [], rfl, rfl, rfl⟩
  | (key, v) :: kvs, outs => by
    constructor
    · rintro ⟨ys, zs, hys, hzs, rfl⟩
      obtain ⟨y, ys, hy, hys', rfl⟩ := mapStringsDict_cons.mp hys
      obtain ⟨z, zs, hz, hzs', rfl⟩ := mapStringsDict_cons.mp hzs
      obtain ⟨w, hw, hout⟩ := (passes_iff hstring v _).mp ⟨y, z, hy, hz, rfl⟩
      obtain ⟨ws, hws, houts⟩ := (passesDict_iff hstring kvs _).mp ⟨ys, zs, hys', hzs', rfl⟩
      refine ⟨(key, w) :: ws, mapStringsDict_cons.mpr ⟨w, ws, hw, hws, rfl⟩, ?_⟩
      rw [unwrapResolvedDict, hout, houts, unwrapResolvedDict]
    · rintro ⟨ws, hws, rfl⟩
      obtain ⟨w, ws, hw, hws', rfl⟩ := mapStringsDict_cons.mp hws
      obtain ⟨y, z, hy, hz, hout⟩ := (passes_iff hstring v _).mpr ⟨w, hw, rfl⟩
      obtain ⟨ys, zs, hys, hzs, houts⟩ := (passesDict_iff hstring kvs _).mpr ⟨ws, hws', rfl⟩
      refine ⟨(key, y) :: ys, (key, z) :: zs, mapStringsDict_cons.mpr ⟨y, ys, hy, hys, rfl⟩,
        mapStringsDict_cons.mpr ⟨z, zs, hz, hzs, rfl⟩, ?_⟩
      rw [unwrapResolvedDict, hout, houts, unwrapResolvedDict]

end

end Value

/-! ### Two passes over an argument -/

namespace ArgTree

section Walk

variable {ε : Type} {deep : Bool} {f : String → Except ε Value}

theorem walk_value {v : Value} {r : ArgTree} :
    (value v).walk deep f = .ok r ↔ ∃ w, v.mapStrings f = .ok w ∧ value w = r := by
  rw [walk, Value.bind_ok]
  exact exists_congr fun w => and_congr_right fun _ => Value.pure_eq_ok

theorem walk_list {xs : List ArgTree} {r : ArgTree} :
    (list xs).walk deep f = .ok r ↔ ∃ ys, walkList deep f xs = .ok ys ∧ list ys = r := by
  rw [walk, Value.bind_ok]
  exact exists_congr fun ys => and_congr_right fun _ => Value.pure_eq_ok

theorem walk_dict {kvs : List (String × ArgTree)} {r : ArgTree} :
    (dict kvs).walk deep f = .ok r ↔ ∃ kws, walkDict deep f kvs = .ok kws ∧ dict kws = r := by
  rw [walk, Value.bind_ok]
  exact exists_congr fun kws => and_congr_right fun _ => Value.pure_eq_ok

theorem walk_tuple_deep {xs : List ArgTree} {r : ArgTree} :
    (tuple xs).walk true f = .ok r ↔ ∃ ys, walkList true f xs = .ok ys ∧ tuple ys = r := by
  rw [walk, if_pos rfl, Value.bind_ok]
  exact exists_congr fun ys => and_congr_right fun _ => Value.pure_eq_ok

theorem walkList_cons {t : ArgTree} {ts us : List ArgTree} :
    walkList deep f (t :: ts) = .ok us ↔ ∃ y ys, t.walk deep f = .ok y ∧ walkList deep f ts = .ok ys ∧ y :: ys = us := by
  rw [walkList, Value.bind_ok]
  refine exists_congr fun y => ?_
  rw [Value.bind_ok, exists_and_left]
  exact and_congr_right fun _ => exists_congr fun ys => and_congr_right fun _ => Value.pure_eq_ok

theorem walkDict_cons {key : String} {t : ArgTree} {kvs kws : List (String × ArgTree)} :
    walkDict deep f ((key, t) :: kvs) = .ok kws ↔
      ∃ y ys, t.walk deep f = .ok y ∧ walkDict deep f kvs = .ok ys ∧ (key, y) :: ys = kws := by
  rw [walkDict, Value.bind_ok]
  refine exists_congr fun y => ?_
  rw [Value.bind_ok, exists_and_left]
  exact and_congr_right fun _ => exists_congr fun ys => and_congr_right fun _ => Value.pure_eq_ok

end Walk

section Passes

variable {ε₁ ε₂ ε₃ : Type} {f : String → Except ε₁ Value} {g : String → Except ε₂ Value} {k : String → Except ε₃ Value}

mutual

/-- **Two walks are one** when they are one on every string. -/
theorem walks_iff (hstring : ∀ text out, Value.Passes f g (.str text) out ↔ Value.Pass k (.str text) out) :
    ∀ args out : ArgTree, (∃ s r, args.walk false f = .ok s ∧ s.walk false g = .ok r ∧ r.unwrap = out) ↔
      ∃ r, args.walk false k = .ok r ∧ r.unwrap = out
  | value v, out => by
    constructor
    · rintro ⟨s, r, hs, hr, rfl⟩
      obtain ⟨y, hy, rfl⟩ := walk_value.mp hs
      obtain ⟨z, hz, rfl⟩ := walk_value.mp hr
      obtain ⟨w, hw, hout⟩ := (Value.passes_iff hstring v _).mp ⟨y, z, hy, hz, rfl⟩
      exact ⟨value w, walk_value.mpr ⟨w, hw, rfl⟩, congrArg value hout⟩
    · rintro ⟨r, hr, rfl⟩
      obtain ⟨w, hw, rfl⟩ := walk_value.mp hr
      obtain ⟨y, z, hy, hz, hout⟩ := (Value.passes_iff hstring v _).mpr ⟨w, hw, rfl⟩
      exact ⟨value y, value z, walk_value.mpr ⟨y, hy, rfl⟩, walk_value.mpr ⟨z, hz, rfl⟩, congrArg value hout⟩
  | list xs, out => by
    constructor
    · rintro ⟨s, r, hs, hr, rfl⟩
      obtain ⟨ys, hys, rfl⟩ := walk_list.mp hs
      obtain ⟨zs, hzs, rfl⟩ := walk_list.mp hr
      obtain ⟨ws, hws, hout⟩ := (walksList_iff hstring xs _).mp ⟨ys, zs, hys, hzs, rfl⟩
      refine ⟨list ws, walk_list.mpr ⟨ws, hws, rfl⟩, ?_⟩
      rw [unwrap, hout, unwrap]
    · rintro ⟨r, hr, rfl⟩
      obtain ⟨ws, hws, rfl⟩ := walk_list.mp hr
      obtain ⟨ys, zs, hys, hzs, hout⟩ := (walksList_iff hstring xs _).mpr ⟨ws, hws, rfl⟩
      refine ⟨list ys, list zs, walk_list.mpr ⟨ys, hys, rfl⟩, walk_list.mpr ⟨zs, hzs, rfl⟩, ?_⟩
      rw [unwrap, hout, unwrap]
  | dict kvs, out => by
    constructor
    · rintro ⟨s, r, hs, hr, rfl⟩
      obtain ⟨ys, hys, rfl⟩ := walk_dict.mp hs
      obtain ⟨zs, hzs, rfl⟩ := walk_dict.mp hr
      obtain ⟨ws, hws, hout⟩ := (walksDict_iff hstring kvs _).mp ⟨ys, zs, hys, hzs, rfl⟩
      refine ⟨dict ws, walk_dict.mpr ⟨ws, hws, rfl⟩, ?_⟩
      rw [unwrap, hout, unwrap]
    · rintro ⟨r, hr, rfl⟩
      obtain ⟨ws, hws, rfl⟩ := walk_dict.mp hr
      obtain ⟨ys, zs, hys, hzs, hout⟩ := (walksDict_iff hstring kvs _).mpr ⟨ws, hws, rfl⟩
      refine ⟨dict ys, dict zs, walk_dict.mpr ⟨ys, hys, rfl⟩, walk_dict.mpr ⟨zs, hzs, rfl⟩, ?_⟩
      rw [unwrap, hout, unwrap]
  | tuple xs, out => by
    constructor
    · rintro ⟨s, r, hs, hr, rfl⟩
      cases hs
      cases hr
      exact ⟨_, rfl, rfl⟩
    · rintro ⟨r, hr, rfl⟩
      cases hr
      exact ⟨_, _, rfl, rfl, rfl⟩

theorem walksList_iff (hstring : ∀ text out, Value.Passes f g (.str text) out ↔ Value.Pass k (.str text) out) :
    ∀ ts outs : List ArgTree,
      (∃ ys zs, walkList false f ts = .ok ys ∧ walkList false g ys = .ok zs ∧ unwrapList zs = outs) ↔
        ∃ ws, walkList false k ts = .ok ws ∧ unwrapList ws = outs
  | [], outs => by
    constructor
    · rintro ⟨ys, zs, hys, hzs, rfl⟩
      cases hys
      cases hzs
      exact ⟨[], rfl, rfl⟩
    · rintro ⟨ws, hws, rfl⟩
      cases hws
      exact ⟨[], [], rfl, rfl, rfl⟩
  | t :: ts, outs => by
    constructor
    · rintro ⟨_, _, hys, hzs, rfl⟩
      obtain ⟨y, ys, hy, hys', rfl⟩ := walkList_cons.mp hys
      obtain ⟨z, zs, hz, hzs', rfl⟩ := walkList_cons.mp hzs
      obtain ⟨w, hw, hout⟩ := (walks_iff hstring t _).mp ⟨y, z, hy, hz, rfl⟩
      obtain ⟨ws, hws, houts⟩ := (walksList_iff hstring ts _).mp ⟨ys, zs, hys', hzs', rfl⟩
      refine ⟨w :: ws, walkList_cons.mpr ⟨w, ws, hw, hws, rfl⟩, ?_⟩
      rw [unwrapList, hout, houts, unwrapList]
    · rintro ⟨_, hws, rfl⟩
      obtain ⟨w, ws, hw, hws', rfl⟩ := walkList_cons.mp hws
      obtain ⟨y, z, hy, hz, hout⟩ := (walks_iff hstring t _).mpr ⟨w, hw, rfl⟩
      obtain ⟨ys, zs, hys, hzs, houts⟩ := (walksList_iff hstring ts _).mpr ⟨ws, hws', rfl⟩
      refine ⟨y :: ys, z :: zs, walkList_cons.mpr ⟨y, ys, hy, hys, rfl⟩, walkList_cons.mpr ⟨z, zs, hz, hzs, rfl⟩, ?_⟩
      rw [unwrapList, hout, houts, unwrapList]

theorem walksDict_iff (hstring : ∀ text out, Value.Passes f g (.str text) out ↔ Value.Pass k (.str text) out) :
    ∀ kvs outs : List (String × ArgTree),
      (∃ ys zs, walkDict false f kvs = .ok ys ∧ walkDict false g ys = .ok zs ∧ unwrapDict zs = outs) ↔
        ∃ ws, walkDict false k kvs = .ok ws ∧ unwrapDict ws = outs
  | [], outs => by
    constructor
    · rintro ⟨ys, zs, hys, hzs, rfl⟩
      cases hys
      cases hzs
      exact ⟨[], rfl, rfl⟩
    · rintro ⟨ws, hws, rfl⟩
      cases hws
      exact ⟨[], [], rfl, rfl, rfl⟩
  | (key, t) :: kvs, outs => by
    constructor
    · rintro ⟨_, _, hys, hzs, rfl⟩
      obtain ⟨y, ys, hy, hys', rfl⟩ := walkDict_cons.mp hys
      obtain ⟨z, zs, hz, hzs', rfl⟩ := walkDict_cons.mp hzs
      obtain ⟨w, hw, hout⟩ := (walks_iff hstring t _).mp ⟨y, z, hy, hz, rfl⟩
      obtain ⟨ws, hws, houts⟩ := (walksDict_iff hstring kvs _).mp ⟨ys, zs, hys', hzs', rfl⟩
      refine ⟨(key, w) :: ws, walkDict_cons.mpr ⟨w, ws, hw, hws, rfl⟩, ?_⟩
      rw [unwrapDict, hout, houts, unwrapDict]
    · rintro ⟨_, hws, rfl⟩
      obtain ⟨w, ws, hw, hws', rfl⟩ := walkDict_cons.mp hws
      obtain ⟨y, z, hy, hz, hout⟩ := (walks_iff hstring t _).mpr ⟨w, hw, rfl⟩
      obtain ⟨ys, zs, hys, hzs, houts⟩ := (walksDict_iff hstring kvs _).mpr ⟨ws, hws', rfl⟩
      refine ⟨(key, y) :: ys, (key, z) :: zs, walkDict_cons.mpr ⟨y, ys, hy, hys, rfl⟩,
        walkDict_cons.mpr ⟨z, zs, hz, hzs, rfl⟩, ?_⟩
      rw [unwrapDict, hout, houts, unwrapDict]

end

end Passes

/-! ### Strings inside tuples -/

section Deep

variable {ε : Type} {f : String → Except ε Value}

mutual

/-- A walk that changes no tuple is the walk that does not look into them. -/
theorem walk_deep : ∀ {args : ArgTree}, (∀ t ∈ args.tuples, t.walk true f = .ok t) → args.walk true f = args.walk false f
  | value _, _ => rfl
  | list xs, h => by
    rw [walk, walk, walkList_deep h]
  | tuple xs, h => by
    rw [h _ (List.mem_singleton.mpr rfl), walk, if_neg Bool.false_ne_true]
    rfl
  | dict kvs, h => by
    rw [walk, walk, walkDict_deep h]

theorem walkList_deep : ∀ {ts : List ArgTree}, (∀ t ∈ tuplesList ts, t.walk true f = .ok t) →
    walkList true f ts = walkList false f ts
  | [], _ => rfl
  | t :: ts, h => by
    rw [walkList, walkList, walk_deep fun u hu => h u (List.mem_append_left _ hu),
      walkList_deep fun u hu => h u (List.mem_append_right _ hu)]

theorem walkDict_deep : ∀ {kvs : List (String × ArgTree)}, (∀ t ∈ tuplesDict kvs, t.walk true f = .ok t) →
    walkDict true f kvs = walkDict false f kvs
  | [], _ => rfl
  | (key, t) :: kvs, h => by
    rw [walkDict, walkDict, walk_deep fun u hu => h u (List.mem_append_left _ hu),
      walkDict_deep fun u hu => h u (List.mem_append_right _ hu)]

end

mutual

/-- When both walks leave the same, each tuple is left as it was. -/
theorem tuples_fixed : ∀ {args r r₀ : ArgTree}, args.walk true f = .ok r → args.walk false f = .ok r₀ → r.unwrap = r₀.unwrap →
    ∀ t ∈ args.tuples, t.walk true f = .ok t
  | value _, _, _, _, _, _, _, ht => by cases ht
  | list xs, _, _, hr, hr₀, heq, t, ht => by
    obtain ⟨ys, hys, rfl⟩ := walk_list.mp hr
    obtain ⟨ys₀, hys₀, rfl⟩ := walk_list.mp hr₀
    rw [unwrap, unwrap, list.injEq] at heq
    exact tuplesList_fixed hys hys₀ heq t ht
  | tuple xs, _, _, hr, hr₀, heq, t, ht => by
    obtain ⟨ys, hys, rfl⟩ := walk_tuple_deep.mp hr
    cases hr₀
    rw [unwrap, unwrap, tuple.injEq] at heq
    rw [List.mem_singleton.mp ht]
    exact walk_tuple_deep.mpr ⟨ys, hys, congrArg tuple heq⟩
  | dict kvs, _, _, hr, hr₀, heq, t, ht => by
    obtain ⟨ys, hys, rfl⟩ := walk_dict.mp hr
    obtain ⟨ys₀, hys₀, rfl⟩ := walk_dict.mp hr₀
    rw [unwrap, unwrap, dict.injEq] at heq
    exact tuplesDict_fixed hys hys₀ heq t ht

theorem tuplesList_fixed : ∀ {ts us us₀ : List ArgTree}, walkList true f ts = .ok us → walkList false f ts = .ok us₀ →
    unwrapList us = unwrapList us₀ → ∀ t ∈ tuplesList ts, t.walk true f = .ok t
  | [], _, _, _, _, _, _, ht => by cases ht
  | t :: ts, _, _, hus, hus₀, heq, u, hu => by
    obtain ⟨y, ys, hy, hys, rfl⟩ := walkList_cons.mp hus
    obtain ⟨y₀, ys₀, hy₀, hys₀, rfl⟩ := walkList_cons.mp hus₀
    rw [unwrapList, unwrapList, List.cons.injEq] at heq
    rcases List.mem_append.mp hu with hu | hu
    · exact tuples_fixed hy hy₀ heq.1 u hu
    · exact tuplesList_fixed hys hys₀ heq.2 u hu

theorem tuplesDict_fixed : ∀ {kvs us us₀ : List (String × ArgTree)}, walkDict true f kvs = .ok us →
    walkDict false f kvs = .ok us₀ → unwrapDict us = unwrapDict us₀ → ∀ t ∈ tuplesDict kvs, t.walk true f = .ok t
  | [], _, _, _, _, _, _, ht => by cases ht
  | (key, t) :: kvs, _, _, hus, hus₀, heq, u, hu => by
    obtain ⟨y, ys, hy, hys, rfl⟩ := walkDict_cons.mp hus
    obtain ⟨y₀, ys₀, hy₀, hys₀, rfl⟩ := walkDict_cons.mp hus₀
    rw [unwrapDict, unwrapDict, List.cons.injEq, Prod.mk.injEq] at heq
    rcases List.mem_append.mp hu with hu | hu
    · exact tuples_fixed hy hy₀ heq.1.2 u hu
    · exact tuplesDict_fixed hys hys₀ heq.2 u hu

end

mutual

/-- A walk that changes no string changes nothing. -/
theorem walk_same : ∀ {args : ArgTree}, (∀ text ∈ args.strings, f text = .ok (.str text)) → args.walk true f = .ok args
  | value v, h => walk_value.mpr ⟨v, Value.mapStrings_same h, rfl⟩
  | list xs, h => walk_list.mpr ⟨xs, walkList_same h, rfl⟩
  | tuple xs, h => walk_tuple_deep.mpr ⟨xs, walkList_same h, rfl⟩
  | dict kvs, h => walk_dict.mpr ⟨kvs, walkDict_same h, rfl⟩

theorem walkList_same : ∀ {ts : List ArgTree}, (∀ text ∈ stringsList ts, f text = .ok (.str text)) →
    walkList true f ts = .ok ts
  | [], _ => rfl
  | t :: ts, h =>
    walkList_cons.mpr ⟨t, ts, walk_same fun text ht => h text (List.mem_append_left _ ht),
      walkList_same fun text ht => h text (List.mem_append_right _ ht), rfl⟩

theorem walkDict_same : ∀ {kvs : List (String × ArgTree)}, (∀ text ∈ stringsDict kvs, f text = .ok (.str text)) →
    walkDict true f kvs = .ok kvs
  | [], _ => rfl
  | (_, t) :: kvs, h =>
    walkDict_cons.mpr ⟨t, kvs, walk_same fun text ht => h text (List.mem_append_left _ ht),
      walkDict_same fun text ht => h text (List.mem_append_right _ ht), rfl⟩

end

end Deep

end ArgTree

end Sreda.Planner
