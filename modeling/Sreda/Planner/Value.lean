import Mathlib.Data.List.Sort
import Mathlib.Data.Rat.Defs

/-!
# Python values

The values that the planner passes around: the arguments of a plan (a JSON document) and
the dumped outputs of the tools. Values of other Python types (dates, tuples, models) occur
inside outputs only; they are `Value.object`, and what Python does with them is part of
`Py`, as are its character classes and the text of a string or a float inside `repr`.
-/

namespace Sreda.Planner

/-- A Python value. -/
inductive Value where
  | null
  | bool (b : Bool)
  | int (n : Int)
  /-- A finite float, by its value. -/
  | float (q : Rat)
  | str (s : String)
  | list (xs : List Value)
  /-- A dict with string keys, in insertion order. -/
  | dict (kvs : List (String × Value))
  /-- The wrapper `_ResolvedLiteral` of the selector pass. -/
  | literal (v : Value)
  /-- A value of any other type. -/
  | object (type : String) (id : Nat)

/-- A dict with string keys, in insertion order. -/
abbrev Dict := List (String × Value)

/-- What the code relies on of Python itself. -/
structure Py where
  /-- The class `\w` of the regular expressions. -/
  isWord : Char → Bool
  isWord_ascii : ∀ c : Char, c.toNat < 128 → isWord c = (c.isAlphanum || c == '_')
  /-- `repr` of a string. -/
  reprStr : String → String
  reprFloat : Rat → String
  reprObject : String → Nat → String
  /-- `str` of a value of another type. -/
  strObject : String → Nat → String
  /-- `hasattr` and `getattr` on a value that is no dict. -/
  getattr : Value → String → Option Value
  /-- `==` between a value of another type and any value. -/
  eqObject : String → Nat → Value → Bool

/-- Python on ASCII texts without quotes, where no other values occur. -/
def Py.ascii : Py where
  isWord c := c.isAlphanum || c == '_'
  isWord_ascii _ _ := rfl
  reprStr s := "'" ++ s ++ "'"
  reprFloat q := toString q
  reprObject type _ := "<" ++ type ++ ">"
  strObject type _ := "<" ++ type ++ ">"
  getattr _ _ := none
  eqObject _ _ _ := false

namespace Value

/-- `type(v).__name__`. -/
def typeName : Value → String
  | null => "NoneType"
  | bool _ => "bool"
  | int _ => "int"
  | float _ => "float"
  | str _ => "str"
  | list _ => "list"
  | dict _ => "dict"
  | literal _ => "_ResolvedLiteral"
  | object type _ => type

/-- The number that a bool, an int or a float compares as. -/
def number? : Value → Option Rat
  | bool b => some (if b then 1 else 0)
  | int n => some n
  | float q => some q
  | _ => none

variable (py : Py)

mutual

/-- `repr(v)`. -/
def repr : Value → String
  | null => "None"
  | bool b => if b then "True" else "False"
  | int n => toString n
  | float q => py.reprFloat q
  | str s => py.reprStr s
  | list xs => "[" ++ ", ".intercalate (reprList xs) ++ "]"
  | dict kvs => "\x7b" ++ ", ".intercalate (reprDict kvs) ++ "\x7d"
  | literal v => "_ResolvedLiteral(value=" ++ v.repr ++ ")"
  | object type id => py.reprObject type id

def reprList : List Value → List String
  | [] => []
  | v :: vs => v.repr :: reprList vs

def reprDict : List (String × Value) → List String
  | [] => []
  | (k, v) :: kvs => (py.reprStr k ++ ": " ++ v.repr) :: reprDict kvs

end

/-- `str(v)`. -/
def toStr : Value → String
  | str s => s
  | object type id => py.strObject type id
  | v => v.repr py

mutual

/-- `v == w`: numbers of different types compare by value, dicts without regard to order. -/
def eq : Value → Value → Bool
  | object type id, w => py.eqObject type id w
  | v, object type id => py.eqObject type id v
  | null, null => true
  | str s, str t => s == t
  | list vs, list ws => eqList vs ws
  | dict kvs, dict kws => kvs.length == kws.length && eqDict kvs kws
  | literal v, literal w => v.eq w
  | v, w =>
    match v.number?, w.number? with
    | some p, some q => p == q
    | _, _ => false

def eqList : List Value → List Value → Bool
  | [], [] => true
  | v :: vs, w :: ws => v.eq w && eqList vs ws
  | _, _ => false

def eqDict : List (String × Value) → Dict → Bool
  | [], _ => true
  | (k, v) :: kvs, kws =>
    (match kws.lookup k with
      | some w => v.eq w
      | none => false) && eqDict kvs kws

end

/-! ### Walking over the strings of a value -/

mutual

/-- The strings of `v`, in order: the walk through dict values and list elements that
`iter_refs`, `resolve_refs` and `resolve_selector_refs` share. -/
def strings : Value → List String
  | str s => [s]
  | list xs => stringsList xs
  | dict kvs => stringsDict kvs
  | _ => []

def stringsList : List Value → List String
  | [] => []
  | v :: vs => v.strings ++ stringsList vs

def stringsDict : List (String × Value) → List String
  | [] => []
  | (_, v) :: kvs => v.strings ++ stringsDict kvs

end

variable {ε : Type} (f : String → Except ε Value)

mutual

/-- Replace every string of `v` by what `f` makes of it; the first failure is the result. -/
def mapStrings : Value → Except ε Value
  | str s => f s
  | list xs => return list (← mapStringsList xs)
  | dict kvs => return dict (← mapStringsDict kvs)
  | v => return v

def mapStringsList : List Value → Except ε (List Value)
  | [] => return []
  | v :: vs => return (← v.mapStrings) :: (← mapStringsList vs)

def mapStringsDict : List (String × Value) → Except ε (List (String × Value))
  | [] => return []
  | (k, v) :: kvs => return (k, ← v.mapStrings) :: (← mapStringsDict kvs)

end

variable {f}

theorem bind_ok {α β : Type} {x : Except ε α} {g : α → Except ε β} {b : β} :
    (x >>= g) = .ok b ↔ ∃ a, x = .ok a ∧ g a = .ok b := by
  cases x with
  | error e => simp [bind, Except.bind]
  | ok a => simp [bind, Except.bind]

mutual

/-- When the walk succeeds, `f` succeeded on every string, and what it put there is part of
the result. -/
theorem mapStrings_ok : ∀ {v w : Value}, v.mapStrings f = .ok w →
    ∀ s ∈ v.strings, ∃ x, f s = .ok x ∧ ∀ t ∈ x.strings, t ∈ w.strings
  | str s, w, h, t, ht => by
    obtain rfl : t = s := by simpa [strings] using ht
    exact ⟨w, h, fun _ h => h⟩
  | list xs, w, h, s, hs => by
    obtain ⟨ys, hys, hw⟩ := bind_ok.1 h
    obtain rfl : list ys = w := by simpa [pure, Except.pure] using hw
    exact mapStringsList_ok hys s hs
  | dict kvs, w, h, s, hs => by
    obtain ⟨ys, hys, hw⟩ := bind_ok.1 h
    obtain rfl : dict ys = w := by simpa [pure, Except.pure] using hw
    exact mapStringsDict_ok hys s hs
  | null, _, _, _, hs => by simp [strings] at hs
  | bool _, _, _, _, hs => by simp [strings] at hs
  | int _, _, _, _, hs => by simp [strings] at hs
  | float _, _, _, _, hs => by simp [strings] at hs
  | literal _, _, _, _, hs => by simp [strings] at hs
  | object _ _, _, _, _, hs => by simp [strings] at hs

theorem mapStringsList_ok : ∀ {vs ws : List Value}, mapStringsList f vs = .ok ws →
    ∀ s ∈ stringsList vs, ∃ x, f s = .ok x ∧ ∀ t ∈ x.strings, t ∈ stringsList ws
  | [], _, _, _, hs => by simp [stringsList] at hs
  | v :: vs, ws, h, s, hs => by
    obtain ⟨w, hw, h⟩ := bind_ok.1 h
    obtain ⟨us, hus, h⟩ := bind_ok.1 h
    obtain rfl : w :: us = ws := by simpa [pure, Except.pure] using h
    rcases List.mem_append.1 hs with hs | hs
    · obtain ⟨x, hx, hsub⟩ := mapStrings_ok hw s hs
      exact ⟨x, hx, fun t ht => List.mem_append_left _ (hsub t ht)⟩
    · obtain ⟨x, hx, hsub⟩ := mapStringsList_ok hus s hs
      exact ⟨x, hx, fun t ht => List.mem_append_right _ (hsub t ht)⟩

theorem mapStringsDict_ok : ∀ {kvs kws : List (String × Value)}, mapStringsDict f kvs = .ok kws →
    ∀ s ∈ stringsDict kvs, ∃ x, f s = .ok x ∧ ∀ t ∈ x.strings, t ∈ stringsDict kws
  | [], _, _, _, hs => by simp [stringsDict] at hs
  | (k, v) :: kvs, kws, h, s, hs => by
    obtain ⟨w, hw, h⟩ := bind_ok.1 h
    obtain ⟨us, hus, h⟩ := bind_ok.1 h
    obtain rfl : (k, w) :: us = kws := by simpa [pure, Except.pure] using h
    rcases List.mem_append.1 hs with hs | hs
    · obtain ⟨x, hx, hsub⟩ := mapStrings_ok hw s hs
      exact ⟨x, hx, fun t ht => List.mem_append_left _ (hsub t ht)⟩
    · obtain ⟨x, hx, hsub⟩ := mapStringsDict_ok hus s hs
      exact ⟨x, hx, fun t ht => List.mem_append_right _ (hsub t ht)⟩

end

mutual

/-- When `f` succeeds on every string, the walk succeeds. -/
theorem mapStrings_total : ∀ {v : Value}, (∀ s ∈ v.strings, ∃ x, f s = .ok x) → ∃ w, v.mapStrings f = .ok w
  | str s, h => h s (by simp [strings])
  | list xs, h => by
    obtain ⟨ys, hys⟩ := mapStringsList_total xs h
    exact ⟨list ys, bind_ok.2 ⟨ys, hys, rfl⟩⟩
  | dict kvs, h => by
    obtain ⟨kws, hkws⟩ := mapStringsDict_total kvs h
    exact ⟨dict kws, bind_ok.2 ⟨kws, hkws, rfl⟩⟩
  | null, _ => ⟨_, rfl⟩
  | bool _, _ => ⟨_, rfl⟩
  | int _, _ => ⟨_, rfl⟩
  | float _, _ => ⟨_, rfl⟩
  | literal _, _ => ⟨_, rfl⟩
  | object _ _, _ => ⟨_, rfl⟩

theorem mapStringsList_total : ∀ (vs : List Value), (∀ s ∈ stringsList vs, ∃ x, f s = .ok x) →
    ∃ ws, mapStringsList f vs = .ok ws
  | [], _ => ⟨[], rfl⟩
  | v :: vs, h => by
    obtain ⟨w, hw⟩ := mapStrings_total (v := v) fun s hs => h s (List.mem_append_left _ hs)
    obtain ⟨ws, hws⟩ := mapStringsList_total vs fun s hs => h s (List.mem_append_right _ hs)
    exact ⟨w :: ws, bind_ok.2 ⟨w, hw, bind_ok.2 ⟨ws, hws, rfl⟩⟩⟩

theorem mapStringsDict_total : ∀ (kvs : List (String × Value)), (∀ s ∈ stringsDict kvs, ∃ x, f s = .ok x) →
    ∃ kws, mapStringsDict f kvs = .ok kws
  | [], _ => ⟨[], rfl⟩
  | (k, v) :: kvs, h => by
    obtain ⟨w, hw⟩ := mapStrings_total (v := v) fun s hs => h s (List.mem_append_left _ hs)
    obtain ⟨kws, hkws⟩ := mapStringsDict_total kvs fun s hs => h s (List.mem_append_right _ hs)
    exact ⟨(k, w) :: kws, bind_ok.2 ⟨w, hw, bind_ok.2 ⟨kws, hkws, rfl⟩⟩⟩

end

mutual

/-- A string of the result comes from a string of the value. -/
theorem mem_of_mapStrings : ∀ {v w : Value}, v.mapStrings f = .ok w →
    ∀ t ∈ w.strings, ∃ s ∈ v.strings, ∃ x, f s = .ok x ∧ t ∈ x.strings
  | str s, w, h, t, ht => ⟨s, by simp [strings], w, h, ht⟩
  | list xs, w, h, t, ht => by
    obtain ⟨ys, hys, hw⟩ := bind_ok.1 h
    obtain rfl : list ys = w := by simpa [pure, Except.pure] using hw
    exact mem_of_mapStringsList hys t ht
  | dict kvs, w, h, t, ht => by
    obtain ⟨kws, hkws, hw⟩ := bind_ok.1 h
    obtain rfl : dict kws = w := by simpa [pure, Except.pure] using hw
    exact mem_of_mapStringsDict hkws t ht
  | null, _, h, t, ht => by cases h; simp [strings] at ht
  | bool _, _, h, t, ht => by cases h; simp [strings] at ht
  | int _, _, h, t, ht => by cases h; simp [strings] at ht
  | float _, _, h, t, ht => by cases h; simp [strings] at ht
  | literal _, _, h, t, ht => by cases h; simp [strings] at ht
  | object _ _, _, h, t, ht => by cases h; simp [strings] at ht

theorem mem_of_mapStringsList : ∀ {vs ws : List Value}, mapStringsList f vs = .ok ws →
    ∀ t ∈ stringsList ws, ∃ s ∈ stringsList vs, ∃ x, f s = .ok x ∧ t ∈ x.strings
  | [], _, h, t, ht => by cases h; simp [stringsList] at ht
  | v :: vs, ws, h, t, ht => by
    obtain ⟨w, hw, h⟩ := bind_ok.1 h
    obtain ⟨us, hus, h⟩ := bind_ok.1 h
    obtain rfl : w :: us = ws := by simpa [pure, Except.pure] using h
    rcases List.mem_append.1 ht with ht | ht
    · obtain ⟨s, hs, hx⟩ := mem_of_mapStrings hw t ht
      exact ⟨s, List.mem_append_left _ hs, hx⟩
    · obtain ⟨s, hs, hx⟩ := mem_of_mapStringsList hus t ht
      exact ⟨s, List.mem_append_right _ hs, hx⟩

theorem mem_of_mapStringsDict : ∀ {kvs kws : List (String × Value)}, mapStringsDict f kvs = .ok kws →
    ∀ t ∈ stringsDict kws, ∃ s ∈ stringsDict kvs, ∃ x, f s = .ok x ∧ t ∈ x.strings
  | [], _, h, t, ht => by cases h; simp [stringsDict] at ht
  | (k, v) :: kvs, kws, h, t, ht => by
    obtain ⟨w, hw, h⟩ := bind_ok.1 h
    obtain ⟨us, hus, h⟩ := bind_ok.1 h
    obtain rfl : (k, w) :: us = kws := by simpa [pure, Except.pure] using h
    rcases List.mem_append.1 ht with ht | ht
    · obtain ⟨s, hs, hx⟩ := mem_of_mapStrings hw t ht
      exact ⟨s, List.mem_append_left _ hs, hx⟩
    · obtain ⟨s, hs, hx⟩ := mem_of_mapStringsDict hus t ht
      exact ⟨s, List.mem_append_right _ hs, hx⟩

end

end Value

/-- `sorted` on strings. -/
def sorted (ss : List String) : List String := ss.insertionSort (· ≤ ·)

theorem sorted_perm (ss : List String) : (sorted ss).Perm ss := List.perm_insertionSort _ ss

end Sreda.Planner
