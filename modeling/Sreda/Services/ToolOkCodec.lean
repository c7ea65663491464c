import Mathlib.Data.Int.Basic
import Mathlib.Data.List.Nodup
import Mathlib.Data.List.TakeWhile
import Sreda.Lib.JsonText

/-!
# The codec of tool outcomes

`encode_tool_ok` and `parse_tool_ok`, with `json.dumps` and `json.loads` as they are called
there. A payload is an arbitrary Python value: keys of a dict may be of any type, and there are tuples and values
that JSON does not know. Floats are a parameter, with `float.__repr__` and `float` of a literal: what is printed is
a literal with a fraction or an exponent and is read back, and a literal out of range reads as infinite.

`json.dumps` turns keys that are no strings into strings and tuples into lists, so the payload
comes back only if it has neither (`PyValue.JsonShaped`). `json.loads` reads a literal such as
`1e999` as infinite, which `parse_constant` does not see and `encode_tool_ok` refuses.
-/

namespace Sreda.Services

open Sreda.Lib.Json

inductive PyFloat (F : Type) where
  | finite (f : F)
  | inf (negative : Bool)
  | nan
  deriving DecidableEq

/-- The texts of floats. -/
structure FloatText (F : Type) where
  repr : F → Text
  /-- `float(literal)`. -/
  ofText : Text → PyFloat F
  scanNumber_repr : ∀ f, scanNumber (repr f) = some (repr f, true, [])
  ofText_repr : ∀ f, ofText (repr f) = .finite f

/-- A Python value. -/
inductive PyValue (F : Type) where
  | none
  | bool (b : Bool)
  | int (n : ℤ)
  | float (x : PyFloat F)
  | str (s : Text)
  | list (items : List (PyValue F))
  | tuple (items : List (PyValue F))
  /-- A dict with its pairs in order; keys may be of any type. -/
  | dict (pairs : List (PyValue F × PyValue F))
  /-- A value of another type. -/
  | object (id : ℕ)

/-! ## `json.dumps` -/

/-- `int.__repr__`. -/
def intText (n : ℤ) : Text :=
  if n < 0 then .char '-' :: (Nat.toDigits 10 n.natAbs).map .char else (Nat.toDigits 10 n.natAbs).map .char

section Codec

variable {F : Type} (floats : FloatText F)

/-- `float.__repr__` with `allow_nan=False`. -/
def floatText : PyFloat F → Option Text
  | .finite f => some (floats.repr f)
  | _ => none

/-- The text of a key, when it does not raise. -/
def keyText : PyValue F → Option Text
  | .str s => some s
  | .int n => some (intText n)
  | .float x => floatText floats x
  | .bool b => some (if b then text "true" else text "false")
  | .none => some (text "null")
  | _ => none

mutual

/-- What `json.dumps` prints, when it does not raise. -/
def dumps : PyValue F → Option Tree
  | .none => some .null
  | .bool b => some (.bool b)
  | .int n => some (.number (intText n) false)
  | .float x => (floatText floats x).map fun literal => .number literal true
  | .str s => some (.string s)
  | .list items => (dumpsItems items).map .array
  | .tuple items => (dumpsItems items).map .array
  | .dict pairs => (dumpsPairs pairs).map .object
  | .object _ => none

def dumpsItems : List (PyValue F) → Option (List Tree)
  | [] => some []
  | item :: items => do return (← dumps item) :: (← dumpsItems items)

def dumpsPairs : List (PyValue F × PyValue F) → Option (List (Text × Tree))
  | [] => some []
  | (key, value) :: pairs => do return (← keyText floats key, ← dumps value) :: (← dumpsPairs pairs)

end

/-! ## `json.loads` -/

/-- `int(literal)`. -/
def intOfText : Text → ℤ
  | .char '-' :: digits => - (digits.foldl (fun n c => 10 * n + (hexValue c).getD 0) 0 : ℕ)
  | digits => (digits.foldl (fun n c => 10 * n + (hexValue c).getD 0) 0 : ℕ)

/-- `dict(pairs)`: a key stands where it came first, with its last value. -/
def dictOf {V : Type} : List (Text × V) → List (Text × V)
  | [] => []
  | (key, value) :: pairs =>
    match (dictOf pairs).lookup key with
    | some last => (key, last) :: (dictOf pairs).filter fun p => p.1 ≠ key
    | none => (key, value) :: dictOf pairs

mutual

/-- The value of a tree. -/
def build : Tree → PyValue F
  | .null => .none
  | .bool b => .bool b
  | .number literal isFloat => if isFloat then .float (floats.ofText literal) else .int (intOfText literal)
  | .string s => .str s
  | .array items => .list (buildItems items)
  | .object pairs => .dict ((dictOf (buildPairs pairs)).map fun p => (.str p.1, p.2))

def buildItems : List Tree → List (PyValue F)
  | [] => []
  | item :: items => build item :: buildItems items

def buildPairs : List (Text × Tree) → List (Text × PyValue F)
  | [] => []
  | (key, value) :: pairs => (key, build value) :: buildPairs pairs

end

/-- `json.loads(body, parse_constant=_reject_json_constant)`, when it does not raise. -/
def loads (body : Text) : Option (PyValue F) := (scan body).map (build floats)

/-! ## The envelope -/

/-- `ToolOkParseError`, by what it says. -/
inductive ToolOkParseError where
  /-- "encode_tool_ok: status must be a non-empty str" -/
  | statusNotText
  /-- "encode_tool_ok: status must not contain ':'" -/
  | statusColon
  /-- "encode_tool_ok: payload must be a dict" -/
  | payloadNotDict
  /-- "encode_tool_ok: payload must not carry a reserved 'status' key" -/
  | payloadStatus
  /-- "encode_tool_ok: payload is not strict-JSON-serialisable" -/
  | notSerialisable
  /-- "parse_tool_ok: not an okv2 envelope (missing prefix)" -/
  | missingPrefix
  /-- "parse_tool_ok: expected 3 segments" -/
  | segments (got : ℕ)
  /-- "parse_tool_ok: empty status segment" -/
  | emptyStatus
  /-- "parse_tool_ok: empty payload segment" -/
  | emptyPayload
  /-- "parse_tool_ok: status not in accepted" -/
  | statusNotAccepted
  /-- "parse_tool_ok: payload is not valid JSON" -/
  | notJson
  /-- "parse_tool_ok: payload must be a JSON object" -/
  | notObject
  /-- "parse_tool_ok: payload must not carry a reserved 'status' key" -/
  | reservedStatus
  deriving DecidableEq

/-- `OKV2_PREFIX`. -/
def okv2Prefix : Text := text "okv2:"

/-- `"status" in payload`. -/
def hasStatusKey (pairs : List (PyValue F × PyValue F)) : Bool :=
  pairs.any fun p =>
    match p.1 with
    | .str key => key == text "status"
    | _ => false

/-- `encode_tool_ok`. -/
def encodeToolOk (status payload : PyValue F) : Except ToolOkParseError Text :=
  match status with
  | .str status =>
    if status = [] then .error .statusNotText
    else if .char ':' ∈ status then .error .statusColon
    else
      match payload with
      | .dict pairs =>
        if hasStatusKey pairs then .error .payloadStatus
        else
          match dumps floats (.dict pairs) with
          | some body => .ok (okv2Prefix ++ status ++ .char ':' :: print body)
          | none => .error .notSerialisable
      | _ => .error .payloadNotDict
  | _ => .error .statusNotText

/-- `raw.split(":", maxsplit)`. -/
def splitMax : ℕ → Text → List Text
  | 0, t => [t]
  | n + 1, t =>
    if .char ':' ∈ t then t.takeWhile (· ≠ .char ':') :: splitMax n (t.dropWhile (· ≠ .char ':')).tail else [t]

/-- `is_okv2`. -/
def isOkv2 (raw : Text) : Bool := okv2Prefix.isPrefixOf raw

/-- `parse_tool_ok`. -/
def parseToolOk (raw : Text) (accepted : List Text) : Except ToolOkParseError (Text × PyValue F) :=
  if !isOkv2 raw then .error .missingPrefix
  else
    match splitMax 2 raw with
    | [_, status, body] =>
      if status = [] then .error .emptyStatus
      else if body = [] then .error .emptyPayload
      else if status ∉ accepted then .error .statusNotAccepted
      else
        match loads floats body with
        | none => .error .notJson
        | some (.dict pairs) => if hasStatusKey pairs then .error .reservedStatus else .ok (status, .dict pairs)
        | some _ => .error .notObject
    | parts => .error (.segments parts.length)

end Codec

variable {raw status : Text} {accepted : List Text}

section Codec

variable {F : Type} {floats : FloatText F}

/-! ## Numbers -/

theorem head_toDigits {n : ℕ} (hn : 0 < n) : ∃ c s, Nat.toDigits 10 n = c :: s ∧ c ≠ '0' := by
  induction n using Nat.strongRecOn with
  | ind n ih =>
    by_cases hlt : n < 10
    · have hne : ∀ k, k < 10 → 0 < k → Nat.digitChar k ≠ '0' := by decide
      exact ⟨Nat.digitChar n, [], Nat.toDigits_of_lt_base hlt, hne n hlt hn⟩
    · obtain ⟨c, s, heq, hc⟩ := ih (n / 10) (by omega) (by omega)
      exact ⟨c, s ++ [Nat.digitChar (n % 10)], by rw [Nat.toDigits_of_base_le (by decide) (by omega), heq]; rfl, hc⟩

theorem isDigit_of_mem_toDigits {n : ℕ} {c : Code} (h : c ∈ (Nat.toDigits 10 n).map Code.char) : isDigit c = true := by
  obtain ⟨d, hd, rfl⟩ := List.mem_map.1 h
  exact Nat.isDigit_of_mem_toDigits (by decide) (by decide) hd

theorem scanNatural_toDigits (n : ℕ) :
    scanNatural ((Nat.toDigits 10 n).map Code.char) = some ((Nat.toDigits 10 n).map Code.char, []) := by
  rcases Nat.eq_zero_or_pos n with rfl | hn
  · rfl
  · obtain ⟨c, s, heq, hc⟩ := head_toDigits hn
    have hdigits : ∀ d ∈ (Nat.toDigits 10 n).map Code.char, isDigit d = true := fun d hd => isDigit_of_mem_toDigits hd
    rw [heq, List.map_cons] at hdigits ⊢
    have hrest : ∀ d ∈ s.map Code.char, isDigit d = true := fun d hd => hdigits d (List.mem_cons_of_mem _ hd)
    have htake : (s.map Code.char).takeWhile isDigit = s.map Code.char := List.takeWhile_eq_self_iff.2 hrest
    have hdrop : (s.map Code.char).dropWhile isDigit = [] := List.dropWhile_eq_nil_iff.2 hrest
    have hzero : Code.char c ≠ .char '0' := by simpa using hc
    simp only [scanNatural, hzero, if_false, scanDigits, hdigits _ List.mem_cons_self, if_true, htake, hdrop]

theorem scanNumber_of_scanWhole {t : Text} (h : scanWhole t = some (t, [])) : scanNumber t = some (t, false, []) := by
  simp [scanNumber, h, scanFraction, scanExponent]

theorem scanNumber_intText (n : ℤ) : scanNumber (intText n) = some (intText n, false, []) := by
  have hdigits := scanNatural_toDigits n.natAbs
  apply scanNumber_of_scanWhole
  unfold intText
  split
  · simp [scanWhole, hdigits]
  · obtain ⟨c, s, heq⟩ := List.exists_cons_of_ne_nil (Nat.toDigits_ne_nil (b := 10) (n := n.natAbs))
    have hc : c ≠ '-' := by
      rintro rfl
      have hmem : '-' ∈ Nat.toDigits 10 n.natAbs := by rw [heq]; exact List.mem_cons_self
      exact absurd (Nat.isDigit_of_mem_toDigits (by decide) (by decide) hmem) (by decide)
    rw [heq, List.map_cons] at hdigits ⊢
    simpa [scanWhole, hc] using hdigits

theorem foldl_toDigits (s : List Char) (k : ℕ) (h : ∀ c ∈ s, c.isDigit = true) :
    (s.map Code.char).foldl (fun n c => 10 * n + (hexValue c).getD 0) k = Nat.ofDigitChars 10 s k := by
  induction s generalizing k with
  | nil => rfl
  | cons c s ih =>
    rw [List.map_cons, List.foldl_cons, ih _ fun d hd => h d (List.mem_cons_of_mem _ hd), Nat.ofDigitChars_cons]
    simp [hexValue, h c List.mem_cons_self]

theorem intOfText_intText (n : ℤ) : intOfText (intText n) = n := by
  have hfold := foldl_toDigits (Nat.toDigits 10 n.natAbs) 0 fun c hc =>
    Nat.isDigit_of_mem_toDigits (by decide) (by decide) hc
  rw [Nat.ofDigitChars_ten_toDigits] at hfold
  unfold intText
  split
  · simp only [intOfText, hfold]
    omega
  · have hhead : ∀ t, (Nat.toDigits 10 n.natAbs).map Code.char ≠ .char '-' :: t := by
      intro t heq
      have hmem : Code.char '-' ∈ (Nat.toDigits 10 n.natAbs).map Code.char := by rw [heq]; exact List.mem_cons_self
      exact absurd (isDigit_of_mem_toDigits hmem) (by decide)
    unfold intOfText
    split
    · rename_i digits heq
      exact absurd heq (hhead digits)
    · rw [hfold]
      omega

/-! ## Values -/

mutual

/-- No tuple, and no key that is not a string. -/
def PyValue.JsonShaped : PyValue F → Prop
  | .list items => ShapedItems items
  | .tuple _ => False
  | .dict pairs => ShapedPairs pairs
  | _ => True

def ShapedItems : List (PyValue F) → Prop
  | [] => True
  | item :: items => item.JsonShaped ∧ ShapedItems items

def ShapedPairs : List (PyValue F × PyValue F) → Prop
  | [] => True
  | (key, value) :: pairs => (∃ s, key = .str s) ∧ value.JsonShaped ∧ ShapedPairs pairs

end

mutual

/-- The keys of each dict are different. -/
def PyValue.WellFormed : PyValue F → Prop
  | .list items => WellFormedItems items
  | .tuple items => WellFormedItems items
  | .dict pairs => (pairs.map Prod.fst).Nodup ∧ WellFormedPairs pairs
  | _ => True

def WellFormedItems : List (PyValue F) → Prop
  | [] => True
  | item :: items => item.WellFormed ∧ WellFormedItems items

def WellFormedPairs : List (PyValue F × PyValue F) → Prop
  | [] => True
  | (_, value) :: pairs => value.WellFormed ∧ WellFormedPairs pairs

end

mutual

/-- Every float is finite, and every value is one that JSON knows; keys apart. -/
def PyValue.Finite : PyValue F → Prop
  | .float x => ∃ f, x = .finite f
  | .list items => FiniteItems items
  | .tuple items => FiniteItems items
  | .dict pairs => FinitePairs pairs
  | .object _ => False
  | _ => True

def FiniteItems : List (PyValue F) → Prop
  | [] => True
  | item :: items => item.Finite ∧ FiniteItems items

def FinitePairs : List (PyValue F × PyValue F) → Prop
  | [] => True
  | (_, value) :: pairs => value.Finite ∧ FinitePairs pairs

end

/-! ### What is printed -/

mutual

theorem literal_of_dumps : ∀ {v : PyValue F} {t : Tree}, dumps floats v = some t → t.Literal
  | .none, _, h => by cases h; trivial
  | .bool _, _, h => by cases h; trivial
  | .int n, _, h => by
    cases h
    exact scanNumber_intText n
  | .float x, _, h => by
    cases x with
    | finite f =>
      cases h
      exact floats.scanNumber_repr f
    | inf _ => cases h
    | nan => cases h
  | .str _, _, h => by cases h; trivial
  | .list items, t, h => by
    obtain ⟨trees, htrees, rfl⟩ := Option.map_eq_some_iff.1 h
    exact literalItems_of_dumpsItems htrees
  | .tuple items, t, h => by
    obtain ⟨trees, htrees, rfl⟩ := Option.map_eq_some_iff.1 h
    exact literalItems_of_dumpsItems htrees
  | .dict pairs, t, h => by
    obtain ⟨trees, htrees, rfl⟩ := Option.map_eq_some_iff.1 h
    exact literalPairs_of_dumpsPairs htrees
  | .object _, _, h => by cases h

theorem literalItems_of_dumpsItems : ∀ {items : List (PyValue F)} {trees : List Tree},
    dumpsItems floats items = some trees → LiteralItems trees
  | [], _, h => by cases h; trivial
  | item :: items, _, h => by
    simp only [dumpsItems, Option.bind_eq_bind, Option.bind_eq_some_iff, Option.pure_def, Option.some_inj] at h
    obtain ⟨tree, htree, trees, htrees, rfl⟩ := h
    exact ⟨literal_of_dumps htree, literalItems_of_dumpsItems htrees⟩

theorem literalPairs_of_dumpsPairs : ∀ {pairs : List (PyValue F × PyValue F)} {trees : List (Text × Tree)},
    dumpsPairs floats pairs = some trees → LiteralPairs trees
  | [], _, h => by cases h; trivial
  | (key, value) :: pairs, _, h => by
    simp only [dumpsPairs, Option.bind_eq_bind, Option.bind_eq_some_iff, Option.pure_def, Option.some_inj] at h
    obtain ⟨_, _, tree, htree, trees, htrees, rfl⟩ := h
    exact ⟨literal_of_dumps htree, literalPairs_of_dumpsPairs htrees⟩

end

/-! ### Dicts -/

section Dict

variable {V : Type} {pairs : List (Text × V)}

theorem mem_dictOf_fst {key : Text} : key ∈ (dictOf pairs).map Prod.fst ↔ key ∈ pairs.map Prod.fst := by
  induction pairs with
  | nil => rfl
  | cons p pairs ih =>
    obtain ⟨k, v⟩ := p
    rw [dictOf]
    cases hlook : (dictOf pairs).lookup k with
    | none => simp only [List.map_cons, List.mem_cons, ih]
    | some last =>
      simp only [List.map_cons, List.mem_cons, ← ih, List.mem_map, List.mem_filter, decide_eq_true_eq]
      constructor
      · rintro (rfl | ⟨q, ⟨hq, -⟩, rfl⟩)
        · exact .inl rfl
        · exact .inr ⟨q, hq, rfl⟩
      · rintro (rfl | ⟨q, hq, rfl⟩)
        · exact .inl rfl
        · by_cases heq : q.1 = k
          · exact .inl heq
          · exact .inr ⟨q, ⟨hq, heq⟩, rfl⟩

theorem nodup_dictOf (pairs : List (Text × V)) : ((dictOf pairs).map Prod.fst).Nodup := by
  induction pairs with
  | nil => exact List.nodup_nil
  | cons p pairs ih =>
    obtain ⟨k, v⟩ := p
    rw [dictOf]
    cases hlook : (dictOf pairs).lookup k with
    | none =>
      rw [List.map_cons, List.nodup_cons]
      refine ⟨fun hmem => ?_, ih⟩
      obtain ⟨⟨k', v'⟩, hp, rfl⟩ := List.mem_map.1 hmem
      exact absurd hp (by simpa using List.lookup_eq_none_iff.1 hlook (k', v'))
    | some last =>
      rw [List.map_cons, List.nodup_cons]
      constructor
      · intro hmem
        obtain ⟨q, hq, heq⟩ := List.mem_map.1 hmem
        exact absurd heq (by simpa using (List.mem_filter.1 hq).2)
      · exact ih.sublist (List.filter_sublist.map _)

theorem dictOf_eq_self (h : (pairs.map Prod.fst).Nodup) : dictOf pairs = pairs := by
  induction pairs with
  | nil => rfl
  | cons p pairs ih =>
    obtain ⟨k, v⟩ := p
    rw [List.map_cons, List.nodup_cons] at h
    have hlook : pairs.lookup k = none := by
      rw [List.lookup_eq_none_iff]
      intro q hq
      have hne : k ≠ q.1 := fun heq => h.1 (List.mem_map.2 ⟨q, hq, heq.symm⟩)
      simpa using hne
    rw [dictOf, ih h.2, hlook]

end Dict

/-! ### What is read -/

/-- The pairs of a dict with string keys. -/
def withKeys (pairs : List (Text × PyValue F)) : List (PyValue F × PyValue F) := pairs.map fun p => (.str p.1, p.2)

theorem shapedPairs_withKeys {pairs : List (Text × PyValue F)} (h : ∀ p ∈ pairs, p.2.JsonShaped) :
    ShapedPairs (withKeys pairs) := by
  induction pairs with
  | nil => trivial
  | cons p pairs ih =>
    exact ⟨⟨_, rfl⟩, h p List.mem_cons_self, ih fun q hq => h q (List.mem_cons_of_mem _ hq)⟩

theorem wellFormed_withKeys {pairs : List (Text × PyValue F)} (hkeys : (pairs.map Prod.fst).Nodup)
    (h : ∀ p ∈ pairs, p.2.WellFormed) : (PyValue.dict (withKeys pairs)).WellFormed := by
  constructor
  · have hmap : (withKeys pairs).map Prod.fst = (pairs.map Prod.fst).map PyValue.str := by
      simp [withKeys, Function.comp_def]
    rw [hmap]
    exact hkeys.map fun _ _ heq => by cases heq; rfl
  · clear hkeys
    induction pairs with
    | nil => trivial
    | cons p pairs ih => exact ⟨h p List.mem_cons_self, ih fun q hq => h q (List.mem_cons_of_mem _ hq)⟩

theorem mem_of_mem_dictOf {V : Type} {pairs : List (Text × V)} {p : Text × V} (h : p ∈ dictOf pairs) :
    ∃ q ∈ pairs, q.2 = p.2 := by
  induction pairs generalizing p with
  | nil => cases h
  | cons q pairs ih =>
    obtain ⟨k, v⟩ := q
    rw [dictOf] at h
    split at h
    · rename_i last hlook
      rcases List.mem_cons.1 h with rfl | h
      · obtain ⟨l, r, hdict, -⟩ := List.lookup_eq_some_iff.1 hlook
        obtain ⟨q, hq, heq⟩ := ih (p := (k, last)) (by rw [hdict]; simp)
        exact ⟨q, List.mem_cons_of_mem _ hq, heq⟩
      · obtain ⟨q, hq, heq⟩ := ih (List.mem_filter.1 h).1
        exact ⟨q, List.mem_cons_of_mem _ hq, heq⟩
    · rcases List.mem_cons.1 h with rfl | h
      · exact ⟨(k, v), List.mem_cons_self, rfl⟩
      · obtain ⟨q, hq, heq⟩ := ih h
        exact ⟨q, List.mem_cons_of_mem _ hq, heq⟩

mutual

/-- What is read has no tuple, no key that is not a string, and different keys. -/
theorem shaped_build : ∀ t : Tree, (build floats t).JsonShaped ∧ (build floats t).WellFormed
  | .null => ⟨trivial, trivial⟩
  | .bool _ => ⟨trivial, trivial⟩
  | .number literal isFloat => by cases isFloat <;> exact ⟨trivial, trivial⟩
  | .string _ => ⟨trivial, trivial⟩
  | .array items => shaped_buildItems items
  | .object pairs => by
    have hall : ∀ p ∈ dictOf (buildPairs floats pairs), p.2.JsonShaped ∧ p.2.WellFormed := by
      intro p hp
      obtain ⟨q, hq, heq⟩ := mem_of_mem_dictOf hp
      exact heq ▸ shaped_buildPairs pairs q hq
    exact ⟨shapedPairs_withKeys fun p hp => (hall p hp).1,
      wellFormed_withKeys (nodup_dictOf _) fun p hp => (hall p hp).2⟩

theorem shaped_buildItems : ∀ items : List Tree,
    ShapedItems (buildItems floats items) ∧ WellFormedItems (buildItems floats items)
  | [] => ⟨trivial, trivial⟩
  | item :: items =>
    ⟨⟨(shaped_build item).1, (shaped_buildItems items).1⟩, (shaped_build item).2, (shaped_buildItems items).2⟩

theorem shaped_buildPairs : ∀ pairs : List (Text × Tree), ∀ p ∈ buildPairs floats pairs,
    p.2.JsonShaped ∧ p.2.WellFormed
  | [], _, h => by cases h
  | (key, value) :: pairs, p, h => by
    rw [buildPairs] at h
    rcases List.mem_cons.1 h with rfl | h
    · exact shaped_build value
    · exact shaped_buildPairs pairs p h

end

mutual

/-- **What is printed of a value of this shape is read back.** -/
theorem build_of_dumps : ∀ {v : PyValue F} {t : Tree}, dumps floats v = some t → v.JsonShaped → v.WellFormed →
    build floats t = v
  | .none, _, h, _, _ => by cases h; rfl
  | .bool _, _, h, _, _ => by cases h; rfl
  | .int n, _, h, _, _ => by
    cases h
    simp [build, intOfText_intText]
  | .float x, _, h, _, _ => by
    cases x with
    | finite f =>
      cases h
      simp [build, floats.ofText_repr]
    | inf _ => cases h
    | nan => cases h
  | .str _, _, h, _, _ => by cases h; rfl
  | .list items, _, h, hshape, hform => by
    obtain ⟨trees, htrees, rfl⟩ := Option.map_eq_some_iff.1 h
    rw [build, buildItems_of_dumpsItems htrees hshape hform]
  | .tuple _, _, _, hshape, _ => hshape.elim
  | .dict pairs, _, h, hshape, hform => by
    obtain ⟨trees, htrees, rfl⟩ := Option.map_eq_some_iff.1 h
    have hpairs := buildPairs_of_dumpsPairs htrees hshape hform.2
    have hkeys : ((buildPairs floats trees).map Prod.fst).Nodup := by
      have hnodup := hform.1
      rw [← hpairs] at hnodup
      have hmap : (withKeys (buildPairs floats trees)).map Prod.fst =
          ((buildPairs floats trees).map Prod.fst).map PyValue.str := by
        simp [withKeys, Function.comp_def]
      rw [hmap] at hnodup
      exact hnodup.of_map
    rw [build, dictOf_eq_self hkeys]
    exact congrArg PyValue.dict hpairs
  | .object _, _, h, _, _ => by cases h

theorem buildItems_of_dumpsItems : ∀ {items : List (PyValue F)} {trees : List Tree},
    dumpsItems floats items = some trees → ShapedItems items → WellFormedItems items → buildItems floats trees = items
  | [], _, h, _, _ => by cases h; rfl
  | item :: items, _, h, hshape, hform => by
    simp only [dumpsItems, Option.bind_eq_bind, Option.bind_eq_some_iff, Option.pure_def, Option.some_inj] at h
    obtain ⟨tree, htree, trees, htrees, rfl⟩ := h
    rw [buildItems, build_of_dumps htree hshape.1 hform.1, buildItems_of_dumpsItems htrees hshape.2 hform.2]

theorem buildPairs_of_dumpsPairs : ∀ {pairs : List (PyValue F × PyValue F)} {trees : List (Text × Tree)},
    dumpsPairs floats pairs = some trees → ShapedPairs pairs → WellFormedPairs pairs →
      withKeys (buildPairs floats trees) = pairs
  | [], _, h, _, _ => by cases h; rfl
  | (key, value) :: pairs, _, h, hshape, hform => by
    obtain ⟨⟨s, rfl⟩, hvalue, hrest⟩ := hshape
    simp only [dumpsPairs, keyText, Option.bind_eq_bind, Option.bind_eq_some_iff, Option.pure_def, Option.some_inj] at h
    obtain ⟨_, rfl, tree, htree, trees, htrees, rfl⟩ := h
    have hpairs := buildPairs_of_dumpsPairs htrees hrest hform.2
    simp only [withKeys] at hpairs ⊢
    rw [buildPairs, List.map_cons, build_of_dumps htree hvalue hform.1, hpairs]

end

/-! ### What can be printed -/

mutual

/-- A value of this shape is printed exactly when its floats are finite. -/
theorem exists_dumps_iff : ∀ {v : PyValue F}, v.JsonShaped → ((∃ t, dumps floats v = some t) ↔ v.Finite)
  | .none, _ => ⟨fun _ => trivial, fun _ => ⟨_, rfl⟩⟩
  | .bool _, _ => ⟨fun _ => trivial, fun _ => ⟨_, rfl⟩⟩
  | .int _, _ => ⟨fun _ => trivial, fun _ => ⟨_, rfl⟩⟩
  | .float x, _ => by
    cases x with
    | finite f => exact ⟨fun _ => ⟨f, rfl⟩, fun _ => ⟨_, rfl⟩⟩
    | inf b => exact ⟨(fun ⟨_, h⟩ => by cases h), (fun ⟨_, h⟩ => by cases h)⟩
    | nan => exact ⟨(fun ⟨_, h⟩ => by cases h), (fun ⟨_, h⟩ => by cases h)⟩
  | .str _, _ => ⟨fun _ => trivial, fun _ => ⟨_, rfl⟩⟩
  | .list items, h => by
    rw [PyValue.Finite, ← exists_dumpsItems_iff h]
    simp only [dumps, Option.map_eq_some_iff]
    exact ⟨fun ⟨_, trees, htrees, _⟩ => ⟨trees, htrees⟩, fun ⟨trees, htrees⟩ => ⟨_, trees, htrees, rfl⟩⟩
  | .tuple _, h => h.elim
  | .dict pairs, h => by
    rw [PyValue.Finite, ← exists_dumpsPairs_iff h]
    simp only [dumps, Option.map_eq_some_iff]
    exact ⟨fun ⟨_, trees, htrees, _⟩ => ⟨trees, htrees⟩, fun ⟨trees, htrees⟩ => ⟨_, trees, htrees, rfl⟩⟩
  | .object _, _ => ⟨(fun ⟨_, h⟩ => by cases h), (fun h => h.elim)⟩

theorem exists_dumpsItems_iff : ∀ {items : List (PyValue F)}, ShapedItems items →
    ((∃ trees, dumpsItems floats items = some trees) ↔ FiniteItems items)
  | [], _ => ⟨fun _ => trivial, fun _ => ⟨_, rfl⟩⟩
  | item :: items, h => by
    rw [FiniteItems, ← exists_dumps_iff h.1, ← exists_dumpsItems_iff h.2]
    simp only [dumpsItems, Option.bind_eq_bind, Option.bind_eq_some_iff, Option.pure_def, Option.some_inj]
    constructor
    · rintro ⟨_, tree, htree, trees, htrees, -⟩
      exact ⟨⟨tree, htree⟩, trees, htrees⟩
    · rintro ⟨⟨tree, htree⟩, trees, htrees⟩
      exact ⟨_, tree, htree, trees, htrees, rfl⟩

theorem exists_dumpsPairs_iff : ∀ {pairs : List (PyValue F × PyValue F)}, ShapedPairs pairs →
    ((∃ trees, dumpsPairs floats pairs = some trees) ↔ FinitePairs pairs)
  | [], _ => ⟨fun _ => trivial, fun _ => ⟨_, rfl⟩⟩
  | (key, value) :: pairs, h => by
    obtain ⟨⟨s, rfl⟩, hvalue, hrest⟩ := h
    rw [FinitePairs, ← exists_dumps_iff hvalue, ← exists_dumpsPairs_iff hrest]
    simp only [dumpsPairs, keyText, Option.bind_eq_bind, Option.bind_eq_some_iff, Option.pure_def, Option.some_inj]
    constructor
    · rintro ⟨_, _, -, tree, htree, trees, htrees, -⟩
      exact ⟨⟨tree, htree⟩, trees, htrees⟩
    · rintro ⟨⟨tree, htree⟩, trees, htrees⟩
      exact ⟨_, s, rfl, tree, htree, trees, htrees, rfl⟩

end

/-- A property of the values that the dict of the pairs keeps. -/
def KeptValues {V : Type} (P : V → Prop) : List (Text × V) → Prop
  | [] => True
  | (key, value) :: pairs => (key ∈ pairs.map Prod.fst ∨ P value) ∧ KeptValues P pairs

theorem forall_dictOf_iff {V : Type} (P : V → Prop) (pairs : List (Text × V)) :
    (∀ p ∈ dictOf pairs, P p.2) ↔ KeptValues P pairs := by
  induction pairs with
  | nil => exact ⟨(fun _ => trivial), (fun _ _ h => by cases h)⟩
  | cons q pairs ih =>
    obtain ⟨k, v⟩ := q
    rw [KeptValues, ← ih, dictOf, ← mem_dictOf_fst]
    cases hlook : (dictOf pairs).lookup k with
    | none =>
      have hkey : k ∉ (dictOf pairs).map Prod.fst := by
        intro hmem
        obtain ⟨⟨k', v'⟩, hp, rfl⟩ := List.mem_map.1 hmem
        exact absurd hp (by simpa using List.lookup_eq_none_iff.1 hlook (k', v'))
      simp only [List.mem_cons, forall_eq_or_imp, hkey, false_or]
    | some last =>
      obtain ⟨l, r, hdict, -⟩ := List.lookup_eq_some_iff.1 hlook
      have hmem : (k, last) ∈ dictOf pairs := by rw [hdict]; simp
      have hkey : k ∈ (dictOf pairs).map Prod.fst := List.mem_map.2 ⟨_, hmem, rfl⟩
      simp only [List.mem_cons, forall_eq_or_imp, hkey, true_or, true_and, List.mem_filter, decide_eq_true_eq]
      constructor
      · rintro ⟨hlast, hrest⟩ p hp
        by_cases heq : p.1 = k
        · -- The keys are different, so this is the pair that was found.
          have hsame : p = (k, last) := by
            have hinj := List.inj_on_of_nodup_map (nodup_dictOf pairs)
            exact hinj hp hmem heq
          rw [hsame]
          exact hlast
        · exact hrest p ⟨hp, heq⟩
      · intro hall
        exact ⟨hall _ hmem, fun p hp => hall p hp.1⟩

mutual

/-- Each float literal of the text reads as a finite number, those apart that stand in the value of
a key which comes again. -/
def TreeFinite (floats : FloatText F) : Tree → Prop
  | .number literal isFloat => isFloat = true → ∃ f, floats.ofText literal = .finite f
  | .array items => TreeFiniteItems floats items
  | .object pairs => TreeFinitePairs floats pairs
  | _ => True

def TreeFiniteItems (floats : FloatText F) : List Tree → Prop
  | [] => True
  | item :: items => TreeFinite floats item ∧ TreeFiniteItems floats items

def TreeFinitePairs (floats : FloatText F) : List (Text × Tree) → Prop
  | [] => True
  | (key, value) :: pairs => (key ∈ pairs.map Prod.fst ∨ TreeFinite floats value) ∧ TreeFinitePairs floats pairs

end

theorem finitePairs_withKeys {pairs : List (Text × PyValue F)} :
    FinitePairs (withKeys pairs) ↔ ∀ p ∈ pairs, p.2.Finite := by
  induction pairs with
  | nil => exact ⟨(fun _ _ h => by cases h), (fun _ => trivial)⟩
  | cons p pairs ih =>
    simp only [List.mem_cons, forall_eq_or_imp, ← ih]
    exact Iff.rfl

theorem buildPairs_fst (pairs : List (Text × Tree)) : (buildPairs floats pairs).map Prod.fst = pairs.map Prod.fst := by
  induction pairs with
  | nil => rfl
  | cons p pairs ih =>
    obtain ⟨k, v⟩ := p
    rw [buildPairs, List.map_cons, List.map_cons, ih]

mutual

/-- What is read is finite exactly when the literals are. -/
theorem finite_build_iff : ∀ t : Tree, (build floats t).Finite ↔ TreeFinite floats t
  | .null => Iff.rfl
  | .bool _ => Iff.rfl
  | .number literal isFloat => by
    cases isFloat with
    | true => exact ⟨fun h _ => h, fun h => h rfl⟩
    | false => exact ⟨(fun _ h => by cases h), (fun _ => trivial)⟩
  | .string _ => Iff.rfl
  | .array items => finite_buildItems_iff items
  | .object pairs => by
    rw [TreeFinite, ← finite_buildPairs_iff pairs, ← forall_dictOf_iff]
    exact finitePairs_withKeys

theorem finite_buildItems_iff : ∀ items : List Tree, FiniteItems (buildItems floats items) ↔ TreeFiniteItems floats items
  | [] => Iff.rfl
  | item :: items => and_congr (finite_build_iff item) (finite_buildItems_iff items)

theorem finite_buildPairs_iff : ∀ pairs : List (Text × Tree),
    KeptValues PyValue.Finite (buildPairs floats pairs) ↔ TreeFinitePairs floats pairs
  | [] => Iff.rfl
  | (key, value) :: pairs => by
    rw [buildPairs, KeptValues, TreeFinitePairs, buildPairs_fst, finite_build_iff value, finite_buildPairs_iff pairs]

end

/-! ## The envelope -/

theorem splitMax_append {s : Text} (h : .char ':' ∉ s) (n : ℕ) (t : Text) :
    splitMax (n + 1) (s ++ .char ':' :: t) = s :: splitMax n t := by
  have hall : ∀ c ∈ s, decide (c ≠ Code.char ':') = true := by
    intro c hc
    simpa using fun heq : c = Code.char ':' => h (heq ▸ hc)
  have htake : (s ++ .char ':' :: t).takeWhile (fun c => decide (c ≠ Code.char ':')) = s := by
    rw [List.takeWhile_append_of_pos hall]
    simp
  have hdrop : (s ++ .char ':' :: t).dropWhile (fun c => decide (c ≠ Code.char ':')) = .char ':' :: t := by
    rw [List.dropWhile_append_of_pos hall]
    simp
  rw [splitMax, if_pos (by simp), htake, hdrop, List.tail_cons]

theorem colon_not_mem_of_splitMax {a b c : Text} (h : splitMax 2 raw = [a, b, c]) : .char ':' ∉ b := by
  intro hmem
  simp only [splitMax] at h
  split at h
  · rw [List.cons.injEq] at h
    have hrest := h.2
    split at hrest
    · rw [List.cons.injEq] at hrest
      rw [← hrest.1] at hmem
      simpa using List.mem_takeWhile_imp hmem
    · cases hrest
  · cases h

/-- The third segment. -/
def bodyOf (raw : Text) : Text := (splitMax 2 raw)[2]?.getD []

theorem parseToolOk_eq_ok {payload : PyValue F} : parseToolOk floats raw accepted = .ok (status, payload) ↔
      isOkv2 raw = true ∧ (∃ first, splitMax 2 raw = [first, status, bodyOf raw]) ∧ status ≠ [] ∧ bodyOf raw ≠ [] ∧
        status ∈ accepted ∧ ∃ pairs, payload = .dict pairs ∧ loads floats (bodyOf raw) = some (.dict pairs) ∧
          hasStatusKey pairs = false := by
  constructor
  · intro h
    simp only [parseToolOk] at h
    split at h
    · cases h
    · rename_i hokv2
      split at h
      · rename_i first status' body hsplit
        have hbody : bodyOf raw = body := by simp [bodyOf, hsplit]
        split at h
        · cases h
        · rename_i hstatus
          split at h
          · cases h
          · rename_i hempty
            split at h
            · cases h
            · rename_i haccepted
              split at h
              · cases h
              · rename_i pairs hloads
                split at h
                · cases h
                · rename_i hkey
                  cases h
                  exact ⟨by simpa using hokv2, ⟨first, by rw [hsplit, hbody]⟩, hstatus, hbody ▸ hempty,
                    by simpa using haccepted, pairs, rfl, hbody ▸ hloads, by simpa using hkey⟩
              · cases h
      · cases h
  · rintro ⟨hokv2, ⟨first, hsplit⟩, hstatus, hempty, haccepted, pairs, rfl, hloads, hkey⟩
    simp only [parseToolOk, hokv2, hsplit, hstatus, hempty, haccepted, hloads, hkey]
    rfl

/-- What is encoded is split into its segments again. -/
theorem splitMax_encoded (h : .char ':' ∉ status) (body : Text) :
    splitMax 2 (okv2Prefix ++ status ++ .char ':' :: body) = [text "okv2", status, body] := by
  have hokv2 : okv2Prefix ++ status ++ .char ':' :: body = text "okv2" ++ .char ':' :: (status ++ .char ':' :: body) := by
    simp [okv2Prefix, text]
  rw [hokv2, splitMax_append (by decide), splitMax_append h]
  rfl

theorem encodeToolOk_eq_ok {status payload : PyValue F} : encodeToolOk floats status payload = .ok raw ↔
      ∃ s pairs tree, status = .str s ∧ payload = .dict pairs ∧ s ≠ [] ∧ .char ':' ∉ s ∧ hasStatusKey pairs = false ∧
        dumps floats payload = some tree ∧ raw = okv2Prefix ++ s ++ .char ':' :: print tree := by
  constructor
  · intro h
    unfold encodeToolOk at h
    split at h
    · rename_i s
      split at h
      · cases h
      · rename_i hne
        split at h
        · cases h
        · rename_i hcolon
          split at h
          · rename_i pairs
            split at h
            · cases h
            · rename_i hkey
              split at h
              · rename_i tree htree
                cases h
                exact ⟨s, pairs, tree, rfl, rfl, hne, hcolon, by simpa using hkey, htree, rfl⟩
              · cases h
          · cases h
    · cases h
  · rintro ⟨s, pairs, tree, rfl, rfl, hne, hcolon, hkey, htree, rfl⟩
    simp only [encodeToolOk, hne, hcolon, hkey, htree]
    rfl

/-- Reading what was encoded gives the value of what was printed. -/
theorem parseToolOk_encoded {s : Text} {pairs : List (PyValue F × PyValue F)} {tree : Tree}
    (hne : s ≠ []) (hcolon : .char ':' ∉ s) (htree : dumps floats (.dict pairs) = some tree)
    (hraw : raw = okv2Prefix ++ s ++ .char ':' :: print tree) (hs : s ∈ accepted)
    (payload : PyValue F) :
    parseToolOk floats raw accepted = .ok (s, payload) ↔
      payload = build floats tree ∧ ∃ pairs, payload = .dict pairs ∧ hasStatusKey pairs = false := by
  have hliteral := literal_of_dumps htree
  have hsplit : splitMax 2 raw = [text "okv2", s, print tree] := hraw ▸ splitMax_encoded hcolon (print tree)
  have hbody : bodyOf raw = print tree := by simp [bodyOf, hsplit]
  have hload : loads floats (bodyOf raw) = some (build floats tree) := by
    rw [loads, hbody, scan_print hliteral]
    rfl
  have hprint : print tree ≠ [] := by
    obtain ⟨c, t, heq, -⟩ := exists_head_print hliteral
    rw [heq]
    exact List.cons_ne_nil _ _
  have hokv2 : isOkv2 raw = true := by
    rw [hraw, isOkv2, List.append_assoc, List.isPrefixOf_iff_prefix]
    exact List.prefix_append _ _
  rw [parseToolOk_eq_ok, hload]
  constructor
  · rintro ⟨-, -, -, -, -, pairs, rfl, hbuild, hkey⟩
    exact ⟨(Option.some_inj.1 hbuild).symm, pairs, rfl, hkey⟩
  · rintro ⟨hbuild, pairs, rfl, hkey⟩
    exact ⟨hokv2, ⟨text "okv2", by rw [hsplit, hbody]⟩, hne, hbody ▸ hprint, hs, pairs, rfl, by rw [hbuild], hkey⟩

/-- A payload comes back exactly when it has no tuple and no key that is not a string. -/
theorem parse_encode_iff {status payload : PyValue F} (hform : payload.WellFormed)
    (h : encodeToolOk floats status payload = .ok raw) :
    ∃ s, status = .str s ∧ ∀ accepted : List Text, s ∈ accepted →
      (parseToolOk floats raw accepted = .ok (s, payload) ↔ payload.JsonShaped) := by
  obtain ⟨s, pairs, tree, rfl, rfl, hne, hcolon, hkey, htree, hraw⟩ := encodeToolOk_eq_ok.1 h
  refine ⟨s, rfl, fun accepted hs => ?_⟩
  rw [parseToolOk_encoded hne hcolon htree hraw hs]
  constructor
  · rintro ⟨hbuild, -⟩
    rw [hbuild]
    exact (shaped_build tree).1
  · intro hshape
    exact ⟨(build_of_dumps htree hshape hform).symm, pairs, rfl, hkey⟩

/-- What is parsed is encoded and comes back exactly when the float literals of the text are finite. -/
theorem encode_parse_iff {payload : PyValue F} (h : parseToolOk floats raw accepted = .ok (status, payload)) :
    (∃ raw', encodeToolOk floats (.str status) payload = .ok raw' ∧
        parseToolOk floats raw' accepted = .ok (status, payload)) ↔
      ∀ tree, scan (bodyOf raw) = some tree → TreeFinite floats tree := by
  obtain ⟨-, ⟨first, hsplit⟩, hne, -, haccepted, pairs, rfl, hloads, hkey⟩ := parseToolOk_eq_ok.1 h
  obtain ⟨tree, htree, hbuild⟩ := Option.map_eq_some_iff.1 hloads
  have hcolon := colon_not_mem_of_splitMax hsplit
  have hshape : (build floats tree).JsonShaped ∧ (build floats tree).WellFormed := shaped_build tree
  rw [hbuild] at hshape
  have hfinite : (∀ t, scan (bodyOf raw) = some t → TreeFinite floats t) ↔ (PyValue.dict pairs).Finite := by
    rw [← hbuild, finite_build_iff]
    exact ⟨fun hall => hall tree htree, fun hfin t ht => Option.some_inj.1 (htree.symm.trans ht) ▸ hfin⟩
  have hdumps : (∃ t, dumps floats (.dict pairs) = some t) ↔ (PyValue.dict pairs).Finite := exists_dumps_iff hshape.1
  rw [hfinite, ← hdumps]
  constructor
  · rintro ⟨raw', hraw', -⟩
    obtain ⟨_, _, tree', -, -, -, -, -, htree', -⟩ := encodeToolOk_eq_ok.1 hraw'
    exact ⟨tree', htree'⟩
  · rintro ⟨tree', htree'⟩
    refine ⟨_, encodeToolOk_eq_ok.2 ⟨status, pairs, tree', rfl, rfl, hne, hcolon, hkey, htree', rfl⟩, ?_⟩
    rw [parseToolOk_encoded hne hcolon htree' rfl haccepted]
    exact ⟨(build_of_dumps htree' hshape.1 hshape.2).symm, pairs, rfl, hkey⟩

/-- **When the codec loses nothing.** What is encoded is parsed as the same status and payload
exactly when the payload has no tuple and no key that is not a string; what is parsed can be
encoded, and is parsed as the same again, exactly when every float literal of its text is finite. -/
theorem toolOk_codec (floats : FloatText F) :
    (∀ (status payload : PyValue F) (raw : Text), payload.WellFormed → encodeToolOk floats status payload = .ok raw →
      ∃ s, status = .str s ∧ ∀ accepted : List Text, s ∈ accepted →
        (parseToolOk floats raw accepted = .ok (s, payload) ↔ payload.JsonShaped)) ∧
    ∀ (raw status : Text) (accepted : List Text) (payload : PyValue F),
      parseToolOk floats raw accepted = .ok (status, payload) →
        ((∃ raw', encodeToolOk floats (.str status) payload = .ok raw' ∧
            parseToolOk floats raw' accepted = .ok (status, payload)) ↔
          ∀ tree, scan (bodyOf raw) = some tree → TreeFinite floats tree) :=
  ⟨fun _ _ _ hform h => parse_encode_iff hform h, fun _ _ _ _ h => encode_parse_iff h⟩

end Codec

/-- One float, and a literal out of range. -/
def halfText : FloatText Unit where
  repr _ := text "0.5"
  ofText t := if t = text "0.5" then .finite () else .inf false
  scanNumber_repr _ := rfl
  ofText_repr _ := rfl

/-- The tree of `{"1": null}`. -/
def keyTree : Tree := .object [(text "1", .null)]

/-- The tree of `{"a": 1e999}`. -/
def overflowTree : Tree := .object [(text "a", .number (text "1e999") true)]

theorem parseToolOk_example {body : Text} {tree : Tree} {pairs : List (PyValue Unit × PyValue Unit)}
    (hliteral : tree.Literal) (hbody : print tree = body) (hne : body ≠ [])
    (hsplit : splitMax 2 (text "okv2:ok:" ++ body) = [text "okv2", text "ok", body])
    (hbuild : build halfText tree = .dict pairs) (hkey : hasStatusKey pairs = false) :
    parseToolOk halfText (text "okv2:ok:" ++ body) [text "ok"] = .ok (text "ok", .dict pairs) := by
  have hseg : bodyOf (text "okv2:ok:" ++ body) = body := by simp [bodyOf, hsplit]
  refine parseToolOk_eq_ok.2 ⟨rfl, ⟨text "okv2", by rw [hsplit, hseg]⟩, by decide, by rwa [hseg], by simp, pairs, rfl,
    ?_, hkey⟩
  rw [hseg, loads, ← hbody, scan_print hliteral, Option.map_some, hbuild]

/-- A key that is a number comes back as a string, and a literal out of range is accepted and
cannot be encoded again. -/
theorem toolOk_codec_loses :
    encodeToolOk halfText (.str (text "ok")) (.dict [(.int 1, .none)]) =
        .ok (text "okv2:ok:" ++ text "\x7b\"1\":null\x7d") ∧
      parseToolOk halfText (text "okv2:ok:" ++ text "\x7b\"1\":null\x7d") [text "ok"] =
        .ok (text "ok", .dict [(.str (text "1"), .none)]) ∧
      parseToolOk halfText (text "okv2:ok:" ++ text "\x7b\"a\":1e999\x7d") [text "ok"] =
        .ok (text "ok", .dict [(.str (text "a"), .float (.inf false))]) ∧
      encodeToolOk halfText (.str (text "ok")) (.dict [(.str (text "a"), .float (.inf false))]) =
        .error .notSerialisable := by
  refine ⟨rfl, ?_, ?_, rfl⟩
  · exact @parseToolOk_example _ keyTree _ ⟨trivial, trivial⟩ rfl (by decide) rfl rfl rfl
  · exact @parseToolOk_example _ overflowTree _ ⟨rfl, trivial⟩ rfl (by decide) rfl rfl rfl

end Sreda.Services
