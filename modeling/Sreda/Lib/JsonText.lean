import Mathlib.Data.List.Basic
import Mathlib.Tactic.Common

/-!
# JSON texts as Python reads and writes them

The scanner of `json.loads` and the printer of `json.dumps` with `ensure_ascii=False` and
`separators=(",", ":")`, over trees that keep a number as its literal and an object as the list of its
pairs. A Python text may hold lone surrogates, so its characters are `Code`.

The scanner has no `NaN` and no `Infinity`. It counts its depth down from a number that the length
of the text bounds.

## What is proved

* what is printed is scanned back (`scan_print`), when its number literals are literals.
-/

namespace Sreda.Lib.Json

/-- A character of a Python text. -/
inductive Code where
  | char (c : Char)
  /-- A lone surrogate, counted from the first. -/
  | surrogate (n : ℕ)
  deriving DecidableEq

abbrev Text := List Code

/-- The characters of a literal. -/
def text (s : String) : Text := s.toList.map .char

/-- The character of a code point. -/
def Code.ofNat (n : ℕ) : Code :=
  if 0xD800 ≤ n ∧ n ≤ 0xDFFF then .surrogate (n - 0xD800) else .char (Char.ofNat n)

/-- A JSON value as it is written. -/
inductive Tree where
  | null
  | bool (b : Bool)
  /-- A number by its literal; with a fraction or an exponent it is a float. -/
  | number (literal : Text) (isFloat : Bool)
  | string (s : Text)
  | array (items : List Tree)
  /-- The pairs in their order, with keys that occur twice. -/
  | object (pairs : List (Text × Tree))

/-! ## The scanner -/

/-- White space between tokens. -/
def isWs (c : Code) : Bool := c == .char ' ' || c == .char '\t' || c == .char '\n' || c == .char '\r'

def skipWs (t : Text) : Text := t.dropWhile isWs

def isDigit : Code → Bool
  | .char c => c.isDigit
  | .surrogate _ => false

/-- The value of a hexadecimal digit. -/
def hexValue : Code → Option ℕ
  | .char c =>
    if c.isDigit then some (c.toNat - 48)
    else if 'a' ≤ c ∧ c ≤ 'f' then some (c.toNat - 87)
    else if 'A' ≤ c ∧ c ≤ 'F' then some (c.toNat - 55)
    else none
  | .surrogate _ => none

/-- The character that a short escape stands for. -/
def shortEscape : Char → Option Char
  | '"' => some '"'
  | '\\' => some '\\'
  | '/' => some '/'
  | 'b' => some '\x08'
  | 'f' => some '\x0c'
  | 'n' => some '\n'
  | 'r' => some '\r'
  | 't' => some '\t'
  | _ => none

/-- A piece of a string: a character, or the number of an escape `\u`. -/
inductive Piece where
  | code (c : Code)
  | escape (n : ℕ)

/-- A control character, which a strict scanner refuses inside of a string. -/
def isControl : Code → Bool
  | .char c => c.toNat < 32
  | .surrogate _ => false

/-- The pieces up to the closing quote, and what is left. -/
def scanPieces : Text → Option (List Piece × Text)
  | [] => none
  | c :: rest =>
    if c = .char '"' then
      some ([], rest)
    else if c = .char '\\' then
      match rest with
      | .char e :: rest =>
        if e = 'u' then
          match rest with
          | x :: y :: z :: w :: rest => do
            let n := (((← hexValue x) * 16 + (← hexValue y)) * 16 + (← hexValue z)) * 16 + (← hexValue w)
            let (pieces, rest) ← scanPieces rest
            return (.escape n :: pieces, rest)
          | _ => none
        else do
          let c ← shortEscape e
          let (pieces, rest) ← scanPieces rest
          return (.code (.char c) :: pieces, rest)
      | _ => none
    else if isControl c then
      none
    else do
      let (pieces, rest) ← scanPieces rest
      return (.code c :: pieces, rest)

/-- The text of the pieces: the escapes of a high and a low surrogate stand for one character. -/
def joinPieces : List Piece → Text
  | [] => []
  | .code c :: pieces => c :: joinPieces pieces
  | .escape high :: .escape low :: pieces =>
    if 0xD800 ≤ high ∧ high ≤ 0xDBFF ∧ 0xDC00 ≤ low ∧ low ≤ 0xDFFF then
      .char (Char.ofNat (0x10000 + (high - 0xD800) * 0x400 + (low - 0xDC00))) :: joinPieces pieces
    else
      .ofNat high :: joinPieces (.escape low :: pieces)
  | .escape n :: pieces => .ofNat n :: joinPieces pieces

/-- `scanstring`, after the opening quote. -/
def scanString (t : Text) : Option (Text × Text) :=
  (scanPieces t).map fun (pieces, rest) => (joinPieces pieces, rest)

/-- `[0-9]+`, and what is left. -/
def scanDigits : Text → Option (Text × Text)
  | [] => none
  | c :: t => if isDigit c then some (c :: t.takeWhile isDigit, t.dropWhile isDigit) else none

/-- `0|[1-9][0-9]*`. -/
def scanNatural : Text → Option (Text × Text)
  | [] => none
  | c :: t => if c = .char '0' then some ([c], t) else scanDigits (c :: t)

/-- `-?(0|[1-9][0-9]*)`. -/
def scanWhole : Text → Option (Text × Text)
  | [] => none
  | c :: t => if c = .char '-' then (scanNatural t).map fun (n, t) => (c :: n, t) else scanNatural (c :: t)

/-- `(\.[0-9]+)?`. -/
def scanFraction : Text → Text × Text
  | [] => ([], [])
  | c :: t =>
    if c = .char '.' then
      match scanDigits t with
      | some (digits, t) => (c :: digits, t)
      | none => ([], c :: t)
    else ([], c :: t)

/-- `[-+]?[0-9]+`. -/
def scanSigned : Text → Option (Text × Text)
  | [] => none
  | c :: t =>
    if c = .char '-' ∨ c = .char '+' then (scanDigits t).map fun (digits, t) => (c :: digits, t) else scanDigits (c :: t)

/-- `([eE][-+]?[0-9]+)?`. -/
def scanExponent : Text → Text × Text
  | [] => ([], [])
  | c :: t =>
    if c = .char 'e' ∨ c = .char 'E' then
      match scanSigned t with
      | some (digits, t) => (c :: digits, t)
      | none => ([], c :: t)
    else ([], c :: t)

/-- `NUMBER_RE`: the literal, whether it is a float, and what is left. -/
def scanNumber (t : Text) : Option (Text × Bool × Text) :=
  (scanWhole t).map fun (whole, t) =>
    let (fraction, t) := scanFraction t
    let (exponent, t) := scanExponent t
    (whole ++ fraction ++ exponent, !fraction.isEmpty || !exponent.isEmpty, t)

/-- What comes after a word. -/
def after : Text → Text → Option Text
  | [], t => some t
  | _ :: _, [] => none
  | a :: word, c :: t => if a = c then after word t else none

/-- `null`, `true` and `false`. -/
def scanName (t : Text) : Option (Tree × Text) :=
  ((after (text "null") t).map fun rest => (Tree.null, rest)).or
    (((after (text "true") t).map fun rest => (Tree.bool true, rest)).or
      ((after (text "false") t).map fun rest => (Tree.bool false, rest)))

mutual

/-- `scan_once`. -/
def scanValue : ℕ → Text → Option (Tree × Text)
  | 0, _ => none
  | _ + 1, [] => none
  | depth + 1, c :: rest =>
    if c = .char '"' then
      (scanString rest).map fun (s, rest) => (.string s, rest)
    else if c = .char '\x7b' then
      if (skipWs rest).head? = some (.char '\x7d') then some (.object [], (skipWs rest).tail)
      else (scanPairs depth (skipWs rest)).map fun (pairs, rest) => (.object pairs, rest)
    else if c = .char '[' then
      if (skipWs rest).head? = some (.char ']') then some (.array [], (skipWs rest).tail)
      else (scanItems depth (skipWs rest)).map fun (items, rest) => (.array items, rest)
    else
      (scanName (c :: rest)).or
        ((scanNumber (c :: rest)).map fun (literal, isFloat, rest) => (.number literal isFloat, rest))

/-- The items of an array, up to its end. -/
def scanItems : ℕ → Text → Option (List Tree × Text)
  | 0, _ => none
  | depth + 1, t => do
    let (item, rest) ← scanValue depth t
    match skipWs rest with
    | [] => none
    | c :: rest =>
      if c = .char ',' then
        let (items, rest) ← scanItems depth (skipWs rest)
        return (item :: items, rest)
      else if c = .char ']' then return ([item], rest)
      else none

/-- The pairs of an object, up to its end. -/
def scanPairs : ℕ → Text → Option (List (Text × Tree) × Text)
  | 0, _ => none
  | depth + 1, t => do
    let (key, rest) ← (after (text "\"") t).bind scanString
    let (value, rest) ← (after (text ":") (skipWs rest)).bind fun rest => scanValue depth (skipWs rest)
    match skipWs rest with
    | [] => none
    | c :: rest =>
      if c = .char ',' then
        let (pairs, rest) ← scanPairs depth (skipWs rest)
        return ((key, value) :: pairs, rest)
      else if c = .char '\x7d' then return ([(key, value)], rest)
      else none

end

/-- The tree of a text: white space may stand around it, a byte order mark may not. -/
def scan (t : Text) : Option Tree :=
  if t.head? = some (.char '\uFEFF') then none
  else do
    let (tree, rest) ← scanValue (2 * t.length + 1) (skipWs t)
    if skipWs rest = [] then return tree else none

/-! ## The printer -/

def hexDigit (n : ℕ) : Code := .char (Nat.digitChar n)

/-- The letter of a short escape. -/
def shortLetter : Char → Option Char
  | '"' => some '"'
  | '\\' => some '\\'
  | '\x08' => some 'b'
  | '\x0c' => some 'f'
  | '\n' => some 'n'
  | '\r' => some 'r'
  | '\t' => some 't'
  | _ => none

/-- `ESCAPE_DCT`, and every other character as it is. -/
def escapeCode : Code → Text
  | .surrogate n => [.surrogate n]
  | .char c =>
    match shortLetter c with
    | some e => [.char '\\', .char e]
    | none =>
      if c.toNat < 32 then text "\\u00" ++ [hexDigit (c.toNat / 16), hexDigit (c.toNat % 16)] else [.char c]

/-- A string in quotes. -/
def printString (s : Text) : Text := .char '"' :: (s.flatMap escapeCode ++ [.char '"'])

mutual

def print : Tree → Text
  | .null => text "null"
  | .bool b => if b then text "true" else text "false"
  | .number literal _ => literal
  | .string s => printString s
  | .array [] => text "[]"
  | .array (item :: items) => .char '[' :: (print item ++ printItems items)
  | .object [] => text "\x7b\x7d"
  | .object ((key, value) :: pairs) =>
    .char '\x7b' :: (printString key ++ .char ':' :: (print value ++ printPairs pairs))

/-- The items after the first, and the end of the array. -/
def printItems : List Tree → Text
  | [] => text "]"
  | item :: items => .char ',' :: (print item ++ printItems items)

/-- The pairs after the first, and the end of the object. -/
def printPairs : List (Text × Tree) → Text
  | [] => text "\x7d"
  | (key, value) :: pairs => .char ',' :: (printString key ++ .char ':' :: (print value ++ printPairs pairs))

end

/-! ## What is read of a number -/

/-- A character that may go on with a number. -/
def isNumberCode (c : Code) : Bool :=
  isDigit c || c == .char '.' || c == .char 'e' || c == .char 'E' || c == .char '-' || c == .char '+'

/-- A text that does not go on with a number. -/
def Outside (t : Text) : Prop := ∀ c rest, t = c :: rest → isNumberCode c = false

theorem Outside.nil : Outside [] := by
  intro c rest h
  cases h

theorem Outside.cons {c : Code} (h : isNumberCode c = false) (t : Text) : Outside (c :: t) := by
  intro d rest heq
  cases heq
  exact h

theorem isDigit_eq_false {c : Code} (h : isNumberCode c = false) : isDigit c = false := by
  simp only [isNumberCode, Bool.or_eq_false_iff] at h
  exact h.1.1.1.1.1

theorem ne_of_isNumberCode {c d : Code} (h : isNumberCode c = false) (hd : isNumberCode d = true) : c ≠ d := by
  rintro rfl
  simp [h] at hd

theorem span_append (t : Text) {r : Text} (hr : Outside r) :
    (t ++ r).takeWhile isDigit = t.takeWhile isDigit ∧ (t ++ r).dropWhile isDigit = t.dropWhile isDigit ++ r := by
  induction t with
  | nil =>
    cases r with
    | nil => exact ⟨rfl, rfl⟩
    | cons c r => simp [isDigit_eq_false (hr c r rfl)]
  | cons c t ih =>
    cases hc : isDigit c with
    | true => simp [hc, ih]
    | false => simp [hc]

/-- What a scanner reads does not change when a text follows that does not go on with a number. -/
def Stable (scan : Text → Option (Text × Text)) : Prop :=
  ∀ t r, Outside r → scan (t ++ r) = (scan t).map fun (w, t) => (w, t ++ r)

theorem stable_scanDigits : Stable scanDigits := by
  intro t r hr
  cases t with
  | nil =>
    cases r with
    | nil => rfl
    | cons c r => simp [scanDigits, isDigit_eq_false (hr c r rfl)]
  | cons c t =>
    cases hc : isDigit c <;> simp [scanDigits, hc, span_append t hr]

theorem stable_scanNatural : Stable scanNatural := by
  intro t r hr
  cases t with
  | nil =>
    cases r with
    | nil => rfl
    | cons c r =>
      have hc := hr c r rfl
      simp [scanNatural, scanDigits, ne_of_isNumberCode (d := .char '0') hc rfl, isDigit_eq_false hc]
  | cons c t =>
    simp only [List.cons_append, scanNatural]
    split
    · rfl
    · exact stable_scanDigits (c :: t) r hr

/-- A scanner after a sign. -/
theorem Stable.signed {scan signed : Text → Option (Text × Text)} (h : Stable scan) (isSign : Code → Prop)
    [DecidablePred isSign] (hsign : ∀ c, isSign c → isNumberCode c = true)
    (hnil : signed [] = none) (hscan : scan [] = none)
    (hcons : ∀ c t, signed (c :: t) = if isSign c then (scan t).map fun (w, t) => (c :: w, t) else scan (c :: t)) :
    Stable signed := by
  intro t r hr
  cases t with
  | nil =>
    cases r with
    | nil => simp [hnil]
    | cons c r =>
      have hc : ¬ isSign c := by
        intro hc
        have hcode := hr c r rfl
        rw [hsign c hc] at hcode
        cases hcode
      have := h [] (c :: r) hr
      simp only [List.nil_append, hscan, Option.map_none] at this ⊢
      rw [hcons, if_neg hc, this, hnil]
      rfl
  | cons c t =>
    rw [List.cons_append, hcons, hcons]
    split
    · rw [h t r hr]
      cases scan t <;> rfl
    · exact h (c :: t) r hr

theorem stable_scanWhole : Stable scanWhole :=
  stable_scanNatural.signed (· = .char '-') (by rintro _ rfl; rfl) rfl rfl fun _ _ => rfl

theorem stable_scanSigned : Stable scanSigned :=
  stable_scanDigits.signed (fun c => c = .char '-' ∨ c = .char '+') (by rintro _ (rfl | rfl) <;> rfl) rfl rfl
    fun _ _ => rfl

theorem scanFraction_append (t : Text) {r : Text} (hr : Outside r) :
    scanFraction (t ++ r) = ((scanFraction t).1, (scanFraction t).2 ++ r) := by
  cases t with
  | nil =>
    cases r with
    | nil => rfl
    | cons c r => simp [scanFraction, ne_of_isNumberCode (d := .char '.') (hr c r rfl) rfl]
  | cons c t =>
    simp only [List.cons_append, scanFraction, stable_scanDigits t r hr]
    split
    · cases scanDigits t <;> rfl
    · rfl

theorem scanExponent_append (t : Text) {r : Text} (hr : Outside r) :
    scanExponent (t ++ r) = ((scanExponent t).1, (scanExponent t).2 ++ r) := by
  cases t with
  | nil =>
    cases r with
    | nil => rfl
    | cons c r =>
      simp [scanExponent, ne_of_isNumberCode (d := .char 'e') (hr c r rfl) rfl,
        ne_of_isNumberCode (d := .char 'E') (hr c r rfl) rfl]
  | cons c t =>
    simp only [List.cons_append, scanExponent, stable_scanSigned t r hr]
    split
    · cases scanSigned t <;> rfl
    · rfl

/-- A number is read as before when a text follows that does not go on with it. -/
theorem scanNumber_append (t : Text) {r : Text} (hr : Outside r) :
    scanNumber (t ++ r) = (scanNumber t).map fun (w, isFloat, t) => (w, isFloat, t ++ r) := by
  simp only [scanNumber, stable_scanWhole t r hr, Option.map_map]
  cases scanWhole t with
  | none => rfl
  | some p => simp only [Option.map_some, Function.comp_apply, scanFraction_append p.2 hr, scanExponent_append _ hr]

/-! ## What is read of a string -/

/-- The piece that a printed character is scanned as. -/
def pieceOf : Code → Piece
  | .surrogate n => .code (.surrogate n)
  | .char c => if shortLetter c = none ∧ c.toNat < 32 then .escape c.toNat else .code (.char c)

theorem shortEscape_shortLetter {c e : Char} (h : shortLetter c = some e) : shortEscape e = some c ∧ e ≠ 'u' := by
  unfold shortLetter at h
  split at h <;> cases h <;> decide

theorem shortLetter_eq_none {c : Char} (h : shortLetter c = none) : c ≠ '"' ∧ c ≠ '\\' := by
  constructor <;> rintro rfl <;> cases h

theorem hexValue_hexDigit : ∀ n, n < 16 → hexValue (hexDigit n) = some n := by decide

theorem scanPieces_escapeCode (c : Code) (rest : Text) :
    scanPieces (escapeCode c ++ rest) = (scanPieces rest).map fun (ps, r) => (pieceOf c :: ps, r) := by
  cases c with
  | surrogate n =>
    rw [escapeCode, List.cons_append, List.nil_append, scanPieces.eq_def]
    cases hrest : scanPieces rest <;> simp [hrest, pieceOf, isControl]
  | char c =>
    cases hletter : shortLetter c with
    | some e =>
      obtain ⟨hescape, hu⟩ := shortEscape_shortLetter hletter
      simp only [escapeCode, hletter, List.cons_append, List.nil_append]
      rw [scanPieces.eq_def]
      cases hrest : scanPieces rest <;> simp [hrest, pieceOf, hletter, hu, hescape]
    | none =>
      obtain ⟨hquote, hslash⟩ := shortLetter_eq_none hletter
      by_cases hlow : c.toNat < 32
      · have hhigh := hexValue_hexDigit (c.toNat / 16) (by omega)
        have hdigit := hexValue_hexDigit (c.toNat % 16) (by omega)
        have hzero : hexValue (.char '0') = some 0 := rfl
        have hn : c.toNat / 16 * 16 + c.toNat % 16 = c.toNat := by omega
        have htext : escapeCode (.char c) ++ rest = .char '\\' :: .char 'u' :: .char '0' :: .char '0' ::
            hexDigit (c.toNat / 16) :: hexDigit (c.toNat % 16) :: rest := by
          simp [escapeCode, hletter, hlow, text]
        rw [htext, scanPieces.eq_def]
        cases hrest : scanPieces rest <;> simp [hrest, pieceOf, hletter, hlow, hzero, hhigh, hdigit, hn]
      · have hcontrol : isControl (.char c) = false := by simpa [isControl] using hlow
        simp only [escapeCode, hletter, if_neg hlow, List.cons_append, List.nil_append]
        rw [scanPieces.eq_def]
        cases hrest : scanPieces rest <;> simp [hrest, pieceOf, hlow, hquote, hslash, hcontrol]

theorem joinPieces_cons_pieceOf (c : Code) (ps : List Piece) : joinPieces (pieceOf c :: ps) = c :: joinPieces ps := by
  cases c with
  | surrogate n => rfl
  | char c =>
    by_cases hlow : shortLetter c = none ∧ c.toNat < 32
    · have hof : Code.ofNat c.toNat = .char c := by
        rw [Code.ofNat, if_neg (by omega), Char.ofNat_toNat]
      rw [pieceOf, if_pos hlow]
      cases ps with
      | nil => simp [joinPieces, hof]
      | cons p ps =>
        cases p with
        | code d => simp [joinPieces, hof]
        | escape n =>
          rw [joinPieces, if_neg (by omega), hof]
    · rw [pieceOf, if_neg hlow, joinPieces]

/-- **A printed string is scanned back.** -/
theorem scanString_printed (s r : Text) : scanString (s.flatMap escapeCode ++ .char '"' :: r) = some (s, r) := by
  have hpieces : scanPieces (s.flatMap escapeCode ++ .char '"' :: r) = some (s.map pieceOf, r) := by
    induction s with
    | nil =>
      rw [List.flatMap_nil, List.nil_append, scanPieces.eq_def]
      rfl
    | cons c s ih =>
      rw [List.flatMap_cons, List.append_assoc, scanPieces_escapeCode, ih]
      rfl
  have hjoin : joinPieces (s.map pieceOf) = s := by
    clear hpieces
    induction s with
    | nil => rfl
    | cons c s ih => rw [List.map_cons, joinPieces_cons_pieceOf, ih]
  rw [scanString, hpieces]
  simp [hjoin]

/-! ## What is read of a value -/

mutual

/-- The number literals of the tree are literals. -/
def Tree.Literal : Tree → Prop
  | .number literal isFloat => scanNumber literal = some (literal, isFloat, [])
  | .array items => LiteralItems items
  | .object pairs => LiteralPairs pairs
  | _ => True

def LiteralItems : List Tree → Prop
  | [] => True
  | item :: items => item.Literal ∧ LiteralItems items

def LiteralPairs : List (Text × Tree) → Prop
  | [] => True
  | (_, value) :: pairs => value.Literal ∧ LiteralPairs pairs

end

/-- The first character of a token: no white space, no closing bracket and no byte order mark. -/
def isFirst (c : Code) : Bool := !isWs c && c != .char ']' && c != .char '\x7d' && c != .char '\uFEFF'

theorem skipWs_cons {c : Code} (h : isFirst c = true) (t : Text) : skipWs (c :: t) = c :: t := by
  have hc : isWs c = false := by
    simp only [isFirst, Bool.and_eq_true, Bool.not_eq_true'] at h
    exact h.1.1.1
  rw [skipWs, List.dropWhile_cons_of_neg (by simp [hc])]

theorem isFirst_of_isNumberCode {c : Code} (h : isNumberCode c = true) : isFirst c = true := by
  have hne : ∀ d, isNumberCode d = false → c ≠ d := fun d hd heq => by rw [heq, hd] at h; cases h
  simp [isFirst, isWs, hne (.char ' ') rfl, hne (.char '\t') rfl, hne (.char '\n') rfl, hne (.char '\r') rfl,
    hne (.char ']') rfl, hne (.char '\x7d') rfl, hne (.char '\uFEFF') rfl]

/-- A literal begins with a character of a number. -/
theorem exists_head_of_scanNumber {t w r : Text} {isFloat : Bool} (h : scanNumber t = some (w, isFloat, r)) :
    ∃ c t', t = c :: t' ∧ isNumberCode c = true := by
  cases t with
  | nil => cases h
  | cons c t =>
    refine ⟨c, t, rfl, ?_⟩
    by_contra hc
    rw [Bool.not_eq_true] at hc
    simp [scanNumber, scanWhole, scanNatural, scanDigits, isDigit_eq_false hc,
      ne_of_isNumberCode (d := .char '-') hc rfl, ne_of_isNumberCode (d := .char '0') hc rfl] at h

theorem exists_head_print {v : Tree} (h : v.Literal) : ∃ c t, print v = c :: t ∧ isFirst c = true := by
  cases v with
  | null => exact ⟨_, _, rfl, rfl⟩
  | bool b => cases b <;> exact ⟨_, _, rfl, rfl⟩
  | number literal isFloat =>
    obtain ⟨c, t, heq, hc⟩ := exists_head_of_scanNumber h
    exact ⟨c, t, heq, isFirst_of_isNumberCode hc⟩
  | string s => exact ⟨_, _, rfl, rfl⟩
  | array items => cases items <;> exact ⟨_, _, rfl, rfl⟩
  | object pairs =>
    cases pairs with
    | nil => exact ⟨_, _, rfl, rfl⟩
    | cons p pairs => exact ⟨_, _, rfl, rfl⟩

theorem skipWs_print {v : Tree} (h : v.Literal) (r : Text) : skipWs (print v ++ r) = print v ++ r := by
  obtain ⟨c, t, heq, hc⟩ := exists_head_print h
  rw [heq, List.cons_append, skipWs_cons hc]

theorem scanName_eq_none {c : Code} (h : isNumberCode c = true) (t : Text) : scanName (c :: t) = none := by
  have hne : ∀ d, isNumberCode d = false → d ≠ c := fun d hd heq => by rw [heq, h] at hd; cases hd
  simp [scanName, text, after, hne (.char 'n') rfl, hne (.char 't') rfl, hne (.char 'f') rfl]

theorem scanValue_number {literal r : Text} {isFloat : Bool} (h : scanNumber literal = some (literal, isFloat, []))
    (hr : Outside r) (depth : ℕ) : scanValue (depth + 1) (literal ++ r) = some (.number literal isFloat, r) := by
  have happend := scanNumber_append literal hr
  rw [h] at happend
  obtain ⟨c, t, rfl, hc⟩ := exists_head_of_scanNumber h
  have hne : ∀ d, isNumberCode d = false → c ≠ d := fun d hd heq => by rw [heq, hd] at hc; cases hc
  rw [List.cons_append] at happend ⊢
  simp only [scanValue, hne (.char '"') rfl, hne (.char '\x7b') rfl, hne (.char '[') rfl, if_false,
    scanName_eq_none hc, Option.none_or, happend]
  rfl

theorem scanString_printString (s r : Text) : (after (text "\"") (printString s ++ r)).bind scanString = some (s, r) := by
  simp [printString, text, after, scanString_printed]

mutual

/-- **A printed value is scanned back.** -/
theorem scanValue_print : ∀ (v : Tree) (depth : ℕ) (r : Text), v.Literal → 2 * (print v).length + 1 ≤ depth →
    Outside r → scanValue depth (print v ++ r) = some (v, r)
  | _, 0, _, _, hdepth, _ => absurd hdepth (by omega)
  | .null, depth + 1, r, _, _, _ => rfl
  | .bool true, depth + 1, r, _, _, _ => rfl
  | .bool false, depth + 1, r, _, _, _ => rfl
  | .number literal isFloat, depth + 1, r, h, _, hr => scanValue_number h hr depth
  | .string s, depth + 1, r, _, _, _ => by
    have hs := scanString_printed s r
    simp [print, printString, scanValue, hs]
  | .array [], depth + 1, r, _, _, _ => rfl
  | .array (item :: items), depth + 1, r, h, hdepth, _ => by
    have hitem := skipWs_print h.1 (printItems items ++ r)
    obtain ⟨c, t, heq, hc⟩ := exists_head_print h.1
    have hhead : (print item ++ (printItems items ++ r)).head? ≠ some (.char ']') := by
      rw [heq, List.cons_append, List.head?_cons]
      rintro ⟨rfl⟩
      cases hc
    have hitems := scanItems_print item items depth r h.1 h.2 (by
      simp only [print, List.length_cons] at hdepth
      omega)
    simp only [print, List.cons_append, List.append_assoc, scanValue, hitem, hhead, hitems]
    rfl
  | .object [], depth + 1, r, _, _, _ => rfl
  | .object ((key, value) :: pairs), depth + 1, r, h, hdepth, _ => by
    have hpairs := scanPairs_print key value pairs depth r h.1 h.2 (by
      simp only [print, List.length_cons, List.length_append] at hdepth ⊢
      omega)
    have hkey : skipWs (printString key ++ .char ':' :: (print value ++ (printPairs pairs ++ r))) =
        printString key ++ .char ':' :: (print value ++ (printPairs pairs ++ r)) := rfl
    have hhead : (printString key ++ .char ':' :: (print value ++ (printPairs pairs ++ r))).head? ≠
        some (.char '\x7d') := by
      simp [printString]
    simp only [print, List.cons_append, List.append_assoc, scanValue, hkey, hhead, hpairs]
    rfl

theorem scanItems_print : ∀ (item : Tree) (items : List Tree) (depth : ℕ) (r : Text), item.Literal → LiteralItems items →
    2 * (print item ++ printItems items).length ≤ depth →
      scanItems depth (print item ++ (printItems items ++ r)) = some (item :: items, r)
  | item, items, 0, _, h, _, hdepth => by
    obtain ⟨c, t, heq, -⟩ := exists_head_print h
    simp only [heq, List.length_append, List.length_cons] at hdepth
    omega
  | item, [], depth + 1, r, h, _, hdepth => by
    have hvalue := scanValue_print item depth (printItems [] ++ r) h
      (by simp only [List.length_append, printItems, text] at hdepth; simp at hdepth; omega) (.cons rfl r)
    rw [scanItems, hvalue]
    rfl
  | item, next :: items, depth + 1, r, h, hitems, hdepth => by
    have hvalue := scanValue_print item depth (printItems (next :: items) ++ r) h
      (by simp only [List.length_append, printItems, List.length_cons] at hdepth; omega) (.cons rfl _)
    have hrest := scanItems_print next items depth r hitems.1 hitems.2
      (by simp only [List.length_append, printItems, List.length_cons] at hdepth ⊢; omega)
    have hws : skipWs (printItems (next :: items) ++ r) = .char ',' :: (print next ++ (printItems items ++ r)) := by
      simp only [printItems, List.cons_append, List.append_assoc]
      rfl
    simp only [scanItems, hvalue, Option.bind_eq_bind, Option.bind_some, hws, if_true, skipWs_print hitems.1, hrest]
    rfl

theorem scanPairs_print : ∀ (key : Text) (value : Tree) (pairs : List (Text × Tree)) (depth : ℕ) (r : Text),
    value.Literal → LiteralPairs pairs →
    2 * (print value ++ printPairs pairs).length ≤ depth →
      scanPairs depth (printString key ++ .char ':' :: (print value ++ (printPairs pairs ++ r))) =
        some ((key, value) :: pairs, r)
  | _, value, _, 0, _, h, _, hdepth => by
    obtain ⟨c, t, heq, -⟩ := exists_head_print h
    simp only [heq, List.length_append, List.length_cons] at hdepth
    omega
  | key, value, [], depth + 1, r, h, _, hdepth => by
    have hvalue := scanValue_print value depth (printPairs [] ++ r) h
      (by simp only [List.length_append, printPairs, text] at hdepth; simp at hdepth; omega) (.cons rfl r)
    have hcolon : ∀ t, after (text ":") (skipWs (.char ':' :: t)) = some t := fun _ => rfl
    simp only [scanPairs, scanString_printString, Option.bind_eq_bind, Option.bind_some, hcolon, skipWs_print h, hvalue]
    rfl
  | key, value, (key', value') :: pairs, depth + 1, r, h, hpairs, hdepth => by
    have hvalue := scanValue_print value depth (printPairs ((key', value') :: pairs) ++ r) h
      (by simp only [List.length_append, printPairs, List.length_cons] at hdepth; omega) (.cons rfl _)
    have hrest := scanPairs_print key' value' pairs depth r hpairs.1 hpairs.2
      (by simp only [List.length_append, printPairs, List.length_cons] at hdepth ⊢; omega)
    have hcolon : ∀ t, after (text ":") (skipWs (.char ':' :: t)) = some t := fun _ => rfl
    have hws : skipWs (printPairs ((key', value') :: pairs) ++ r) =
        .char ',' :: (printString key' ++ .char ':' :: (print value' ++ (printPairs pairs ++ r))) := by
      simp only [printPairs, List.cons_append, List.append_assoc]
      rfl
    have hkey : skipWs (printString key' ++ .char ':' :: (print value' ++ (printPairs pairs ++ r))) =
        printString key' ++ .char ':' :: (print value' ++ (printPairs pairs ++ r)) := rfl
    simp only [scanPairs, scanString_printString, Option.bind_eq_bind, Option.bind_some, hcolon, skipWs_print h, hvalue,
      hws, if_true, hkey, hrest]
    rfl

end

/-- **A printed text is read back.** -/
theorem scan_print {v : Tree} (h : v.Literal) : scan (print v) = some v := by
  obtain ⟨c, t, heq, hc⟩ := exists_head_print h
  have hbom : (print v).head? ≠ some (.char '\uFEFF') := by
    rw [heq, List.head?_cons]
    rintro ⟨rfl⟩
    cases hc
  have hvalue := scanValue_print v (2 * (print v).length + 1) [] h (Nat.le_refl _) .nil
  have hws := skipWs_print h []
  rw [List.append_nil] at hvalue hws
  simp only [scan, hbom, if_false, hws, hvalue, Option.bind_eq_bind, Option.bind_some]
  rfl

end Sreda.Lib.Json
