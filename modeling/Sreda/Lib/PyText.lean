import Mathlib.Data.List.Basic
import Mathlib.Tactic.Common

/-!
# Python texts as lists of characters

The operations of `str` that the readers and the confirmations use, on lists of characters:
white space and stripping, lower case and decimal numbers.

## What is proved

* white space around a text does not change what is stripped (`strip_pad`), and what is
  stripped has the same characters apart from white space (`mem_strip`);
* two texts that are cut where a run of a class ends are cut at the same place (`run_inj`),
  and so are two texts cut at the last place of a character (`last_inj`);
* a printed number is read back (`toInt_digits`).
-/

namespace Sreda.Lib.PyText

/-- `str.isspace` of one character. -/
def isSpace (c : Char) : Bool :=
  let n := c.toNat
  (9 ≤ n && n ≤ 13) || (28 ≤ n && n ≤ 32) || n == 0x85 || n == 0xA0 || n == 0x1680 ||
    (0x2000 ≤ n && n ≤ 0x200A) || n == 0x2028 || n == 0x2029 || n == 0x202F || n == 0x205F || n == 0x3000

/-- `str.lower` of one character, for the Latin and the Russian letters. -/
def lowerChar (c : Char) : Char :=
  let n := c.toNat
  if (0x41 ≤ n && n ≤ 0x5A) || (0x410 ≤ n && n ≤ 0x42F) then Char.ofNat (n + 32)
  else if n == 0x401 then Char.ofNat 0x451
  else c

def lower (text : List Char) : List Char := text.map lowerChar

/-- `str.lstrip()`. -/
def lstrip (text : List Char) : List Char := text.dropWhile isSpace

/-- `str.rstrip(chars)`, the characters given as a test. -/
def rstripWhile (p : Char → Bool) (text : List Char) : List Char := (text.reverse.dropWhile p).reverse

/-- `str.rstrip()`. -/
def rstrip (text : List Char) : List Char := rstripWhile isSpace text

/-- `str.strip()`. -/
def strip (text : List Char) : List Char := rstrip (lstrip text)

/-! ### White space -/

abbrev Text := List Char

instance lawfulText : LawfulBEq Text := List.instLawfulBEq

/-- Nothing but white space. -/
def Blank (s : Text) : Prop := ∀ c ∈ s, isSpace c = true

instance (s : Text) : Decidable (Blank s) := List.decidableBAll _ s

/-- White space has no case. -/
theorem lowerChar_space {c : Char} (h : isSpace c = true) : lowerChar c = c := by
  have hcase : ¬ (0x41 ≤ c.toNat ∧ c.toNat ≤ 0x5A) ∧ ¬ (0x410 ≤ c.toNat ∧ c.toNat ≤ 0x42F) ∧ c.toNat ≠ 0x401 := by
    simp only [isSpace, Bool.or_eq_true, Bool.and_eq_true, decide_eq_true_eq, beq_iff_eq] at h
    omega
  simp [lowerChar, hcase]

/-- A text that does not begin with white space, such as `.strip()` followed by a cut. -/
def Starts (s : Text) : Prop := ∃ c t, s = c :: t ∧ isSpace c = false

variable {s t ws s' : Text} {p : Char → Bool}

theorem Starts.ne_nil (h : Starts s) : s ≠ [] := by
  obtain ⟨c, t, rfl, -⟩ := h
  simp

theorem Starts.not_blank (h : Starts s) : ¬ Blank s := by
  obtain ⟨c, t, rfl, hc⟩ := h
  intro hb
  simp [hb c (by simp)] at hc

theorem Starts.append (h : Starts s) (t : Text) : Starts (s ++ t) := by
  obtain ⟨c, u, rfl, hc⟩ := h
  exact ⟨c, u ++ t, rfl, hc⟩

theorem starts_reverse_append (s : Text) (h : Starts t.reverse) : Starts (s ++ t).reverse := by
  rw [List.reverse_append]
  exact h.append _

theorem Blank.append (hs : Blank s) (ht : Blank t) : Blank (s ++ t) := by
  intro c hc
  rcases List.mem_append.mp hc with h | h
  · exact hs c h
  · exact ht c h

theorem Blank.of_append_left (h : Blank (s ++ t)) : Blank s := fun c hc => h c (by simp [hc])

theorem Blank.of_append_right (h : Blank (s ++ t)) : Blank t := fun c hc => h c (by simp [hc])

theorem Blank.reverse (h : Blank s) : Blank s.reverse := fun c hc => h c (List.mem_reverse.mp hc)

theorem dropWhile_blank (h : Blank ws) (s : Text) : (ws ++ s).dropWhile isSpace = s.dropWhile isSpace := by
  induction ws with
  | nil => rfl
  | cons c ws ih =>
    rw [List.cons_append, List.dropWhile_cons_of_pos (h c (by simp))]
    exact ih fun d hd => h d (by simp [hd])

theorem lstrip_blank_append (h : Blank ws) (s : Text) : lstrip (ws ++ s) = lstrip s :=
  dropWhile_blank h s

theorem rstrip_append_blank (h : Blank ws) (s : Text) : rstrip (s ++ ws) = rstrip s := by
  simp only [rstrip, rstripWhile, List.reverse_append, dropWhile_blank h.reverse]

theorem Starts.lstrip_eq (h : Starts s) : lstrip s = s := by
  obtain ⟨c, t, rfl, hc⟩ := h
  exact List.dropWhile_cons_of_neg (by simp [hc])

/-- What `lstrip` takes off is white space, and what is left is nothing or begins a word. -/
theorem exists_lstrip (s : Text) : ∃ ws, Blank ws ∧ s = ws ++ lstrip s ∧ (lstrip s = [] ∨ Starts (lstrip s)) := by
  induction s with
  | nil => exact ⟨[], by simp [Blank], rfl, .inl rfl⟩
  | cons c s ih =>
    by_cases hc : isSpace c = true
    · obtain ⟨ws, hws, hs, h⟩ := ih
      have hl : lstrip (c :: s) = lstrip s := List.dropWhile_cons_of_pos hc
      refine ⟨c :: ws, ?_, ?_, by rwa [hl]⟩
      · intro d hd
        rcases List.mem_cons.mp hd with rfl | hd
        · exact hc
        · exact hws d hd
      · rw [hl, List.cons_append, ← hs]
    · have hs : Starts (c :: s) := ⟨c, s, rfl, by simpa using hc⟩
      exact ⟨[], by simp [Blank], by rw [hs.lstrip_eq]; rfl, .inr (by rwa [hs.lstrip_eq])⟩

theorem rstrip_eq_reverse (s : Text) : rstrip s = (lstrip s.reverse).reverse := rfl

theorem exists_rstrip (s : Text) :
    ∃ ws, Blank ws ∧ s = rstrip s ++ ws ∧ (rstrip s = [] ∨ Starts (rstrip s).reverse) := by
  obtain ⟨ws, hws, hs, h⟩ := exists_lstrip s.reverse
  refine ⟨ws.reverse, hws.reverse, ?_, ?_⟩
  · rw [rstrip_eq_reverse, ← List.reverse_append, ← hs, List.reverse_reverse]
  · rw [rstrip_eq_reverse, List.reverse_reverse]
    exact h.imp_left (by simp [·])

theorem exists_strip (s : Text) : ∃ ws ws', Blank ws ∧ Blank ws' ∧ s = ws ++ strip s ++ ws' := by
  obtain ⟨ws, hws, hs, -⟩ := exists_lstrip s
  obtain ⟨ws', hws', hs', -⟩ := exists_rstrip (lstrip s)
  exact ⟨ws, ws', hws, hws', by rw [strip, List.append_assoc, ← hs', ← hs]⟩

theorem rstrip_eq_nil_iff : rstrip s = [] ↔ Blank s := by
  constructor
  · intro h
    obtain ⟨ws, hws, hs, -⟩ := exists_rstrip s
    rw [h, List.nil_append] at hs
    exact hs ▸ hws
  · intro h
    have := rstrip_append_blank h []
    simpa [rstrip, rstripWhile] using this

theorem rstrip_append (ht : ¬ Blank t) : rstrip (s ++ t) = s ++ rstrip t := by
  obtain ⟨ws, hws, hs, h⟩ := exists_rstrip t
  have hstart : Starts (rstrip t).reverse := h.resolve_left fun hnil => ht (rstrip_eq_nil_iff.mp hnil)
  have hrev : lstrip ((rstrip t).reverse ++ s.reverse) = (rstrip t).reverse ++ s.reverse :=
    (hstart.append _).lstrip_eq
  calc rstrip (s ++ t) = rstrip (s ++ rstrip t ++ ws) := by rw [List.append_assoc, ← hs]
    _ = rstrip (s ++ rstrip t) := rstrip_append_blank hws _
    _ = (lstrip ((rstrip t).reverse ++ s.reverse)).reverse := by
      rw [rstrip_eq_reverse, List.reverse_append]
    _ = s ++ rstrip t := by
      rw [hrev, List.reverse_append, List.reverse_reverse, List.reverse_reverse]

/-- **White space around a text does not change what is stripped.** -/
theorem strip_pad {ws' : Text} (h : Blank ws) (h' : Blank ws') (s : Text) : strip (ws ++ s ++ ws') = strip s := by
  rw [strip, List.append_assoc, lstrip_blank_append h]
  by_cases hs : Blank s
  · have h₁ : rstrip (lstrip (s ++ ws')) = [] := by
      rw [rstrip_eq_nil_iff]
      obtain ⟨w, -, hw, -⟩ := exists_lstrip (s ++ ws')
      exact (hw ▸ hs.append h').of_append_right
    have h₂ : strip s = [] := by
      obtain ⟨w, -, hw, -⟩ := exists_lstrip s
      exact rstrip_eq_nil_iff.mpr (hw ▸ hs).of_append_right
    rw [h₁, h₂]
  · obtain ⟨w, hw, hs', hstart⟩ := exists_lstrip s
    have hstart : Starts (lstrip s) := hstart.resolve_left fun hnil => hs (by rw [hs', hnil, List.append_nil]; exact hw)
    have hl : lstrip (s ++ ws') = lstrip s ++ ws' := by
      conv_lhs => rw [hs', List.append_assoc, lstrip_blank_append hw]
      exact (hstart.append _).lstrip_eq
    rw [hl, rstrip_append_blank h', strip]

theorem strip_blank_append (h : Blank ws) (s : Text) : strip (ws ++ s) = strip s := by
  simpa using strip_pad h (show Blank [] by simp [Blank]) s

theorem strip_append_blank (h : Blank ws) (s : Text) : strip (s ++ ws) = strip s := by
  simpa using strip_pad (show Blank [] by simp [Blank]) h s

theorem strip_strip (s : Text) : strip (strip s) = strip s := by
  obtain ⟨ws, ws', hws, hws', hs⟩ := exists_strip s
  calc strip (strip s) = strip (ws ++ strip s ++ ws') := (strip_pad hws hws' _).symm
    _ = strip s := by rw [← hs]

theorem strip_eq_nil_iff : strip s = [] ↔ Blank s := by
  constructor
  · intro h
    obtain ⟨ws, ws', hws, hws', hs⟩ := exists_strip s
    rw [h, List.append_nil] at hs
    exact hs ▸ hws.append hws'
  · intro h
    simpa [strip, rstrip, rstripWhile, lstrip] using strip_append_blank h []

theorem Starts.strip_eq (h : Starts s) : strip s = rstrip s := by rw [strip, h.lstrip_eq]

theorem strip_head {c : Char} (hc : isSpace c = false) (s : Text) : ∃ t, strip (c :: s) = c :: t := by
  have hs : Starts (c :: s) := ⟨c, s, rfl, hc⟩
  obtain ⟨ws, hws, hsplit, h⟩ := exists_rstrip (c :: s)
  rw [hs.strip_eq]
  cases hr : rstrip (c :: s) with
  | nil => exact absurd (rstrip_eq_nil_iff.mp hr) hs.not_blank
  | cons d t =>
    rw [hr, List.cons_append, List.cons.injEq] at hsplit
    exact ⟨t, by rw [hsplit.1]⟩

/-- Stripping keeps every character that is no white space. -/
theorem mem_strip {c : Char} (hc : isSpace c = false) : c ∈ strip s ↔ c ∈ s := by
  obtain ⟨ws, ws', hws, hws', hs⟩ := exists_strip s
  constructor
  · intro h
    rw [hs]
    simp [h]
  · intro h
    rw [hs] at h
    simp only [List.mem_append] at h
    rcases h with (h | h) | h
    · simp [hws c h] at hc
    · exact h
    · simp [hws' c h] at hc

theorem length_strip_le (s : Text) : (strip s).length ≤ s.length := by
  obtain ⟨ws, ws', -, -, hs⟩ := exists_strip s
  have := congrArg List.length hs
  simp only [List.length_append] at this
  omega

/-! ### Cutting texts -/

/-- A text that begins outside of a class. -/
def Outside (p : Char → Bool) (s : Text) : Prop := ∃ c t, s = c :: t ∧ p c = false

theorem Outside.append (h : Outside p s) (t : Text) : Outside p (s ++ t) := by
  obtain ⟨c, u, rfl, hc⟩ := h
  exact ⟨c, u ++ t, rfl, hc⟩

/-- A run of a class that has no character of the other class. -/
theorem Outside.of_run {q : Char → Bool} (hne : s ≠ []) (hs : ∀ c ∈ s, q c = true)
    (hpq : ∀ c, q c = true → p c = false) : Outside p s := by
  obtain ⟨c, t, rfl⟩ := List.exists_cons_of_ne_nil hne
  exact ⟨c, t, rfl, hpq c (hs c (by simp))⟩

/-- **Two texts cut where a run of a class ends are cut at the same place.** -/
theorem run_inj {x x' : Text} (hx : ∀ c ∈ x, p c = true) (hx' : ∀ c ∈ x', p c = true)
    (hs : Outside p s) (hs' : Outside p s') (h : x ++ s = x' ++ s') : x = x' ∧ s = s' := by
  obtain ⟨a, t, rfl, ha⟩ := hs
  obtain ⟨b, t', rfl, hb⟩ := hs'
  induction x generalizing x' with
  | nil =>
    cases x' with
    | nil => simpa using h
    | cons d x' =>
      simp only [List.nil_append, List.cons_append, List.cons.injEq] at h
      simp [h.1, hx' d (by simp)] at ha
  | cons c x ih =>
    cases x' with
    | nil =>
      simp only [List.nil_append, List.cons_append, List.cons.injEq] at h
      simp [← h.1, hx c (by simp)] at hb
    | cons d x' =>
      simp only [List.cons_append, List.cons.injEq] at h
      obtain ⟨rfl, h⟩ := h
      obtain ⟨hxx, hss⟩ := ih (fun e he => hx e (by simp [he])) (fun e he => hx' e (by simp [he])) h
      exact ⟨by rw [hxx], hss⟩

/-- Two texts cut at the first place of a character are cut at the same place. -/
theorem first_inj {a : Char} {x x' : Text} (hx : a ∉ x) (hx' : a ∉ x') (h : x ++ a :: s = x' ++ a :: s') :
    x = x' ∧ s = s' := by
  have hout : ∀ t : Text, Outside (· != a) (a :: t) := fun t => ⟨a, t, rfl, by simp⟩
  have hin : ∀ {y : Text}, a ∉ y → ∀ c ∈ y, (c != a) = true := by
    intro y hy c hc
    simp only [bne_iff_ne, ne_eq]
    rintro rfl
    exact hy hc
  obtain ⟨hxx, hss⟩ := run_inj (p := (· != a)) (hin hx) (hin hx') (hout s) (hout s') h
  exact ⟨hxx, by simpa using hss⟩

/-- Two texts cut at the last place of a character are cut at the same place. -/
theorem last_inj {a : Char} {x x' : Text} (hs : a ∉ s) (hs' : a ∉ s') (h : x ++ a :: s = x' ++ a :: s') :
    x = x' ∧ s = s' := by
  have h := congrArg List.reverse h
  simp only [List.reverse_append, List.reverse_cons, List.append_assoc, List.singleton_append] at h
  obtain ⟨h₁, h₂⟩ := first_inj (by simpa using hs) (by simpa using hs') h
  exact ⟨List.reverse_injective h₂, List.reverse_injective h₁⟩

theorem not_mem_of_class {a : Char} (hs : ∀ c ∈ s, p c = true) (ha : p a = false) :
    a ∉ s := fun h => by simp [hs a h] at ha

/-- A word after white space. -/
theorem word_inj {w w' word : Text} (hw : Blank w) (hw' : Blank w') (hword : Starts word)
    (h : w ++ (word ++ s) = w' ++ (word ++ s')) : s = s' := by
  have hout : ∀ t : Text, Outside isSpace (word ++ t) := fun t => Outside.append hword t
  exact List.append_cancel_left (run_inj hw hw' (hout s) (hout s') h).2

/-! ### Decimal numbers -/

/-- The zeros of the scripts that have decimal digits; the other nine follow each of them. -/
def decimalZeros : List ℕ :=
  [0x30, 0x660, 0x6F0, 0x7C0, 0x966, 0x9E6, 0xA66, 0xAE6, 0xB66, 0xBE6, 0xC66, 0xCE6, 0xD66, 0xDE6, 0xE50,
    0xED0, 0xF20, 0x1040, 0x1090, 0x17E0, 0x1810, 0x1946, 0x19D0, 0x1A80, 0x1A90, 0x1B50, 0x1BB0, 0x1C40,
    0x1C50, 0xA620, 0xA8D0, 0xA900, 0xA9D0, 0xA9F0, 0xAA50, 0xABF0, 0xFF10, 0x104A0, 0x10D30, 0x11066,
    0x110F0, 0x11136, 0x111D0, 0x112F0, 0x11450, 0x114D0, 0x11650, 0x116C0, 0x11730, 0x118E0, 0x11950,
    0x11C50, 0x11D50, 0x11DA0, 0x11F50, 0x16A60, 0x16AC0, 0x16B50, 0x1D7CE, 0x1D7D8, 0x1D7E2, 0x1D7EC,
    0x1D7F6, 0x1E140, 0x1E2F0, 0x1E4F0, 0x1E950, 0x1FBF0]

/-- The value of a decimal digit of any script. -/
def decimalValue (c : Char) : Option ℕ :=
  (decimalZeros.find? fun z => z ≤ c.toNat && c.toNat < z + 10).map (c.toNat - ·)

/-- `\d` of a pattern, and what `int` accepts. -/
def isDecimal (c : Char) : Bool := (decimalValue c).isSome

/-- `int(text)`, of a text of decimal digits. -/
def toInt (s : Text) : ℕ := s.foldl (fun n c => 10 * n + (decimalValue c).getD 0) 0

/-- `str` of a natural number. -/
def digits (n : ℕ) : Text := Nat.toDigits 10 n

/-- The codes of the white space. -/
def spaceCodes : List ℕ :=
  [9, 10, 11, 12, 13, 28, 29, 30, 31, 32, 0x85, 0xA0, 0x1680, 0x2000, 0x2001, 0x2002, 0x2003, 0x2004, 0x2005,
    0x2006, 0x2007, 0x2008, 0x2009, 0x200A, 0x2028, 0x2029, 0x202F, 0x205F, 0x3000]

theorem mem_spaceCodes {c : Char} (h : isSpace c = true) : c.toNat ∈ spaceCodes := by
  simp only [isSpace, Bool.or_eq_true, Bool.and_eq_true, decide_eq_true_eq, beq_iff_eq] at h
  simp only [spaceCodes, List.mem_cons, List.not_mem_nil, or_false]
  omega

/-- White space is no digit. -/
theorem isDecimal_of_isSpace {c : Char} (h : isSpace c = true) : isDecimal c = false := by
  have hall : ∀ n ∈ spaceCodes, (decimalZeros.find? fun z => z ≤ n && n < z + 10) = none := by decide
  simp [isDecimal, decimalValue, hall _ (mem_spaceCodes h)]

theorem isSpace_of_isDecimal {c : Char} (h : isDecimal c = true) : isSpace c = false := by
  by_contra hc
  simp [isDecimal_of_isSpace (by simpa using hc)] at h

/-- A number after white space. -/
theorem number_inj {w w' n n' : Text} (hw : Blank w) (hw' : Blank w') (hne : n ≠ []) (hne' : n' ≠ [])
    (hn : ∀ c ∈ n, isDecimal c = true) (hn' : ∀ c ∈ n', isDecimal c = true) (hs : Outside isDecimal s)
    (hs' : Outside isDecimal s') (h : w ++ (n ++ s) = w' ++ (n' ++ s')) : n = n' ∧ s = s' := by
  have hout : ∀ {m : Text}, m ≠ [] → (∀ c ∈ m, isDecimal c = true) → ∀ t, Outside isSpace (m ++ t) :=
    fun hm hd t => (Outside.of_run hm hd fun _ hc => isSpace_of_isDecimal hc).append t
  exact run_inj hn hn' hs hs' (run_inj hw hw' (hout hne hn s) (hout hne' hn' s') h).2

theorem decimalValue_of_isDigit {c : Char} (h : c.isDigit = true) : decimalValue c = some (c.toNat - '0'.toNat) := by
  have h : 48 ≤ c.toNat ∧ c.toNat ≤ 57 := by
    simp only [Char.isDigit, Bool.and_eq_true, decide_eq_true_eq, ge_iff_le, UInt32.le_iff_toNat_le] at h
    exact h
  have hfind : decimalZeros.find? (fun z => z ≤ c.toNat && c.toNat < z + 10) = some 0x30 := by
    rw [decimalZeros, List.find?_cons_of_pos]
    simp only [Bool.and_eq_true, decide_eq_true_eq]
    omega
  rw [decimalValue, hfind]
  rfl

theorem isDigit_of_mem_digits {n : ℕ} {c : Char} (h : c ∈ digits n) : c.isDigit = true :=
  Nat.isDigit_of_mem_toDigits (by decide) (by decide) h

theorem isDecimal_of_mem_digits {n : ℕ} {c : Char} (h : c ∈ digits n) : isDecimal c = true := by
  simp [isDecimal, decimalValue_of_isDigit (isDigit_of_mem_digits h)]

theorem digits_ne_nil (n : ℕ) : digits n ≠ [] := Nat.toDigits_ne_nil

/-- **A printed number is read back.** -/
theorem toInt_digits (n : ℕ) : toInt (digits n) = n := by
  have hfold : ∀ (s : Text) (k : ℕ), (∀ c ∈ s, c.isDigit = true) →
      s.foldl (fun n c => 10 * n + (decimalValue c).getD 0) k = Nat.ofDigitChars 10 s k := by
    intro s
    induction s with
    | nil => intro k _; rfl
    | cons c s ih =>
      intro k hs
      rw [List.foldl_cons, ih _ fun d hd => hs d (by simp [hd]), decimalValue_of_isDigit (hs c (by simp))]
      rfl
  rw [toInt, hfold _ _ fun c hc => isDigit_of_mem_digits hc]
  exact Nat.ofDigitChars_ten_toDigits

end Sreda.Lib.PyText
