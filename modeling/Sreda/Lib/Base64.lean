import Mathlib.Tactic.Ring

/-!
# Bytes as text

Base64 in its url-safe form, hexadecimal digits and UTF-8, as Python reads and writes them. The decoder is that of
`binascii.a2b_base64` in its default mode: it passes over characters that are not of the alphabet, and stops at the
padding that completes a group.

What is encoded decodes to itself (`decode_encode`, `utf8Decode_utf8`), and an encoded text is made of the characters of
the alphabet (`not_mem_encode`).
-/

namespace Sreda.Lib

abbrev Bytes := List UInt8

/-! ### Base64 -/

namespace Base64

/-- The character for a sextet. -/
def sextetChar (n : ℕ) : Char :=
  if n < 26 then Char.ofNat ('A'.toNat + n)
  else if n < 52 then Char.ofNat ('a'.toNat + (n - 26))
  else if n < 62 then Char.ofNat ('0'.toNat + (n - 52))
  else if n = 62 then '-' else '_'

/-- The sextet of a character. -/
def sextet? (c : Char) : Option ℕ :=
  if 'A' ≤ c ∧ c ≤ 'Z' then some (c.toNat - 'A'.toNat)
  else if 'a' ≤ c ∧ c ≤ 'z' then some (c.toNat - 'a'.toNat + 26)
  else if '0' ≤ c ∧ c ≤ '9' then some (c.toNat - '0'.toNat + 52)
  else if c = '+' ∨ c = '-' then some 62
  else if c = '/' ∨ c = '_' then some 63
  else none

/-- `urlsafe_b64encode`. -/
def encode : Bytes → List Char
  | [] => []
  | [a] => [sextetChar (a.toNat / 4), sextetChar (a.toNat % 4 * 16), '=', '=']
  | [a, b] => [sextetChar (a.toNat / 4), sextetChar (a.toNat % 4 * 16 + b.toNat / 16), sextetChar (b.toNat % 16 * 4), '=']
  | a :: b :: c :: rest =>
    sextetChar (a.toNat / 4) :: sextetChar (a.toNat % 4 * 16 + b.toNat / 16) ::
      sextetChar (b.toNat % 16 * 4 + c.toNat / 64) :: sextetChar (c.toNat % 64) :: encode rest

/-- The decoder within a group: its place in the group, the bits left over, and the number of pads. -/
def decodeFrom : ℕ → ℕ → ℕ → List Char → Option Bytes
  | quadPos, _, _, [] => if quadPos = 0 then some [] else none
  | quadPos, left, pads, c :: cs =>
    if c = '=' then
      if 2 ≤ quadPos then
        -- this padding completes the group, and nothing after it is read
        if 4 ≤ quadPos + (pads + 1) then some [] else decodeFrom quadPos left (pads + 1) cs
      else decodeFrom quadPos left pads cs
    else match sextet? c with
      | none => decodeFrom quadPos left pads cs
      | some n =>
        match quadPos with
        | 0 => decodeFrom 1 n 0 cs
        | 1 => (decodeFrom 2 (n % 16) 0 cs).map (UInt8.ofNat (left * 4 + n / 16) :: ·)
        | 2 => (decodeFrom 3 (n % 4) 0 cs).map (UInt8.ofNat (left * 16 + n / 4) :: ·)
        | _ => (decodeFrom 0 0 0 cs).map (UInt8.ofNat (left * 64 + n) :: ·)

/-- `urlsafe_b64decode` of the text as ASCII. -/
def decode (text : List Char) : Option Bytes :=
  if text.all fun c => c.toNat < 128 then decodeFrom 0 0 0 text else none

theorem sextet_sextetChar : ∀ n < 64, sextet? (sextetChar n) = some n := by decide

theorem sextetChar_ne_pad : ∀ n < 64, sextetChar n ≠ '=' := by decide

theorem sextetChar_ascii : ∀ n < 64, (sextetChar n).toNat < 128 := by decide

section Groups

variable {n left pads : ℕ} (cs : List Char)

attribute [local simp] decodeFrom

/-- What the decoder does with the first to the fourth character of a group. -/
theorem decodeFrom_first (h : n < 64) : decodeFrom 0 left pads (sextetChar n :: cs) = decodeFrom 1 n 0 cs := by
  simp only [decodeFrom, if_neg (sextetChar_ne_pad n h), sextet_sextetChar n h]

theorem decodeFrom_second (h : n < 64) : decodeFrom 1 left pads (sextetChar n :: cs) =
    (decodeFrom 2 (n % 16) 0 cs).map (UInt8.ofNat (left * 4 + n / 16) :: ·) := by
  simp only [decodeFrom, if_neg (sextetChar_ne_pad n h), sextet_sextetChar n h]

theorem decodeFrom_third (h : n < 64) : decodeFrom 2 left pads (sextetChar n :: cs) =
    (decodeFrom 3 (n % 4) 0 cs).map (UInt8.ofNat (left * 16 + n / 4) :: ·) := by
  simp only [decodeFrom, if_neg (sextetChar_ne_pad n h), sextet_sextetChar n h]

theorem decodeFrom_fourth (h : n < 64) : decodeFrom 3 left pads (sextetChar n :: cs) =
    (decodeFrom 0 0 0 cs).map (UInt8.ofNat (left * 64 + n) :: ·) := by
  simp only [decodeFrom, if_neg (sextetChar_ne_pad n h), sextet_sextetChar n h]

end Groups

/-- A byte is put together from the parts that two sextets hold. -/
theorem ofNat_eq (a : UInt8) {n : ℕ} (h : n = a.toNat) : UInt8.ofNat n = a := by
  rw [h, UInt8.ofNat_toNat]

theorem decodeFrom_encode (bytes : Bytes) : decodeFrom 0 0 0 (encode bytes) = some bytes := by
  induction bytes using encode.induct with
  | case1 => rfl
  | case2 a =>
    have ha := a.toNat_lt
    rw [encode, decodeFrom_first _ (by omega), decodeFrom_second _ (by omega), ofNat_eq a (by omega)]
    rfl
  | case3 a b =>
    have ha := a.toNat_lt
    have hb := b.toNat_lt
    rw [encode, decodeFrom_first _ (by omega), decodeFrom_second _ (by omega), decodeFrom_third _ (by omega), ofNat_eq a (by omega),
      ofNat_eq b (by omega)]
    rfl
  | case4 a b c rest ih =>
    have ha := a.toNat_lt
    have hb := b.toNat_lt
    have hc := c.toNat_lt
    rw [encode, decodeFrom_first _ (by omega), decodeFrom_second _ (by omega), decodeFrom_third _ (by omega),
      decodeFrom_fourth _ (by omega), ih, ofNat_eq a (by omega), ofNat_eq b (by omega), ofNat_eq c (by omega)]
    rfl

/-- The characters of an encoded text are the padding and those of sextets. -/
theorem mem_encode {bytes : Bytes} {c : Char} (hc : c ∈ encode bytes) : c = '=' ∨ ∃ n < 64, c = sextetChar n := by
  induction bytes using encode.induct with
  | case1 => cases hc
  | case2 a =>
    have ha := a.toNat_lt
    simp only [encode, List.mem_cons, List.not_mem_nil, or_false] at hc
    rcases hc with rfl | rfl | rfl | rfl
    · exact .inr ⟨_, by omega, rfl⟩
    · exact .inr ⟨_, by omega, rfl⟩
    · exact .inl rfl
    · exact .inl rfl
  | case3 a b =>
    have ha := a.toNat_lt
    have hb := b.toNat_lt
    simp only [encode, List.mem_cons, List.not_mem_nil, or_false] at hc
    rcases hc with rfl | rfl | rfl | rfl
    · exact .inr ⟨_, by omega, rfl⟩
    · exact .inr ⟨_, by omega, rfl⟩
    · exact .inr ⟨_, by omega, rfl⟩
    · exact .inl rfl
  | case4 a b c rest ih =>
    have ha := a.toNat_lt
    have hb := b.toNat_lt
    have hc' := c.toNat_lt
    simp only [encode, List.mem_cons] at hc
    rcases hc with rfl | rfl | rfl | rfl | hc
    · exact .inr ⟨_, by omega, rfl⟩
    · exact .inr ⟨_, by omega, rfl⟩
    · exact .inr ⟨_, by omega, rfl⟩
    · exact .inr ⟨_, by omega, rfl⟩
    · exact ih hc

/-- **What is encoded** decodes to itself. -/
theorem decode_encode (bytes : Bytes) : decode (encode bytes) = some bytes := by
  have hascii : (encode bytes).all (fun c => c.toNat < 128) = true := by
    refine List.all_eq_true.mpr fun c hc => ?_
    rcases mem_encode hc with rfl | ⟨n, hn, rfl⟩
    · decide
    · simpa using sextetChar_ascii n hn
  rw [decode, if_pos hascii, decodeFrom_encode]

/-- An encoded text has no character that is neither the padding nor that of a sextet. -/
theorem not_mem_encode {bytes : Bytes} {c : Char} (hpad : c ≠ '=') (hc : sextet? c = none) : c ∉ encode bytes := by
  intro hmem
  rcases mem_encode hmem with rfl | ⟨n, hn, rfl⟩
  · exact hpad rfl
  · rw [sextet_sextetChar n hn] at hc
    cases hc

end Base64

/-! ### Hexadecimal digits -/

/-- The value of a hexadecimal digit. -/
def hexDigit? (c : Char) : Option ℕ :=
  if '0' ≤ c ∧ c ≤ '9' then some (c.toNat - '0'.toNat)
  else if 'a' ≤ c ∧ c ≤ 'f' then some (c.toNat - 'a'.toNat + 10)
  else if 'A' ≤ c ∧ c ≤ 'F' then some (c.toNat - 'A'.toNat + 10)
  else none

/-- `bytes.fromhex`: blanks may stand between the bytes. -/
def fromHex : List Char → Option Bytes
  | [] => some []
  | c :: cs =>
    if c = ' ' ∨ ('\t' ≤ c ∧ c ≤ '\r') then fromHex cs
    else match cs with
      | [] => none
      | d :: rest =>
        match hexDigit? c, hexDigit? d with
        | some high, some low => (fromHex rest).map (UInt8.ofNat (16 * high + low) :: ·)
        | _, _ => none

/-! ### UTF-8 -/

/-- `text.encode("utf-8")`. -/
def utf8 (text : String) : Bytes := text.toByteArray.data.toList

/-- `data.decode("utf-8")`. -/
def utf8Decode (data : Bytes) : Option String := String.fromUTF8? ⟨data.toArray⟩

/-- **The bytes of a text** decode to it. -/
theorem utf8Decode_utf8 (text : String) : utf8Decode (utf8 text) = some text := by
  have hvalid : text.toByteArray.IsValidUTF8 := text.isValidUTF8
  unfold utf8Decode utf8 String.fromUTF8?
  rw [Array.toArray_toList, dif_pos hvalid]
  rfl

end Sreda.Lib
