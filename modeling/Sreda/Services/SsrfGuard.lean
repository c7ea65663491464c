import Mathlib
import Sreda.Lib.PyText

/-!
# The check of a host before a fetch

`validate_components` and what it calls, on texts as lists of characters, with the reader of
addresses of Python's `ipaddress`. Parameters are what Unicode and IANA decide: the digits and
the lower case outside ASCII, and `is_global`.

`NumericHost` is the syntax that resolvers read as an IPv4 address: one to four parts, each
decimal, octal or hexadecimal. The ranges of the parts are left out, so that the syntax has
more hosts than a resolver accepts.
-/

namespace Sreda.Services

open Sreda.Lib Sreda.Lib.PyText

/-! ## Addresses -/

/-- An address, by its number. -/
inductive IpAddress where
  | v4 (n : ℕ)
  | v6 (n : ℕ)
  deriving DecidableEq

/-- A network of one of the two versions, with the length of its mask. -/
structure IpNetwork where
  address : IpAddress
  masklen : ℕ
  deriving DecidableEq

/-- `ip in net`: addresses of another version are in no network. -/
def IpNetwork.contains (net : IpNetwork) : IpAddress → Bool
  | .v4 n =>
    match net.address with
    | .v4 base => n / 2 ^ (32 - net.masklen) == base / 2 ^ (32 - net.masklen)
    | .v6 _ => false
  | .v6 n =>
    match net.address with
    | .v6 base => n / 2 ^ (128 - net.masklen) == base / 2 ^ (128 - net.masklen)
    | .v4 _ => false

def isHexDigit (c : Char) : Bool := c.isDigit || ('a' ≤ c && c ≤ 'f') || ('A' ≤ c && c ≤ 'F')

section Guard

variable (tables : HostTables)

end Guard

/-! ## Numeric hosts -/

/-- A part of a numeric IPv4 address. -/
inductive NumericPart : Text → Prop where
  | zero : NumericPart ['0']
  | decimal {c : Char} {digits : Text} (hc : c.isDigit) (h0 : c ≠ '0') (h : digits.all Char.isDigit) :
    NumericPart (c :: digits)
  | octal {digits : Text} (h : ∀ c ∈ digits, c.isDigit ∧ c ≠ '8' ∧ c ≠ '9') : NumericPart ('0' :: digits)
  | hex {x : Char} {digits : Text} (hx : x = 'x' ∨ x = 'X') (hne : digits ≠ []) (h : digits.all isHexDigit) :
    NumericPart ('0' :: x :: digits)

variable {c : Char} {address p : Text} {parts : List Text} {scheme : String} {port : Option ℤ} {hasUserinfo : Bool}

theorem NumericPart.ne_nil (h : NumericPart p) : p ≠ [] := by
  cases h <;> simp

/-- The characters of a part: digits, and letters of hexadecimal numbers. -/
def PartChar (c : Char) : Prop :=
  48 ≤ c.toNat ∧ c.toNat ≤ 57 ∨ 97 ≤ c.toNat ∧ c.toNat ≤ 102 ∨ 65 ≤ c.toNat ∧ c.toNat ≤ 70 ∨ c.toNat = 120 ∨
    c.toNat = 88

theorem PartChar.ne {d : Char} (h : PartChar c) (hd : d.toNat < 48 ∨ d.toNat = 58) : c ≠ d := by
  rintro rfl
  simp only [PartChar] at h
  omega

section Accepted

variable {tables : HostTables}

end Accepted

end Sreda.Services
