import Mathlib.Data.Int.Basic

/-!
# Instants as text

Instants are microseconds since the epoch, in UTC.
-/

namespace Sreda.Workers

/-- A number with leading zeros. -/
def padded (width : ℕ) (n : ℤ) : String :=
  let digits := Nat.toDigits 10 n.toNat
  String.ofList (List.replicate (width - digits.length) '0' ++ digits)

/-- Year, month and day of a day counted from the epoch. -/
def civil (day : ℤ) : ℤ × ℤ × ℤ :=
  let z := day + 719468
  let era := z / 146097
  let doe := z % 146097
  let yoe := (doe - doe / 1460 + doe / 36524 - doe / 146096) / 365
  let doy := doe - (365 * yoe + yoe / 4 - yoe / 100)
  let mp := (5 * doy + 2) / 153
  let month := if mp < 10 then mp + 3 else mp - 9
  (yoe + era * 400 + (if month ≤ 2 then 1 else 0), month, doy - (153 * mp + 2) / 5 + 1)

/-- `datetime.isoformat` of an instant in UTC. -/
def isoformat (t : ℤ) : String :=
  let seconds := t / 1000000
  let (year, month, day) := civil (seconds / 86400)
  let time := seconds % 86400
  let fraction := if t % 1000000 = 0 then "" else "." ++ padded 6 (t % 1000000)
  padded 4 year ++ "-" ++ padded 2 month ++ "-" ++ padded 2 day ++ "T" ++ padded 2 (time / 3600) ++ ":" ++
    padded 2 (time / 60 % 60) ++ ":" ++ padded 2 (time % 60) ++ fraction ++ "+00:00"

end Sreda.Workers
