/-!
# Instants

A clock reading is a number of milliseconds since the start of 1970 in universal time. Its text
gives the date of the proleptic Gregorian calendar and the time of day.
-/

namespace SolidityAudit

/-- A clock reading, in milliseconds since the start of 1970. -/
abbrev Instant := Int

namespace Instant

/-- A number in decimal digits with zeros in front up to the width. -/
def padded (width n : Nat) : String :=
  let digits := toString n
  String.ofList (List.replicate (width - digits.length) '0') ++ digits

/-- The year, month and day of a day that is counted from the start of 1970. Years are taken to
begin in March, so that a leap day ends its year. -/
def date (day : Int) : Int × Nat × Nat :=
  let shifted := day + 719468
  let era := Int.fdiv shifted 146097
  let dayOfEra := (shifted - era * 146097).toNat
  let yearOfEra :=
    (dayOfEra - dayOfEra / 1460 + dayOfEra / 36524 - dayOfEra / 146096) / 365
  let dayOfYear := dayOfEra - (365 * yearOfEra + yearOfEra / 4 - yearOfEra / 100)
  let march := (5 * dayOfYear + 2) / 153
  let month := if march < 10 then march + 3 else march - 9
  let year := (yearOfEra : Int) + era * 400 + (if month ≤ 2 then 1 else 0)
  (year, month, dayOfYear - (153 * march + 2) / 5 + 1)

/-- An instant as text; whole seconds have no fraction. -/
def text (t : Instant) : String :=
  let day := Int.fdiv t 86400000
  let ms := (t - day * 86400000).toNat
  let (year, month, dayOfMonth) := date day
  let seconds := ms / 1000
  padded 4 year.toNat ++ "-" ++ padded 2 month ++ "-" ++ padded 2 dayOfMonth ++ "T"
    ++ padded 2 (seconds / 3600) ++ ":" ++ padded 2 (seconds / 60 % 60) ++ ":"
    ++ padded 2 (seconds % 60)
    ++ (if ms % 1000 = 0 then "" else "." ++ padded 6 (ms % 1000 * 1000))
    ++ "+00:00"

end Instant

end SolidityAudit
