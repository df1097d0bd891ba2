import StableSupply.Time

/-! # Civil dates

Unix seconds as a date and a time of day in the Gregorian calendar, extended to all years. -/

namespace StableSupply

/-- A minute of the proleptic Gregorian calendar, in universal time. -/
structure CivilTime where
  year : Int
  month : Nat
  day : Nat
  hour : Nat
  minute : Nat
  deriving DecidableEq, Repr

namespace CivilTime

/-- The date of a day counted from 1 January 1970. Years begin in March here, so that a leap day is
the last of its year, and 400 of them make an era. -/
def dateOfDay (day : Int) : Int × Nat × Nat :=
  let shifted := day + 719468
  let era := shifted / 146097
  let dayOfEra := (shifted % 146097).toNat
  let yearOfEra := (dayOfEra - dayOfEra / 1460 + dayOfEra / 36524 - dayOfEra / 146096) / 365
  let dayOfYear := dayOfEra - (365 * yearOfEra + yearOfEra / 4 - yearOfEra / 100)
  let marchMonth := (5 * dayOfYear + 2) / 153
  let dayOfMonth := dayOfYear - (153 * marchMonth + 2) / 5 + 1
  let month := if marchMonth < 10 then marchMonth + 3 else marchMonth - 9
  let year := yearOfEra + era * 400
  (if month ≤ 2 then year + 1 else year, month, dayOfMonth)

/-- The minute that a number of seconds since the start of 1970 falls into. -/
def ofUnix (seconds : Int) : CivilTime :=
  let (year, month, day) := dateOfDay (seconds / 86400)
  let second := (seconds % 86400).toNat
  { year, month, day, hour := second / 3600, minute := second / 60 % 60 }

/-- At least four digits, with a sign outside the years 0 to 9999. -/
def yearText (year : Int) : String :=
  if year < 0 then "-" ++ padded 4 year.natAbs
  else if year ≤ 9999 then padded 4 year.toNat
  else "+" ++ padded 4 year.toNat

end CivilTime

end StableSupply
