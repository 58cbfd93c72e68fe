/-!
# Moments

A point in time is the count of milliseconds since the start of 1970. `Moment.text` writes it as
a date and a time of day: in one form of fixed width, which sorts by time, up to the year 9999, and
with a sign and six digits for a later year. No clock counts beyond the year 275760.
-/

namespace ChangeGate

/-- Milliseconds since the start of 1970. -/
structure Moment where
  milliseconds : Nat
deriving DecidableEq, Inhabited

namespace Moment

/-- A number in at least `width` digits. -/
def padded (width n : Nat) : String :=
  let digits := Nat.toDigits 10 n
  String.ofList (List.replicate (width - digits.length) '0' ++ digits)

/-- **Year, month and day of a count of days** since the start of 1970. Years are taken to start
in March, so that the leap day is the last one of a year, and are counted in periods of 400. -/
def date (days : Nat) : Nat × Nat × Nat :=
  let shifted := days + 719468
  let period := shifted / 146097
  let dayOfPeriod := shifted % 146097
  let yearOfPeriod :=
    (dayOfPeriod - dayOfPeriod / 1460 + dayOfPeriod / 36524 - dayOfPeriod / 146096) / 365
  let dayOfYear := dayOfPeriod - (365 * yearOfPeriod + yearOfPeriod / 4 - yearOfPeriod / 100)
  let march := (5 * dayOfYear + 2) / 153
  let day := dayOfYear - (153 * march + 2) / 5 + 1
  let month := if march < 10 then march + 3 else march - 9
  let year := yearOfPeriod + period * 400 + (if month ≤ 2 then 1 else 0)
  (year, month, day)

/-- A year in four digits, or in six behind a sign if four are too few. -/
def yearText (year : Nat) : String :=
  if year < 10000 then padded 4 year else "+" ++ padded 6 year

/-- **A moment as text:** date and time of day in universal time, to the millisecond. -/
def text (m : Moment) : String :=
  let (year, month, day) := date (m.milliseconds / 86400000)
  let time := m.milliseconds % 86400000
  yearText year ++ "-" ++ padded 2 month ++ "-" ++ padded 2 day ++ "T" ++
    padded 2 (time / 3600000) ++ ":" ++ padded 2 (time / 60000 % 60) ++ ":" ++
    padded 2 (time / 1000 % 60) ++ "." ++ padded 3 (time % 1000) ++ "Z"

end Moment

end ChangeGate
