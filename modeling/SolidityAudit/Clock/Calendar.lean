import SolidityAudit.Clock.Duration

/-!
# Dates

The date and time of day, in universal time, of a number of seconds counted from the beginning of
1970.
-/

namespace SolidityAudit.Calendar

structure Date where
  year : Int
  month : Nat
  day : Nat
deriving DecidableEq

/-- The date of a number of days counted from the beginning of 1970. Years are counted from March, so
that a leap day is the last day of its year, in cycles of four hundred years. -/
def dateOfDays (days : Int) : Date :=
  let z := days + 719468
  let cycle := z.fdiv 146097
  let dayOfCycle := (z.fmod 146097).toNat
  let yearOfCycle :=
    (dayOfCycle - dayOfCycle / 1460 + dayOfCycle / 36524 - dayOfCycle / 146096) / 365
  let dayOfYear := dayOfCycle - (365 * yearOfCycle + yearOfCycle / 4 - yearOfCycle / 100)
  let fromMarch := (5 * dayOfYear + 2) / 153
  let day := dayOfYear - (153 * fromMarch + 2) / 5 + 1
  let month := if fromMarch < 10 then fromMarch + 3 else fromMarch - 9
  let year := yearOfCycle + 400 * cycle
  ⟨if month ≤ 2 then year + 1 else year, month, day⟩

/-- The date and time of a number of seconds, as in `1970-01-01T00:00:00`. -/
def timestamp (seconds : Int) : String :=
  let date := dateOfDays (seconds.fdiv 86400)
  let rest := (seconds.fmod 86400).toNat
  toString date.year ++ "-" ++ Duration.padded 2 date.month ++ "-" ++
    Duration.padded 2 date.day ++ "T" ++
    Duration.padded 2 (rest / 3600) ++ ":" ++ Duration.padded 2 (rest / 60 % 60) ++ ":" ++
    Duration.padded 2 (rest % 60)

end SolidityAudit.Calendar
