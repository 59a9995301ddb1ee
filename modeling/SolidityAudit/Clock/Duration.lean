/-!
# Durations

A duration is a number of microseconds. It is written as days, if there are any, then hours, minutes
and seconds, then microseconds if there are any. Days are rounded down, so the rest is not negative.
-/

namespace SolidityAudit.Duration

def padded (width n : Nat) : String :=
  let digits := Nat.toDigits 10 n
  String.ofList (List.replicate (width - digits.length) '0' ++ digits)

def daysText (days : Int) : String :=
  if days = 0 then ""
  else toString days ++ (if days.natAbs = 1 then " day, " else " days, ")

def text (microseconds : Int) : String :=
  let days := microseconds.fdiv 86400000000
  let rest := (microseconds.fmod 86400000000).toNat
  let seconds := rest / 1000000
  let fraction := rest % 1000000
  daysText days ++ toString (seconds / 3600) ++ ":" ++ padded 2 (seconds / 60 % 60) ++ ":" ++
    padded 2 (seconds % 60) ++ (if fraction = 0 then "" else "." ++ padded 6 fraction)

/-- The duration of a scan as its summary shows it; without an end, and with none, it is said to be
in progress. -/
def shown (elapsed : Option Int) : String :=
  match elapsed with
  | some n => if n = 0 then "In progress" else text n
  | none => "In progress"

end SolidityAudit.Duration
