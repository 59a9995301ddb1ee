import SolidityAudit.Command.Arguments
import SolidityAudit.Number.Numeral
import SolidityAudit.Severity
import SolidityAudit.Text.Basic
import SolidityAudit.Vulnerability

/-!
# Options of the commands
-/

namespace SolidityAudit.Command

inductive Format where
  | summary
  | json
deriving DecidableEq

namespace Format

def ofName? : String → Option Format
  | "summary" => some summary
  | "json" => some json
  | _ => none

end Format

structure ScanOptions where
  input : String
  /-- The kinds of vulnerability to look for; if there are none, the enabled ones. -/
  detectors : List String := []
  minSeverity : Severity := .info
  maxFindings : Option Nat := none
  format : Format := .summary
  output : Option String := none
  sequential : Bool := false
  failOnCritical : Bool := false

/-- The value of digits after a value, between which single underscores may stand; `digit` tells
whether a digit came last. -/
def decimalFrom : List Char → Nat → Bool → Option Nat
  | [], n, digit => if digit then some n else none
  | c :: rest, n, digit =>
    if Text.isDecimal c then decimalFrom rest (10 * n + Text.decimalValue c) true
    else if c == '_' && digit then decimalFrom rest n false
    else none

/-- A number that is not negative: digits of any script with a sign, and blanks around them. -/
def natural? (text : String) : Option Nat :=
  let (negative, digits) := match Text.strip text.toList with
    | '-' :: rest => (true, rest)
    | '+' :: rest => (false, rest)
    | rest => (false, rest)
  if Numeral.maxDigits < digits.countP Text.isDecimal then none
  else match decimalFrom digits 0 false with
    | some n => if negative && n != 0 then none else some n
    | none => none

/-- A path without empty steps and steps that stay in place. -/
def tidyPath (path : String) : String :=
  let steps := (path.splitOn "/").filter fun s => s != "" && s != "."
  let joined := "/".intercalate steps
  match path.toList with
  | '/' :: '/' :: '/' :: _ => "/" ++ joined
  | '/' :: '/' :: _ => "//" ++ joined
  | '/' :: _ => "/" ++ joined
  | _ => if joined == "" then "." else joined

def readOptional {α : Type} (read : String → Option α) : Option String → Option (Option α)
  | none => some none
  | some text => (read text).map some

namespace ScanOptions

def specs : List OptionSpec := [
  { long := "--detector", short := some 'd' },
  { long := "--min-severity" },
  { long := "--max-findings" },
  { long := "--format", short := some 'f' },
  { long := "--output", short := some 'o' },
  { long := "--sequential", takesValue := false },
  { long := "--fail-on-critical", takesValue := false },
  { long := "--help", takesValue := false }]

def ofReading? (r : Reading) : Option ScanOptions := do
  let [input] := r.words | none
  let detectors := r.valuesOf "--detector"
  if detectors.any fun d => !(Vulnerability.detectable.map (·.tag)).contains d then none
  let severity ← readOptional Severity.ofTag? (r.lastValue? "--min-severity")
  let limit ← readOptional natural? (r.lastValue? "--max-findings")
  let format ← readOptional Format.ofName? (r.lastValue? "--format")
  return {
    input := tidyPath input
    detectors := detectors
    minSeverity := severity.getD .info
    maxFindings := limit
    format := format.getD .summary
    output := (r.lastValue? "--output").map tidyPath
    sequential := r.has "--sequential"
    failOnCritical := r.has "--fail-on-critical" }

end ScanOptions

def commonSpecs : List OptionSpec := [
  { long := "--version", takesValue := false },
  { long := "--debug", takesValue := false },
  { long := "--help", takesValue := false }]

def helpSpecs : List OptionSpec := [{ long := "--help", takesValue := false }]

end SolidityAudit.Command
