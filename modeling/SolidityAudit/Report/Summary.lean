import SolidityAudit.Finding.Basic
import SolidityAudit.Validation.Field

/-!
# Summaries

A summary counts findings by severity, by kind of vulnerability and by SWC entry, the last two in
the order of first occurrence.
-/

namespace SolidityAudit

structure Summary where
  total : Int := 0
  critical : Int := 0
  high : Int := 0
  medium : Int := 0
  low : Int := 0
  info : Int := 0
  byType : List (String × Int) := []
  bySwc : List (String × Int) := []
  failedDetectors : List String := []
deriving DecidableEq

namespace Summary

/-- Counts one more occurrence. A name that was counted before keeps its place. -/
def countOne : List (String × Int) → String → List (String × Int)
  | [], name => [(name, 1)]
  | (n, k) :: rest, name =>
    if n == name then (n, k + 1) :: rest else (n, k) :: countOne rest name

def tally (names : List String) : List (String × Int) :=
  names.foldl countOne []

def countSeverity (findings : List Finding) (s : Severity) : Int :=
  (findings.filter fun f => f.severity == s).length

def swcOf? (f : Finding) : Option String := f.swcId.filter (· != "")

def ofFindings (findings : List Finding) (failed : List String) : Summary where
  total := findings.length
  critical := countSeverity findings .critical
  high := countSeverity findings .high
  medium := countSeverity findings .medium
  low := countSeverity findings .low
  info := countSeverity findings .info
  byType := tally (findings.map (·.vulnerability.tag))
  bySwc := tally (findings.filterMap swcOf?)
  failedDetectors := failed

def count (s : Summary) : Severity → Int
  | .critical => s.critical
  | .high => s.high
  | .medium => s.medium
  | .low => s.low
  | .info => s.info

def load : Json → Checked Summary :=
  Checked.record fun ms =>
    let counts (v : Json) := (Checked.mapping v).andThen (Checked.entries Checked.whole)
    Summary.mk <$> Checked.optional ms ["total"] Checked.whole 0
      <*> Checked.optional ms ["critical"] Checked.whole 0
      <*> Checked.optional ms ["high"] Checked.whole 0
      <*> Checked.optional ms ["medium"] Checked.whole 0
      <*> Checked.optional ms ["low"] Checked.whole 0
      <*> Checked.optional ms ["info"] Checked.whole 0
      <*> Checked.optional ms ["by_type"] counts []
      <*> Checked.optional ms ["by_swc"] counts []
      <*> Checked.optional ms ["failed_detectors"] (Checked.list Checked.text) []

end Summary
end SolidityAudit
