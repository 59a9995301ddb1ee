import SolidityAudit.Arithmetic.Detector
import SolidityAudit.Authorization.Detector
import SolidityAudit.CriticalState.Detector
import SolidityAudit.Pricing.FlashLoanDetector
import SolidityAudit.Pricing.OracleDetector
import SolidityAudit.Reentrancy.Detector
import SolidityAudit.Report.Basic

/-!
# The registry of detectors

Detectors are registered one after another and run in this order. A detector that fails gives a
failed outcome and does not disturb the others.
-/

namespace SolidityAudit

/-- The detectors in the order of their registration. -/
structure Registry where
  detectors : List Detector

namespace Detector

def run (d : Detector) (u : SourceUnit) : Outcome :=
  match d.analyze u with
  | .ok findings =>
    { detectorName := d.name, vulnerability := d.vulnerability.tag, status := .success,
      findings := findings }
  | .error failure =>
    { detectorName := d.name, vulnerability := d.vulnerability.tag, status := .failed,
      error := some failure.description }

end Detector

namespace Registry

def standard : Registry :=
  ⟨[Reentrancy.detector, Authorization.detector, Arithmetic.detector, CriticalState.detector,
    Pricing.flashLoanDetector, Pricing.oracleDetector]⟩

/-- The registry itself, or the standard one in place of an empty one. -/
def orStandard (r : Registry) : Registry := if r.detectors.isEmpty then standard else r

def size (r : Registry) : Nat := r.detectors.length

def register (r : Registry) (d : Detector) : Registry := ⟨r.detectors ++ [d]⟩

def byKind? (r : Registry) (tag : String) : Option Detector :=
  r.detectors.find? fun d => d.vulnerability.tag == tag

def bySwc (r : Registry) (swcId : Option String) : List Detector :=
  r.detectors.filter fun d => d.swcId == swcId

def select (r : Registry) (kinds : Option (List String)) : List Detector :=
  match kinds with
  | none => r.detectors
  | some tags => r.detectors.filter fun d => tags.contains d.vulnerability.tag

def outcomes (r : Registry) (u : SourceUnit) (kinds : Option (List String)) : List Outcome :=
  (r.select kinds).map (·.run u)

def findings (r : Registry) (u : SourceUnit) (kinds : Option (List String)) : List Finding :=
  (r.outcomes u kinds).flatMap (·.findings)

end Registry
end SolidityAudit
