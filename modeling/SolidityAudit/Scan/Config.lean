import SolidityAudit.Severity
import SolidityAudit.Validation.Field
import SolidityAudit.Vulnerability

/-!
# Configuration of a scan
-/

namespace SolidityAudit

structure ScanConfig where
  /-- The kinds of vulnerability to look for; `none` stands for all of them. -/
  detectors : Option (List String) := none
  parallel : Bool := true
  minSeverity : Severity := .info
  maxFindings : Option Nat := none
  deduplicate : Bool := true
  maxSourceBytes : Nat := 1024 * 1024
deriving DecidableEq

namespace ScanConfig

/-- Refuses kinds for which there is no detector. -/
def checkKinds (kinds : Option (List String)) : Checked (Option (List String)) :=
  match kinds with
  | none => .ok none
  | some names =>
    let unknown := names.filter fun n => !(Vulnerability.detectable.map (·.tag)).contains n
    if unknown.isEmpty then .ok (some names)
    else .fail (.rejected ("Unknown detector type(s): " ++ ", ".intercalate unknown))

def load : Json → Checked ScanConfig :=
  Checked.record fun ms =>
    let kinds (v : Json) := (Checked.nullable (Checked.list Checked.text) v).andThen checkKinds
    ScanConfig.mk <$> Checked.optional ms ["detectors"] kinds none
      <*> Checked.optional ms ["parallel_detectors"] Checked.truth true
      <*> Checked.optional ms ["min_severity"] (Checked.choice Severity.ofTag?) .info
      <*> Checked.optional ms ["max_findings"] (Checked.nullable Checked.natural) none
      <*> Checked.optional ms ["deduplicate"] Checked.truth true
      <*> Checked.optional ms ["max_source_bytes"] Checked.aboveZero (1024 * 1024)

end ScanConfig
end SolidityAudit
