import SolidityAudit.Scan.Pool
import SolidityAudit.SourceUnit.Load

/-!
# Scans

A scan checks the unit and its size, runs the selected detectors and gives a report. A detector that
fails is recorded in the report.
-/

namespace SolidityAudit

inductive ScanRefusal where
  | malformed (faults : List Fault)
  | tooLarge (size limit : Nat)
  | unwritable (reason : WriteError)

namespace ScanRefusal

def message : ScanRefusal → String
  | malformed [_] => "1 validation error for ParsedContract"
  | malformed faults => toString faults.length ++ " validation errors for ParsedContract"
  | tooLarge size limit =>
    "Source is " ++ toString size ++ " bytes, limit is " ++ toString limit ++ " bytes"
  | unwritable reason => reason.message

end ScanRefusal

inductive ScanInput where
  | unit (u : SourceUnit)
  | payload (value : Json)

def ScanInput.load : ScanInput → Checked SourceUnit
  | unit u => .ok u
  | payload value => SourceUnit.loadPayload value

namespace Registry

/-- The outcomes of the selected detectors, which run side by side if the configuration says so and
there are several of them. -/
def scanOutcomes (r : Registry) (workers : Int) (config : ScanConfig) (u : SourceUnit) :
    List Outcome :=
  let selected := r.select config.detectors
  if config.parallel && decide (1 < selected.length) then Pool.outcomes workers u selected
  else selected.map (·.run u)

def scanUnit (r : Registry) (workers : Int) (config : ScanConfig) (u : SourceUnit) :
    Except ScanRefusal Report :=
  if config.maxSourceBytes < u.byteSize then .error (.tooLarge u.byteSize config.maxSourceBytes)
  else .ok (Report.build u (r.scanOutcomes workers config u) config)

def scan (r : Registry) (workers : Int) (config : ScanConfig) (unit : Checked SourceUnit) :
    Except ScanRefusal Report :=
  match unit with
  | .ok u => r.scanUnit workers config u
  | .refused faults => .error (.malformed faults)

/-- Scans as `scan` does. There is no report where an identity key that is asked for cannot be made. -/
def tryScan (r : Registry) (workers : Int) (config : ScanConfig) (unit : Checked SourceUnit) :
    Except ScanRefusal Report :=
  match unit with
  | .ok u =>
    if config.maxSourceBytes < u.byteSize then .error (.tooLarge u.byteSize config.maxSourceBytes)
    else (Report.tryBuild u (r.scanOutcomes workers config u) config).mapError .unwritable
  | .refused faults => .error (.malformed faults)

/-- Reads and scans what is given, with the standard registry in place of an empty one. -/
def analyze (r : Registry) (workers : Int) (config : ScanConfig) (input : ScanInput) :
    Except ScanRefusal Report :=
  r.orStandard.tryScan workers config input.load

end Registry
end SolidityAudit
