import SolidityAudit.Report.Basic

/-!
# Reading outcomes and reports
-/

namespace SolidityAudit

def Outcome.load (findings : List Finding) : Json → Checked Outcome :=
  Checked.record fun ms =>
    (fun name vulnerability status error => ⟨name, vulnerability, status, findings, error⟩) <$>
      Checked.required ms ["detector_name"] Checked.text
      <*> Checked.required ms ["vulnerability_type"] Checked.text
      <*> Checked.required ms ["status"] (Checked.choice OutcomeStatus.ofTag?)
      <*> Checked.optional ms ["error"] (Checked.nullable Checked.text) none

/-- Reads the name and the status of a report with the given findings and summary. -/
def Report.load (findings : List Finding) (summary : Summary) : Json → Checked Report :=
  Checked.record fun ms =>
    (fun name status =>
      { contractName := name, status := status, findings := findings, summary := summary }) <$>
      Checked.required ms ["contract_name"] Checked.text
      <*> Checked.optional ms ["status"] (Checked.choice ScanStatus.ofTag?) .pending

end SolidityAudit
