import SolidityAudit.Finding.Basic
import SolidityAudit.Validation.Field

/-!
# Reading findings
-/

namespace SolidityAudit.Finding

def load : Json → Checked Finding :=
  Checked.record fun ms =>
    Finding.mk <$> Checked.required ms ["severity"] (Checked.choice Severity.ofTag?)
      <*> Checked.required ms ["title"] Checked.text
      <*> Checked.required ms ["description"] Checked.text
      <*> Checked.optional ms ["remediation"] Checked.text ""
      <*> Checked.optional ms ["references"] (Checked.list Checked.text) []
      <*> Checked.optional ms ["category"] Checked.text "smart-contract"
      <*> Checked.optional ms ["evidence"] Checked.mapping []
      <*> Checked.required ms ["vulnerability_type"] (Checked.choice Vulnerability.ofTag?)
      <*> Checked.optional ms ["detector"] Checked.text ""
      <*> Checked.required ms ["contract_name"] Checked.text
      <*> Checked.optional ms ["function_name"] (Checked.nullable Checked.text) none
      <*> Checked.optional ms ["line_number"] (Checked.nullable Checked.positive) none
      <*> Checked.optional ms ["swc_id"] (Checked.nullable Checked.text) none
      <*> Checked.optional ms ["exploit_scenario"] Checked.text ""
      <*> Checked.optional ms ["exploit_complexity"] (Checked.choice Complexity.ofTag?) .medium

end SolidityAudit.Finding
