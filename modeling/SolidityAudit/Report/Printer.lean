import SolidityAudit.Report.Basic

/-!
# Reports in JSON

What distinguishes one run from another, the identifiers and the times, is given apart from the
report.
-/

namespace SolidityAudit

structure RunStamps where
  reportId : String
  startedAt : String
  completedAt : String
  /-- How long the run took, for reading. -/
  duration : String
  findingId : Finding → String
  executionTime : Json

def Finding.toJson (stamps : RunStamps) (f : Finding) : Json :=
  .object [
    ("id", .str (stamps.findingId f)), ("severity", .str f.severity.tag), ("title", .str f.title),
    ("description", .str f.description), ("remediation", .str f.remediation),
    ("references", .texts f.references), ("category", .str f.category),
    ("timestamp", .str stamps.startedAt), ("evidence", .object f.evidence),
    ("vulnerability_type", .str f.vulnerability.tag), ("detector", .str f.detector),
    ("contract_name", .str f.contractName), ("function_name", .ofText? f.functionName),
    ("line_number", .ofNat? f.lineNumber), ("swc_id", .ofText? f.swcId),
    ("exploit_scenario", .str f.exploitScenario),
    ("exploit_complexity", .str f.exploitComplexity.tag)]

def Summary.toJson (s : Summary) : Json :=
  let counts (entries : List (String × Int)) : Json :=
    .object (entries.map fun (name, n) => (name, .int n))
  .object [
    ("total", .int s.total), ("critical", .int s.critical), ("high", .int s.high),
    ("medium", .int s.medium), ("low", .int s.low), ("info", .int s.info),
    ("by_type", counts s.byType), ("by_swc", counts s.bySwc),
    ("failed_detectors", .texts s.failedDetectors)]

def Outcome.toJson (stamps : RunStamps) (o : Outcome) : Json :=
  .object [
    ("detector_name", .str o.detectorName), ("vulnerability_type", .str o.vulnerability),
    ("status", .str o.status.tag), ("findings", .list (o.findings.map (·.toJson stamps))),
    ("execution_time", stamps.executionTime), ("error", .ofText? o.error)]

def Metrics.toJson (m : Metrics) : Json :=
  .object [
    ("total_lines", .int m.totalLines), ("code_lines", .int m.codeLines),
    ("comment_lines", .int m.commentLines), ("contract_count", .int m.contractCount),
    ("function_count", .int m.functionCount), ("public_functions", .int m.publicFunctions),
    ("external_calls", .int m.externalCalls), ("state_variables", .int m.stateVariables)]

def Report.toJson (stamps : RunStamps) (r : Report) : Json :=
  .object [
    ("id", .str stamps.reportId), ("contract_name", .str r.contractName),
    ("pragma", .ofText? r.pragma), ("source_hash", .ofText? r.sourceHash),
    ("status", .str r.status.tag), ("started_at", .str stamps.startedAt),
    ("completed_at", .str stamps.completedAt),
    ("findings", .list (r.findings.map (·.toJson stamps))), ("summary", r.summary.toJson),
    ("detector_results", .list (r.outcomes.map (·.toJson stamps))), ("metrics", r.metrics.toJson),
    ("notes", .texts r.notes)]

end SolidityAudit
