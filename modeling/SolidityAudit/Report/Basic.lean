import SolidityAudit.Report.Metrics
import SolidityAudit.Report.RiskScore
import SolidityAudit.Report.Summary
import SolidityAudit.Scan.Config
import SolidityAudit.SourceUnit.Digest

/-!
# Reports

A report is built from the outcomes of the detectors that ran, in their order: their findings
without repetitions, those that are grave enough, and of these the first ones up to a limit, with a
summary of exactly these findings.
-/

namespace SolidityAudit

inductive OutcomeStatus where
  | success
  | failed
  | skipped
deriving DecidableEq

namespace OutcomeStatus

def all : List OutcomeStatus := [success, failed, skipped]

def tag : OutcomeStatus → String
  | success => "success"
  | failed => "failed"
  | skipped => "skipped"

def ofTag? (name : String) : Option OutcomeStatus := all.find? (·.tag == name)

end OutcomeStatus

structure Outcome where
  detectorName : String
  vulnerability : String
  status : OutcomeStatus
  findings : List Finding := []
  error : Option String := none

inductive ScanStatus where
  | pending
  | running
  | completed
  | partially
  | failed
deriving DecidableEq

namespace ScanStatus

def all : List ScanStatus := [pending, running, completed, partially, failed]

def tag : ScanStatus → String
  | pending => "pending"
  | running => "running"
  | completed => "completed"
  | partially => "partial"
  | failed => "failed"

def ofTag? (name : String) : Option ScanStatus := all.find? (·.tag == name)

end ScanStatus

structure Report where
  contractName : String
  pragma : Option String := none
  sourceHash : Option String := none
  status : ScanStatus := .pending
  findings : List Finding := []
  summary : Summary := {}
  outcomes : List Outcome := []
  metrics : Metrics := {}
  notes : List String := []

/-! ## Choosing findings -/

namespace Finding

def deduplicateFrom (seen : List IdentityKey) : List Finding → List Finding
  | [] => []
  | f :: rest =>
    if seen.contains f.identityKey then deduplicateFrom seen rest
    else f :: deduplicateFrom (f.identityKey :: seen) rest

/-- The findings without repetitions: of those with one identity key the first stays. -/
def deduplicate (findings : List Finding) : List Finding := deduplicateFrom [] findings

/-- Drops repetitions as `deduplicateFrom` does. The key of each finding is made in turn, and the first
one that cannot be made ends it. -/
def tryDeduplicateFrom (seen : List IdentityKey) : List Finding → Except WriteError (List Finding)
  | [] => .ok []
  | f :: rest => do
    let key ← f.tryIdentityKey
    if seen.contains key then tryDeduplicateFrom seen rest
    else return f :: (← tryDeduplicateFrom (key :: seen) rest)

def tryDeduplicate (findings : List Finding) : Except WriteError (List Finding) :=
  tryDeduplicateFrom [] findings

def atLeast (s : Severity) (findings : List Finding) : List Finding :=
  findings.filter fun f => s.rank ≤ f.severity.rank

/-- The first findings up to a limit. A negative limit counts from the end. -/
def limit (max : Option Int) (findings : List Finding) : List Finding :=
  match max with
  | none => findings
  | some n =>
    if 0 ≤ n then findings.take n.toNat else findings.take (findings.length - n.natAbs)

end Finding

namespace Report

def chooseFindings (config : ScanConfig) (outcomes : List Outcome) : List Finding :=
  let found := outcomes.flatMap (·.findings)
  let unique := if config.deduplicate then Finding.deduplicate found else found
  Finding.limit (config.maxFindings.map Int.ofNat) (Finding.atLeast config.minSeverity unique)

def tryChooseFindings (config : ScanConfig) (outcomes : List Outcome) :
    Except WriteError (List Finding) := do
  let found := outcomes.flatMap (·.findings)
  let unique ← if config.deduplicate then Finding.tryDeduplicate found else .ok found
  return Finding.limit (config.maxFindings.map Int.ofNat)
    (Finding.atLeast config.minSeverity unique)

def failures (outcomes : List Outcome) : List Outcome :=
  outcomes.filter fun o => o.status == .failed

def statusOf (outcomes : List Outcome) : ScanStatus :=
  let failed := failures outcomes
  if failed.isEmpty then .completed
  else if failed.length = outcomes.length then .failed
  else .partially

def noteOn (o : Outcome) : String := o.detectorName ++ ": " ++ o.error.getD "None"

/-- The name of a unit in its report: that of its first contract, or else its own. -/
def nameOf (u : SourceUnit) : String :=
  match u.contracts with
  | c :: _ => c.name
  | [] => match u.name with
    | some name => if name == "" then "Unknown" else name
    | none => "Unknown"

def ofFindings (u : SourceUnit) (outcomes : List Outcome) (findings : List Finding) : Report :=
  let failed := failures outcomes
  { contractName := nameOf u
    pragma := u.pragma
    sourceHash := some u.digest
    status := statusOf outcomes
    findings := findings
    summary := Summary.ofFindings findings (failed.map (·.detectorName))
    outcomes := outcomes
    metrics := Metrics.ofUnit u
    notes := failed.map noteOn }

def build (u : SourceUnit) (outcomes : List Outcome) (config : ScanConfig) : Report :=
  ofFindings u outcomes (chooseFindings config outcomes)

/-- Builds the report, if every identity key that is asked for can be made. -/
def tryBuild (u : SourceUnit) (outcomes : List Outcome) (config : ScanConfig) :
    Except WriteError Report :=
  return ofFindings u outcomes (← tryChooseFindings config outcomes)

/-! ## Views of a report -/

def hasCritical (r : Report) : Bool := r.findings.any fun f => f.severity == .critical

def findingsOf (r : Report) (s : Severity) : List Finding :=
  r.findings.filter fun f => f.severity == s

def findingsOn (r : Report) (tag : String) : List Finding :=
  r.findings.filter fun f => f.vulnerability.tag == tag

def riskScore (r : Report) : String := RiskScore.text (RiskScore.tenths r.findings)

def summaryLines (r : Report) (duration : String) : List String :=
  let counts := Severity.all.filterMap fun s =>
    let n := r.summary.count s
    if 0 < n then some (s!"  - {s.heading}: " ++ toString n) else none
  let failed := r.summary.failedDetectors
  [s!"Scan Report for {r.contractName}", s!"Status: {r.status.tag}", s!"Duration: {duration}", "",
    "Findings Summary:", "- Total Findings: " ++ toString r.summary.total] ++ counts ++
    (if failed.isEmpty then [] else ["", "Failed Detectors: " ++ ", ".intercalate failed]) ++
    ["", s!"Risk Score: {r.riskScore}/10"]

def summaryText (r : Report) (duration : String) : String :=
  "\n".intercalate (r.summaryLines duration)

end Report
end SolidityAudit
