import SolidityAudit.Text.LowerCase
import SolidityAudit.SourceUnit.Load
import SolidityAudit.Finding.Load
import SolidityAudit.Source.Line
import SolidityAudit.Source.Declaration
import SolidityAudit.Source.Version
import SolidityAudit.Source.ContractSpan
import SolidityAudit.Reentrancy.Detector
import SolidityAudit.Authorization.Detector
import SolidityAudit.Arithmetic.Detector
import SolidityAudit.CriticalState.Detector
import SolidityAudit.Pricing.FlashLoanDetector
import SolidityAudit.Pricing.OracleDetector
import SolidityAudit.Detector.Registry
import SolidityAudit.Clock.Calendar
import SolidityAudit.Report.Load
import SolidityAudit.Logging.Record
import SolidityAudit.Logging.Setup
import SolidityAudit.Main
import SolidityAudit.Proofs.Loading
import SolidityAudit.Proofs.Respelling
import SolidityAudit.Proofs.ContractSpan
import SolidityAudit.Proofs.Line
import SolidityAudit.Proofs.Attribution
import SolidityAudit.Proofs.Pool
import SolidityAudit.Proofs.ChosenFindings
import SolidityAudit.Proofs.ExitStatus
import SolidityAudit.Proofs.FailureIsolation
import SolidityAudit.Proofs.ReportedFindings
import SolidityAudit.Proofs.ReportStages
import SolidityAudit.Proofs.ExactSummary
import SolidityAudit.Proofs.Pattern
import SolidityAudit.Proofs.Reentrancy
import SolidityAudit.Proofs.Version
import SolidityAudit.Proofs.AnalysisFailure
import SolidityAudit.Proofs.Literal
import SolidityAudit.Proofs.IdentityKey
import SolidityAudit.Proofs.Scanning
import SolidityAudit.Proofs.RiskyOperation
import SolidityAudit.Proofs.TransactionOrigin
import SolidityAudit.Proofs.CriticalState
import SolidityAudit.Proofs.AddedModifiers
import SolidityAudit.Proofs.ScanOutcome
import SolidityAudit.Proofs.EnabledDetectors
import SolidityAudit.Proofs.Search
import SolidityAudit.Proofs.SpanPartition
import SolidityAudit.Proofs.BodyLine
import SolidityAudit.Proofs.CharClass
import SolidityAudit.Proofs.LocalDeclaration
import SolidityAudit.Proofs.IndexedWrite
import SolidityAudit.Proofs.Excerpt
import SolidityAudit.Proofs.AuthorizationUse
import SolidityAudit.Proofs.AssignmentSite
import SolidityAudit.Proofs.Operand
import SolidityAudit.Proofs.OperationOrder
import SolidityAudit.Proofs.UncheckedBlock
import SolidityAudit.Proofs.Surroundings
import SolidityAudit.Proofs.LineMetrics
import SolidityAudit.Proofs.VersionFloor
import SolidityAudit.Proofs.DeclaredWrite
import SolidityAudit.Proofs.RiskScore
import SolidityAudit.Proofs.OraclePricing
import SolidityAudit.Proofs.Lookback
import SolidityAudit.Proofs.LogLine
import SolidityAudit.Proofs.Writable
