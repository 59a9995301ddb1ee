import SolidityAudit.Authorization.CallerGuard
import SolidityAudit.Authorization.SensitiveOperation
import SolidityAudit.Authorization.TxOrigin
import SolidityAudit.Detector.Basic
import SolidityAudit.Source.ContractSpan
import SolidityAudit.Source.Line

/-!
# Detection of missing and weak access control

Reported are uses of `tx.origin` for authorization, under the contract that owns the place, and
functions open to everyone that perform a sensitive operation.
-/

namespace SolidityAudit.Authorization

def profile : Profile where
  name := "Access Control Detector"
  description := "Detects missing or weak access control patterns (SWC-105, SWC-115)"
  vulnerability := .accessControl
  swcId := some "SWC-105"
  kindName := "AccessControlDetector"

def txOriginFinding (u : SourceUnit) (contract : ContractDecl) (occurrence : Span) : Finding where
  severity := .high
  title := "tx.origin Used for Authorization"
  description :=
    s!"Contract '{contract.name}' uses tx.origin for authorization. This is " ++
    "vulnerable to phishing attacks where a malicious contract can trick the " ++
    "original transaction sender."
  remediation :=
    "Replace tx.origin with msg.sender for authorization checks. tx.origin " ++
    "should never be used for authentication."
  references := [
    "https://swcregistry.io/docs/SWC-115",
    "https://consensys.github.io/smart-contract-best-practices/development-recommendations/" ++
      "solidity-specific/tx-origin/"]
  evidence := [
    ("match", .str (String.ofList (lineSnippet u.text occurrence))),
    ("pattern", .str "tx.origin authorization")]
  vulnerability := .txOriginAuth
  detector := profile.name
  contractName := contract.name
  functionName := (Source.functionAt? contract u.text occurrence.start).map (·.name)
  lineNumber := some (Source.lineAt u.text occurrence.start)
  swcId := some "SWC-115"
  exploitScenario :=
    "An attacker lures the victim into calling a malicious contract which then " ++
    "calls this contract. tx.origin is still the victim's address, so the " ++
    "authorization check passes."
  exploitComplexity := .medium

/-- The uses of `tx.origin` for authorization that a contract owns. Places outside every contract
belong to the contract named `fallback`. -/
def txOriginFindings (u : SourceUnit) (spans : Source.SpanTable) (fallback : String)
    (contract : ContractDecl) : List Finding :=
  (txOrigins u.text).filterMap fun occurrence =>
    if spans.ownerOr occurrence.start fallback == contract.name &&
        isAuthorizationUse u.text occurrence then
      some (txOriginFinding u contract occurrence)
    else none

def openFinding (contract : ContractDecl) (f : FunctionDecl) (label : String)
    (recognised : Recognised) : Finding where
  severity := .critical
  title := "Missing Access Control"
  description :=
    s!"Function '{f.name}' in contract '{contract.name}' performs a sensitive " ++
    s!"operation ({label}) but lacks access control."
  remediation :=
    "Add access control modifiers (e.g., onlyOwner, onlyRole) to restrict access. " ++
    "Consider using OpenZeppelin's AccessControl or Ownable contracts."
  references := [
    "https://swcregistry.io/docs/SWC-105",
    "https://docs.openzeppelin.com/contracts/4.x/access-control"]
  evidence := [
    ("sensitive_operation", .str label),
    ("matched_in", .str recognised.tag),
    ("visibility", .str f.visibility.tag),
    ("modifiers", .texts f.modifiers)]
  vulnerability := profile.vulnerability
  detector := profile.name
  contractName := contract.name
  functionName := some f.name
  lineNumber := some f.lineStart
  swcId := profile.swcId
  exploitScenario :=
    s!"Any account can call {f.name}() and perform {label}. An attacker could " ++
    "drain funds, take over ownership or destroy the contract."
  exploitComplexity := .low

def checkFunction (contract : ContractDecl) (f : FunctionDecl) : Option Finding :=
  if f.isEntryPoint && f.isStateMutating && !f.isConstructor then
    match sensitiveOperation? f with
    | some (label, recognised) =>
      if restrictsCallers f.modifiers f.bodyText then none
      else some (openFinding contract f label recognised)
    | none => none
  else none

def findings (u : SourceUnit) : List Finding :=
  match u.contracts with
  | [] => []
  | first :: _ =>
    let spans := Source.contractSpans u.text u.contracts
    u.contracts.flatMap fun c =>
      txOriginFindings u spans first.name c ++ c.functions.filterMap (checkFunction c)

def detector : Detector := { profile with analyze := fun u => .ok (findings u) }

end SolidityAudit.Authorization
