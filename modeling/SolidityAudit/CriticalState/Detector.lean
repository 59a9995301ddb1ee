import SolidityAudit.Authorization.CallerGuard
import SolidityAudit.CriticalState.Write
import SolidityAudit.Detector.Basic

/-!
# Detection of unprotected writes of critical state

A function open to everyone that writes critical state is reported. One that restricts its callers
is reported, less gravely, if it has parameters and checks no condition.
-/

namespace SolidityAudit.CriticalState

def profile : Profile where
  name := "State Modification Detector"
  description := "Detects unprotected functions that modify critical contract state"
  vulnerability := .unprotectedStateModification
  kindName := "StateModificationDetector"

def guidance : String :=
  "https://consensys.github.io/smart-contract-best-practices/development-recommendations/"

def unprotectedFinding (contract : ContractDecl) (f : FunctionDecl) (modified : List String)
    (validated : Bool) : Finding :=
  let written := ", ".intercalate modified
  { severity := .critical
    title := "Unprotected Critical State Modification"
    description :=
      s!"Function '{f.name}' in contract '{contract.name}' modifies critical " ++
      s!"state variable(s) [{written}] without access control."
    remediation :=
      "Add access control modifiers (e.g., onlyOwner) to restrict who can modify " ++
      "these variables. Consider OpenZeppelin's Ownable or AccessControl."
    references := [guidance ++ "solidity-specific/visibility/"]
    evidence := [
      ("modified_variables", .texts modified),
      ("visibility", .str f.visibility.tag),
      ("has_access_control", .bool false),
      ("has_validation", .bool validated)]
    vulnerability := profile.vulnerability
    detector := profile.name
    contractName := contract.name
    functionName := some f.name
    lineNumber := some f.lineStart
    swcId := profile.swcId
    exploitScenario :=
      s!"Any external account can call {f.name}() and modify {written}, " ++
      "changing ownership, manipulating balances or corrupting contract state."
    exploitComplexity := .low }

def unvalidatedFinding (contract : ContractDecl) (f : FunctionDecl) (modified : List String) :
    Finding :=
  let written := ", ".intercalate modified
  { severity := .medium
    title := "Missing Input Validation on State Modification"
    description :=
      s!"Function '{f.name}' in contract '{contract.name}' modifies state " ++
      s!"variable(s) [{written}] but lacks input validation."
    remediation :=
      "Validate parameters with require() before modifying state: check for zero " ++
      "addresses, valid ranges and other constraints."
    references := [guidance ++ "general/input-validation/"]
    evidence := [
      ("modified_variables", .texts modified),
      ("parameters", .texts f.parameterNames)]
    vulnerability := profile.vulnerability
    detector := profile.name
    contractName := contract.name
    functionName := some f.name
    lineNumber := some f.lineStart
    swcId := profile.swcId
    exploitScenario :=
      "An authorized caller could accidentally or maliciously set invalid values " ++
      "(zero address, extreme values) that corrupt contract state."
    exploitComplexity := .medium }

def checkFunction (contract : ContractDecl) (critical : List String) (f : FunctionDecl) :
    Option Finding :=
  if f.isEntryPoint && f.isStateMutating && !f.isConstructor then
    let body := f.bodyText
    let modified := modifiedNames body critical
    if modified.isEmpty then none
    else if !Authorization.restrictsCallers f.modifiers body then
      some (unprotectedFinding contract f modified (validatesInput body))
    else if validatesInput body || f.parameters.isEmpty then none
    else some (unvalidatedFinding contract f modified)
  else none

def findings (u : SourceUnit) : List Finding :=
  u.contracts.flatMap fun c =>
    c.functions.filterMap (checkFunction c (criticalNames c.stateVariables))

def detector : Detector := { profile with analyze := fun u => .ok (findings u) }

end SolidityAudit.CriticalState
