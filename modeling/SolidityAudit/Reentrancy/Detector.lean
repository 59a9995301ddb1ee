import SolidityAudit.Detector.Basic
import SolidityAudit.Reentrancy.Site

/-!
# Detection of reentrancy

A function that anyone can call, that may write state and that has no guard is reported if it calls
another contract before it writes state.
-/

namespace SolidityAudit.Reentrancy

def profile : Profile where
  name := "Reentrancy Detector"
  description :=
    "Detects classic reentrancy through Checks-Effects-Interactions violations (SWC-107)"
  vulnerability := .reentrancy
  swcId := some "SWC-107"
  kindName := "ReentrancyDetector"

def finding (contract : ContractDecl) (f : FunctionDecl) (call change : Site) : Finding where
  severity := .critical
  title := "Reentrancy Vulnerability"
  description :=
    s!"Function '{f.name}' in contract '{contract.name}' makes an external call " ++
    "before updating state. This violates the Checks-Effects-Interactions pattern " ++
    "and may allow reentrancy attacks."
  remediation :=
    "Apply the Checks-Effects-Interactions pattern: move all state changes before " ++
    "external calls. Consider using OpenZeppelin's ReentrancyGuard modifier."
  references := [
    "https://swcregistry.io/docs/SWC-107",
    "https://consensys.github.io/smart-contract-best-practices/attacks/reentrancy/"]
  evidence := [
    ("external_call", .str (String.ofList call.text)),
    ("state_change", .str (String.ofList change.text)),
    ("pattern", .str "CEI violation")]
  vulnerability := profile.vulnerability
  detector := profile.name
  contractName := contract.name
  functionName := some f.name
  lineNumber := some f.lineStart
  swcId := profile.swcId
  exploitScenario :=
    s!"An attacker deploys a contract that calls {f.name}() and, from its " ++
    s!"fallback/receive function, re-enters {f.name}() before state is updated. " ++
    "This can drain funds or corrupt state."
  exploitComplexity := .low

def checkFunction (contract : ContractDecl) (f : FunctionDecl) : Option Finding :=
  if f.isEntryPoint && f.isStateMutating && !hasGuard f.modifiers f.bodyText then
    (violation? f.bodyText).map fun (call, change) => finding contract f call change
  else none

def findings (u : SourceUnit) : List Finding :=
  u.contracts.flatMap fun c => c.functions.filterMap (checkFunction c)

def detector : Detector := { profile with analyze := fun u => .ok (findings u) }

end SolidityAudit.Reentrancy
