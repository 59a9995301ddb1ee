import SolidityAudit.Arithmetic.Operation
import SolidityAudit.Detector.Basic
import SolidityAudit.Source.ContractSpan
import SolidityAudit.Source.Line
import SolidityAudit.Source.Version
import SolidityAudit.Text.LowerCase

/-!
# Detection of integer overflow and underflow

From version 0.8.0 on the compiler checks arithmetic, and only `unchecked` blocks are reported. Under
an older pragma every risky operation in a function is reported, unless its body calls the functions
of a library for safe arithmetic.
-/

namespace SolidityAudit.Arithmetic
open Pattern

def profile : Profile where
  name := "Integer Overflow Detector"
  description := "Detects integer overflow/underflow vulnerabilities (SWC-101)"
  vulnerability := .integerOverflow
  swcId := some "SWC-101"
  kindName := "IntegerOverflowDetector"

/-! ## Unchecked blocks -/

def uncheckedBlock : Pattern :=
  chain [lit "unchecked", blanks, lit "\x7b", many (charNotOf "\x7d"), lit "\x7d"]

def blockSnippet (block : List Char) : List Char :=
  if block.length ≤ 100 then block else block.take 100 ++ "...".toList

def uncheckedFinding (u : SourceUnit) (block : Match) (op : Operation) (contractName : String)
    (functionName : Option String) : Finding where
  severity := .medium
  title := s!"Unchecked {op.name} in unchecked block"
  description :=
    s!"An unchecked block contains {op.name}, which bypasses the " ++
    "overflow protection of Solidity 0.8+. This may be an intentional gas " ++
    "optimization, but verify it cannot be exploited."
  remediation :=
    "Verify that the unchecked arithmetic cannot overflow or underflow, or add " ++
    "explicit bounds checks before the unchecked block."
  references := [
    "https://swcregistry.io/docs/SWC-101",
    "https://docs.soliditylang.org/en/v0.8.0/control-structures.html" ++
      "#checked-or-unchecked-arithmetic"]
  evidence := [
    ("unchecked_block", .str (String.ofList (blockSnippet (block.text u.text)))),
    ("operation", .str op.name),
    ("solidity_version", .ofText? u.pragma)]
  vulnerability := op.risk.vulnerability
  detector := profile.name
  contractName := contractName
  functionName := functionName
  lineNumber := some (Source.lineAt u.text block.start)
  swcId := profile.swcId
  exploitScenario :=
    s!"The unchecked block may allow {op.risk.tag} if the values are not " ++
    "validated before entry."
  exploitComplexity := .medium

/-- The findings on unchecked blocks that hold arithmetic. Blocks outside every contract belong to
the contract named `fallback`. -/
def uncheckedFindings (u : SourceUnit) (fallback : String) : List Finding :=
  let spans := Source.contractSpans u.text u.contracts
  (uncheckedBlock.findAll u.text).filterMap fun block =>
    (firstOperation? (block.text u.text)).map fun (op, _) =>
      let name := spans.ownerOr block.start fallback
      let function := (u.contract? name).bind fun c => Source.functionAt? c u.text block.start
      uncheckedFinding u block op name (function.map (·.name))

/-! ## Unchecked compilers -/

def safeCalls : Pattern :=
  chain [lit ".", litOf ["add", "sub", "mul", "div", "mod"], blanks, lit "("]

def safeDirective : Pattern :=
  chain [lit "using", blanks1, lit "SafeMath", blanks1, lit "for"]

def usesSafeMath (u : SourceUnit) (contract : ContractDecl) : Bool :=
  safeDirective.occursIn u.text ||
    contract.inherits.any fun base => Text.contains (Text.lower base.toList) "safemath".toList

def safeMethod (op : Operation) : String :=
  if Text.contains op.name.toList "multiplication".toList then "mul()"
  else match op.risk with
    | .overflow => "add()"
    | .underflow => "sub()"

def riskTitle : Risk → String
  | .overflow => "Overflow"
  | .underflow => "Underflow"

/-- The pragma as shown in a description; an empty one counts as absent. -/
def shownVersion (pragma : Option String) : String :=
  match pragma with
  | some p => if p == "" then "< 0.8.0" else p
  | none => "< 0.8.0"

def wrapScenario (op : Operation) : String :=
  match op.risk with
  | .overflow =>
    s!"An attacker supplies large values so the {op.name} wraps around to a " ++
    "small number, bypassing checks or manipulating balances."
  | .underflow =>
    s!"An attacker triggers a {op.name} that wraps around to a huge number " ++
    "(max uint256), draining funds or bypassing limits."

def legacyFinding (u : SourceUnit) (contract : ContractDecl) (f : FunctionDecl) (safeMath : Bool)
    (op : Operation) (m : Match) : Finding where
  severity := if safeMath then .medium else .high
  title := s!"Potential Integer {riskTitle op.risk}"
  description :=
    s!"Function '{f.name}' in contract '{contract.name}' performs " ++
    s!"{op.name} without overflow protection. Solidity version {shownVersion u.pragma} " ++
    "has no built-in overflow checks."
  remediation :=
    if safeMath then
      s!"Use SafeMath's {safeMethod op} for this operation as elsewhere in the contract."
    else
      "Upgrade to Solidity 0.8.0+ for built-in overflow protection, or use " ++
      "OpenZeppelin's SafeMath library."
  references := [
    "https://swcregistry.io/docs/SWC-101",
    "https://docs.openzeppelin.com/contracts/4.x/api/utils#SafeMath"]
  evidence := [
    ("operation", .str (String.ofList (Text.strip (m.text f.bodyText)))),
    ("operation_type", .str op.name),
    ("solidity_version", .ofText? u.pragma),
    ("uses_safe_math", .bool safeMath)]
  vulnerability := op.risk.vulnerability
  detector := profile.name
  contractName := contract.name
  functionName := some f.name
  lineNumber := some (Source.bodyLine u.text f m.start)
  swcId := profile.swcId
  exploitScenario := wrapScenario op
  exploitComplexity := .medium

/-- The risky operations in a body in the order of the table, of several that start at one offset
the first. -/
def riskyOperations (body : List Char) (parameters : List String) : List (Operation × Match) :=
  let risky := operations.flatMap fun op =>
    ((op.pattern.findAll body).filter (isRisky body · parameters)).map (op, ·)
  risky.foldl (fun kept hit =>
    if kept.any (fun k => k.2.start == hit.2.start) then kept else kept ++ [hit]) []

def legacyFunctionFindings (u : SourceUnit) (contract : ContractDecl) (f : FunctionDecl) :
    List Finding :=
  let body := f.bodyText
  if body.isEmpty || safeCalls.occursIn body then []
  else
    let safeMath := usesSafeMath u contract
    let found := (riskyOperations body f.parameterNames).map fun (op, m) =>
      legacyFinding u contract f safeMath op m
    found.mergeSort fun a b => a.lineNumber.getD 0 ≤ b.lineNumber.getD 0

def legacyFindings (u : SourceUnit) : List Finding :=
  u.contracts.flatMap fun c => c.functions.flatMap (legacyFunctionFindings u c)

def analyze (u : SourceUnit) : Except Failure (List Finding) :=
  match u.contracts with
  | [] => .ok []
  | first :: _ =>
    match Source.lacksOverflowChecks u.pragma with
    | .error e => .error (.oversizedNumber e.digits)
    | .ok true => .ok (legacyFindings u)
    | .ok false => .ok (uncheckedFindings u first.name)

def detector : Detector := { profile with analyze := analyze }

end SolidityAudit.Arithmetic
