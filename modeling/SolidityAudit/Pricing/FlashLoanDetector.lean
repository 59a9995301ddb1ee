import SolidityAudit.Detector.Basic
import SolidityAudit.Pricing.SpotPrice

/-!
# Detection of prices that a flash loan can move

Reported are functions that compute prices without protection, more gravely if the source deals with
flash loans, and functions that compute prices from balances.
-/

namespace SolidityAudit.Pricing

def flashLoanProfile : Profile where
  name := "Flash Loan Detector"
  description := "Detects patterns vulnerable to flash loan attacks in DeFi contracts"
  vulnerability := .flashLoanAttack
  kindName := "FlashLoanDetector"

def spotPriceFinding (contract : ContractDecl) (f : FunctionDecl) (flashLoan : Bool) :
    Finding where
  severity := if flashLoan then .critical else .high
  title := "Potential Flash Loan Vulnerability"
  description :=
    s!"Function '{f.name}' in contract '{contract.name}' performs price/value " ++
    "calculations that may be manipulable within a single transaction via flash loans." ++
    (if flashLoan then " Contract appears to interact with flash loan providers." else "")
  remediation :=
    "1. Use time-weighted average prices (TWAP) instead of spot prices\n" ++
    "2. Integrate Chainlink or other decentralized oracles for price feeds\n" ++
    "3. Add transaction delays or timelocks for large operations\n" ++
    "4. Aggregate multiple price sources\n" ++
    "5. Implement slippage protection and price bounds"
  references :=
    ["https://blog.chain.link/flash-loans-and-the-importance-of-tamper-proof-oracles/"]
  evidence := [
    ("has_flash_loan_interaction", .bool flashLoan),
    ("price_calculation", .bool true),
    ("vulnerable_pattern", .ofText? (ratioNotation? f.bodyText)),
    ("has_protection", .bool false)]
  vulnerability := flashLoanProfile.vulnerability
  detector := flashLoanProfile.name
  contractName := contract.name
  functionName := some f.name
  lineNumber := some f.lineStart
  swcId := flashLoanProfile.swcId
  exploitScenario :=
    "An attacker takes a flash loan, swaps a large amount to move the price or " ++
    s!"reserves, calls {f.name}() at the manipulated price and repays the loan, " ++
    "all in one transaction."
  exploitComplexity := .medium

def balancePriceFinding (contract : ContractDecl) (f : FunctionDecl) : Finding where
  severity := .high
  title := "Balance-Based Price Calculation"
  description :=
    s!"Function '{f.name}' in contract '{contract.name}' calculates prices or " ++
    "values from token balances. These are easily manipulated via flash loans or " ++
    "direct token transfers."
  remediation :=
    "Do not derive prices from contract balances. Use external oracles, TWAP, or " ++
    "track internal accounting separately from actual balances."
  references := ["https://samczsun.com/so-you-want-to-use-a-price-oracle/"]
  evidence := [("pattern", .str "balance-based pricing")]
  vulnerability := flashLoanProfile.vulnerability
  detector := flashLoanProfile.name
  contractName := contract.name
  functionName := some f.name
  lineNumber := some f.lineStart
  swcId := flashLoanProfile.swcId
  exploitScenario :=
    "An attacker transfers tokens to the contract or borrows them with a flash " ++
    "loan to inflate balances temporarily, skewing the computed price."
  exploitComplexity := .low

def spotPriceFindings (flashLoan : Bool) (contract : ContractDecl) (f : FunctionDecl) :
    List Finding :=
  let body := f.bodyText
  if body.isEmpty then []
  else
    (if computesPrice body && !isProtected body then [spotPriceFinding contract f flashLoan]
      else []) ++
    (if pricesByBalance body then [balancePriceFinding contract f] else [])

def flashLoanFindings (u : SourceUnit) : List Finding :=
  let flashLoan := mentionsFlashLoan u.text
  u.contracts.flatMap fun c => c.functions.flatMap (spotPriceFindings flashLoan c)

def flashLoanDetector : Detector :=
  { flashLoanProfile with analyze := fun u => .ok (flashLoanFindings u) }

end SolidityAudit.Pricing
