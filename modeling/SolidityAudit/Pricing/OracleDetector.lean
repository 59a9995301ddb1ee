import SolidityAudit.Detector.Basic
import SolidityAudit.Pricing.Oracle
import SolidityAudit.Source.ContractSpan

/-!
# Detection of weak oracle use

Reported are Chainlink prices that are not checked, prices from a single source, and, for the whole
unit, prices taken from a market maker's reserves without an oracle.
-/

namespace SolidityAudit.Pricing

def oracleProfile : Profile where
  name := "Oracle Manipulation Detector"
  description := "Detects vulnerable oracle patterns and price feed issues"
  vulnerability := .oracleManipulation
  kindName := "OracleManipulationDetector"

def staleFinding (contract : ContractDecl) (f : FunctionDecl) (fresh sound : Bool) :
    Finding where
  severity := .high
  title := "Missing Oracle Freshness Check"
  description :=
    s!"Function '{f.name}' in contract '{contract.name}' uses a Chainlink " ++
    "oracle but does not verify data freshness. Stale prices can lead to " ++
    "incorrect calculations."
  remediation :=
    "Validate freshness after latestRoundData():\n" ++
    "(uint80 roundId, int256 answer, , uint256 updatedAt, uint80 answeredInRound) " ++
    "= priceFeed.latestRoundData();\n" ++
    "require(updatedAt > block.timestamp - MAX_DELAY, \"Stale price\");\n" ++
    "require(answeredInRound >= roundId, \"Stale price round\");"
  references := [
    "https://docs.chain.link/data-feeds/using-data-feeds" ++
      "#check-the-timestamp-of-the-latest-answer",
    "https://blog.chain.link/using-chainlink-data-feeds/#checking-for-stale-data"]
  evidence := [
    ("oracle_type", .str "Chainlink"),
    ("has_freshness_check", .bool fresh),
    ("has_price_validation", .bool sound)]
  vulnerability := oracleProfile.vulnerability
  detector := oracleProfile.name
  contractName := contract.name
  functionName := some f.name
  lineNumber := some f.lineStart
  swcId := oracleProfile.swcId
  exploitScenario :=
    "If the Chainlink feed stops updating (network congestion, oracle " ++
    "downtime) the contract keeps using a stale price. An attacker trades " ++
    "against the discrepancy at the protocol's expense."
  exploitComplexity := .medium

def unsoundFinding (contract : ContractDecl) (f : FunctionDecl) (sound : Bool) : Finding where
  severity := .medium
  title := "Missing Oracle Price Validation"
  description :=
    s!"Function '{f.name}' in contract '{contract.name}' uses a Chainlink " ++
    "oracle but does not validate that the price is positive and reasonable."
  remediation :=
    "Add price validation:\nrequire(answer > 0, \"Invalid price\");\n" ++
    "require(answer < MAX_REASONABLE_PRICE, \"Price too high\");"
  references := ["https://docs.chain.link/data-feeds/using-data-feeds"]
  evidence := [("oracle_type", .str "Chainlink"), ("has_price_validation", .bool sound)]
  vulnerability := oracleProfile.vulnerability
  detector := oracleProfile.name
  contractName := contract.name
  functionName := some f.name
  lineNumber := some f.lineStart
  swcId := oracleProfile.swcId
  exploitScenario :=
    "A zero or negative price from a malfunctioning feed can cause division " ++
    "by zero, wrong collateral valuations or unbounded minting."
  exploitComplexity := .low

def chainlinkFindings (contract : ContractDecl) (f : FunctionDecl) : List Finding :=
  let fresh := checksFreshness f.bodyText
  let sound := checksPrice f.bodyText
  (if fresh then [] else [staleFinding contract f fresh sound]) ++
    (if sound then [] else [unsoundFinding contract f sound])

def singleSourceFinding (contract : ContractDecl) (f : FunctionDecl) (call : List Char) :
    Finding where
  severity := .medium
  title := "Single Oracle Source Dependency"
  description :=
    s!"Function '{f.name}' in contract '{contract.name}' relies on a single " ++
    "oracle source without a fallback mechanism."
  remediation :=
    "1. Aggregate several oracle sources (median, weighted average)\n" ++
    "2. Add a fallback oracle for when the primary fails\n" ++
    "3. Prefer decentralized feeds such as Chainlink Data Feeds\n" ++
    "4. Add circuit breakers for extreme price deviations"
  references := ["https://blog.chain.link/using-multiple-data-feeds/"]
  evidence := [
    ("single_source", .bool true),
    ("call", .str (String.ofList call)),
    ("has_multi_source", .bool false)]
  vulnerability := oracleProfile.vulnerability
  detector := oracleProfile.name
  contractName := contract.name
  functionName := some f.name
  lineNumber := some f.lineStart
  swcId := oracleProfile.swcId
  exploitScenario :=
    "If the single oracle source is compromised, manipulated or unavailable, the " ++
    "whole protocol prices assets wrongly and attackers profit from it."
  exploitComplexity := .high

def checkSingleSource (contract : ContractDecl) (f : FunctionDecl) : Option Finding :=
  match singleSourceCall? f.bodyText with
  | some call =>
    if usesSeveralSources f.bodyText then none else some (singleSourceFinding contract f call)
  | none => none

def oracleFunctionFindings (chainlink : Bool) (contract : ContractDecl) (f : FunctionDecl) :
    List Finding :=
  if f.bodyText.isEmpty then []
  else
    (if chainlink && chainlinkCall.occursIn f.bodyText then chainlinkFindings contract f else []) ++
      (checkSingleSource contract f).toList

def onChainFinding (contract : ContractDecl) : Finding where
  severity := .high
  title := "On-Chain Price Without Oracle Protection"
  description :=
    s!"Contract '{contract.name}' appears to use on-chain reserve/AMM data for " ++
    "pricing without TWAP or external oracle protection."
  remediation :=
    "1. Use Chainlink or another decentralized oracle for price data\n" ++
    "2. Compute time-weighted average prices (TWAP)\n" ++
    "3. Add slippage protection and price deviation checks"
  references := [
    "https://docs.uniswap.org/contracts/v2/concepts/core-concepts/oracles",
    "https://docs.chain.link/data-feeds"]
  evidence := [
    ("has_amm_pricing", .bool true),
    ("has_twap", .bool false),
    ("uses_external_oracle", .bool false)]
  vulnerability := oracleProfile.vulnerability
  detector := oracleProfile.name
  contractName := contract.name
  swcId := oracleProfile.swcId
  exploitScenario :=
    "Spot prices from AMM reserves can be skewed within one transaction using a " ++
    "flash loan, letting an attacker exploit the protocol at a false price."
  exploitComplexity := .medium

/-- Whether a source prices by reserves without an oracle and without an average over time. -/
def pricesOnChain (source : List Char) : Bool :=
  !Pattern.anyOccursIn externalOracleWords source && mentionsReserves source &&
    !Pattern.anyOccursIn averageWords source

/-- The first contract whose stretch mentions reserves, or `fallback` if none does. -/
def pricingContract (u : SourceUnit) (fallback : ContractDecl) : ContractDecl :=
  let spans := Source.contractSpans u.text u.contracts
  (u.contracts.find? fun c =>
    match spans.lookup c.name with
    | some span => mentionsReserves (span.text u.text)
    | none => false).getD fallback

def oracleFindings (u : SourceUnit) : List Finding :=
  let chainlink := usesChainlink u.text
  match u.contracts with
  | [] => []
  | first :: _ =>
    if mentionsOracle u.text || chainlink then
      u.contracts.flatMap (fun c => c.functions.flatMap (oracleFunctionFindings chainlink c)) ++
        (if !chainlink && pricesOnChain u.text then [onChainFinding (pricingContract u first)]
          else [])
    else []

def oracleDetector : Detector :=
  { oracleProfile with analyze := fun u => .ok (oracleFindings u) }

end SolidityAudit.Pricing
