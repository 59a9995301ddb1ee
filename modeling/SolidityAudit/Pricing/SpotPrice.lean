import SolidityAudit.Pattern.Build

/-!
# Spot prices

Signs in a text that a price is computed from values that can be moved inside one transaction, and
signs of a protection against it.
-/

namespace SolidityAudit.Pricing
open Pattern

def flashLoanPatterns : List Pattern :=
  ["IFlashLoan", "flashLoan", "FlashBorrower", "executeOperation", "uniswapV2Call", "uniswapV3",
    "pancakeCall", "onFlashLoan"].map anyCase

def assigned (word : String) : Pattern := chain [anyCase word, blanks, lit "=", notNext "="]

def pricePatterns : List Pattern := [
  chain [anyCase "getReserves", blanks, lit "(", blanks, lit ")"],
  chain [anyCase "balanceOf", blanks, lit "(", many (charNotOf ")"), lit ")"],
  chain [anyCase "totalSupply", blanks, lit "(", blanks, lit ")"],
  anyCase "getAmountOut",
  anyCase "getAmountsOut",
  chain [anyCase "quote", blanks, lit "("],
  assigned "price",
  assigned "rate",
  anyCase "exchangeRate"]

def ratioSign : Pattern := chain [blanks, charOf "*/", blanks]

/-- Ratios of quantities, each with the notation under which it is reported. -/
def ratioPatterns : List (String × Pattern) := [
  ("reserve[0-9]?\\s*[*/]\\s*reserve",
    chain [anyCase "reserve", Pattern.optional (one Char.isDigit), ratioSign, anyCase "reserve"]),
  ("balance\\s*[*/]\\s*balance", chain [anyCase "balance", ratioSign, anyCase "balance"]),
  ("totalSupply.*balance|balance.*totalSupply",
    oneOf [
      chain [anyCase "totalSupply", sameLine, anyCase "balance"],
      chain [anyCase "balance", sameLine, anyCase "totalSupply"]]),
  ("block\\.timestamp|block\\.number", oneOf [anyCase "block.timestamp", anyCase "block.number"])]

def protectionPatterns : List Pattern := [
  anyCase "TWAP",
  anyCase "oracle",
  anyCase "Chainlink",
  anyCase "priceFeed",
  anyCase "latestRoundData",
  chain [anyCase "consult", blanks, lit "("],
  chain [anyCase "observe", blanks, lit "("],
  anyCase "getAveragePrice",
  anyCase "timeLock",
  anyCase "delay",
  anyCase "cooldown"]

/-- Arguments of a call with at most one level of parentheses in them. -/
def callArguments : Pattern :=
  chain [
    lit "(",
    some1 (oneOf [
      charNotOf "()",
      chain [lit "(", many (charNotOf "()"), lit ")"]]),
    lit ")"]

def balancePricePatterns : List Pattern := [
  chain [anyCase "balanceOf", blanks, callArguments, blanks, charOf "*/"],
  chain [
    charOf "*/", blanks,
    Pattern.optional (chain [some1 (one fun c => Text.isWord c || c == '.'), lit "."]),
    anyCase "balanceOf", blanks, lit "("],
  chain [anyCase "token.balanceOf", sameLine, charOf "*/"],
  chain [anyCase "address(this)", sameLine, anyCase "balance", sameLine, charOf "*/"]]

def mentionsFlashLoan (text : List Char) : Bool := anyOccursIn flashLoanPatterns text

def computesPrice (body : List Char) : Bool := anyOccursIn pricePatterns body

def isProtected (body : List Char) : Bool := anyOccursIn protectionPatterns body

def ratioNotation? (body : List Char) : Option String :=
  (ratioPatterns.find? fun (_, p) => p.occursIn body).map (·.1)

def pricesByBalance (body : List Char) : Bool := anyOccursIn balancePricePatterns body

end SolidityAudit.Pricing
