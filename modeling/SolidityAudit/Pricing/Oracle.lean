import SolidityAudit.Pattern.Build

/-!
# Price oracles

Signs in a text that prices come from an oracle, and of the checks that should go with it.
-/

namespace SolidityAudit.Pricing
open Pattern

def chainlinkInterface : Pattern := anyCase "AggregatorV3Interface"

def chainlinkCall : Pattern := chain [anyCase "latestRoundData", blanks, lit "(", blanks, lit ")"]

def oracleWords : List Pattern :=
  ["oracle", "priceFeed", "getPrice", "getRate", "getLatestPrice", "fetchPrice"].map anyCase

/-- A call of the given word up to some text inside its first parentheses. -/
def within (word : String) (inside : List Pattern) : Pattern :=
  chain ([anyCase word, blanks, lit "(", many (charNotOf ")")] ++ inside)

def freshnessChecks : List Pattern := [
  chain [anyCase "updatedAt", blanks, charOf "<>"],
  chain [charOf "<>", Pattern.optional (lit "="), blanks, anyCase "updatedAt"],
  chain [anyCase "block.timestamp", blanks, lit "-", blanks, anyCase "updatedAt"],
  within "require" [anyCase "updatedAt"],
  within "require" [anyCase "answeredInRound"],
  anyCase "stale",
  anyCase "freshness",
  anyCase "heartbeat",
  anyCase "maxDelay"]

def priceChecks : List Pattern := [
  within "require" [anyCase "answer", blanks, lit ">"],
  within "require" [anyCase "price", blanks, lit ">"],
  chain [anyCase "answer", blanks, lit ">", blanks, lit "0"],
  chain [anyCase "price", blanks, lit ">", blanks, lit "0"],
  within "if" [anyCase "answer", blanks, charOf "<=>"]]

def singleSourceCalls : List Pattern := [
  chain [anyCase ".getPrice", blanks, lit "(", blanks, lit ")"],
  chain [anyCase ".latestAnswer", blanks, lit "(", blanks, lit ")"],
  anyCase "oracle.price"]

def multiSourceWords : List Pattern :=
  ["median", "aggregate", "weighted", "fallback", "backup", "secondary"].map anyCase ++
    [chain [anyCase "multiple", sameLine, anyCase "oracle"]]

def externalOracleWords : List Pattern := ["oracle", "priceFeed", "chainlink"].map anyCase

def reserveWords : List Pattern := ["getReserves", "reserve0", "reserve1"].map anyCase

def averageWords : List Pattern := ["TWAP", "observe", "consult"].map anyCase

def usesChainlink (source : List Char) : Bool :=
  chainlinkInterface.occursIn source || chainlinkCall.occursIn source

def mentionsOracle (source : List Char) : Bool := anyOccursIn oracleWords source

def checksFreshness (body : List Char) : Bool := anyOccursIn freshnessChecks body

def checksPrice (body : List Char) : Bool := anyOccursIn priceChecks body

def singleSourceCall? (body : List Char) : Option (List Char) :=
  singleSourceCalls.findSome? fun p => (p.find? body).map (·.text body)

def usesSeveralSources (body : List Char) : Bool := anyOccursIn multiSourceWords body

def mentionsReserves (source : List Char) : Bool := anyOccursIn reserveWords source

end SolidityAudit.Pricing
