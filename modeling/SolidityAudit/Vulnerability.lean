/-!
# Kinds of vulnerability
-/

namespace SolidityAudit

inductive Vulnerability where
  | reentrancy
  | accessControl
  | txOriginAuth
  | integerOverflow
  | integerUnderflow
  | oracleManipulation
  | flashLoanAttack
  | unprotectedStateModification
deriving DecidableEq

namespace Vulnerability

def all : List Vulnerability :=
  [reentrancy, accessControl, txOriginAuth, integerOverflow, integerUnderflow, oracleManipulation,
    flashLoanAttack, unprotectedStateModification]

def tag : Vulnerability → String
  | reentrancy => "reentrancy"
  | accessControl => "access-control"
  | txOriginAuth => "tx-origin-auth"
  | integerOverflow => "integer-overflow"
  | integerUnderflow => "integer-underflow"
  | oracleManipulation => "oracle-manipulation"
  | flashLoanAttack => "flash-loan-attack"
  | unprotectedStateModification => "unprotected-state-modification"

def ofTag? (name : String) : Option Vulnerability :=
  all.find? (·.tag == name)

/-- The kinds that have a detector of their own, in the order in which the detectors run. -/
def detectable : List Vulnerability :=
  [reentrancy, accessControl, integerOverflow, unprotectedStateModification, flashLoanAttack,
    oracleManipulation]

end Vulnerability
end SolidityAudit
