/-!
# Severity of a finding
-/

namespace SolidityAudit

inductive Severity where
  | critical
  | high
  | medium
  | low
  | info
deriving DecidableEq

namespace Severity

def all : List Severity := [critical, high, medium, low, info]

def tag : Severity → String
  | critical => "critical"
  | high => "high"
  | medium => "medium"
  | low => "low"
  | info => "info"

def heading : Severity → String
  | critical => "CRITICAL"
  | high => "HIGH"
  | medium => "MEDIUM"
  | low => "LOW"
  | info => "INFO"

def ofTag? (name : String) : Option Severity :=
  all.find? (·.tag == name)

/-- A graver finding has a higher rank. -/
def rank : Severity → Nat
  | info => 1
  | low => 2
  | medium => 3
  | high => 4
  | critical => 5

end Severity
end SolidityAudit
