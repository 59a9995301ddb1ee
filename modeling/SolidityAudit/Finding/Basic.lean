import SolidityAudit.Json.Literal
import SolidityAudit.Severity
import SolidityAudit.Vulnerability

/-!
# Findings

A finding says what a detector found and where, with the evidence for it. Two findings are the same
if their identity keys are equal.
-/

namespace SolidityAudit

inductive Complexity where
  | low
  | medium
  | high
deriving DecidableEq

namespace Complexity

def all : List Complexity := [low, medium, high]

def tag : Complexity → String
  | low => "low"
  | medium => "medium"
  | high => "high"

def ofTag? (name : String) : Option Complexity := all.find? (·.tag == name)

end Complexity

structure Finding where
  severity : Severity
  title : String
  description : String
  remediation : String := ""
  references : List String := []
  category : String := "smart-contract"
  evidence : Json.Members := []
  vulnerability : Vulnerability
  detector : String := ""
  contractName : String
  functionName : Option String := none
  lineNumber : Option Nat := none
  swcId : Option String := none
  exploitScenario : String := ""
  exploitComplexity : Complexity := .medium

/-- What makes two findings the same. -/
structure IdentityKey where
  detector : String
  severity : String
  vulnerability : String
  title : String
  contractName : String
  functionName : Option String
  lineNumber : Option Nat
  evidence : List Char
deriving DecidableEq

namespace Finding

def location (f : Finding) : String :=
  let function := match f.functionName with
    | some name => if name == "" then "" else "." ++ name
    | none => ""
  let line := match f.lineNumber with
    | some n => ":" ++ toString n
    | none => ""
  f.contractName ++ function ++ line

def tryLocation (f : Finding) : Except WriteError String :=
  if f.lineNumber.all (Numeral.isWritable ·) then .ok f.location else .error .oversizedNumber

/-- The evidence with its keys in order. -/
def sortedEvidence (evidence : Json.Members) : Json.Members :=
  evidence.mergeSort fun a b => !decide (b.1 < a.1)

def literalPair (entry : String × Json) : List Char :=
  '(' :: Json.literalText entry.1.toList ++ [',', ' '] ++ Json.literal entry.2 ++ [')']

def evidenceLiteral (evidence : Json.Members) : List Char :=
  '[' :: Json.joinWith [',', ' '] ((sortedEvidence evidence).map literalPair) ++ [']']

def identityKey (f : Finding) : IdentityKey where
  detector := f.detector
  severity := f.severity.tag
  vulnerability := f.vulnerability.tag
  title := f.title
  contractName := f.contractName
  functionName := f.functionName
  lineNumber := f.lineNumber
  evidence := evidenceLiteral f.evidence

def isWritable (f : Finding) : Bool := Json.membersWritable f.evidence

def tryIdentityKey (f : Finding) : Except WriteError IdentityKey :=
  if f.isWritable then .ok f.identityKey else .error .oversizedNumber

end Finding
end SolidityAudit
