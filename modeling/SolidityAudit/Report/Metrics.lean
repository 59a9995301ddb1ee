import SolidityAudit.Reentrancy.Site
import SolidityAudit.SourceUnit.Basic

/-!
# Metrics of a source unit
-/

namespace SolidityAudit
open Pattern

structure Metrics where
  totalLines : Nat := 0
  codeLines : Nat := 0
  commentLines : Nat := 0
  contractCount : Nat := 0
  functionCount : Nat := 0
  publicFunctions : Nat := 0
  externalCalls : Nat := 0
  stateVariables : Nat := 0
deriving DecidableEq

namespace Metrics

/-- Calls that leave the contract. -/
def externalCall : Pattern :=
  chain [
    lit ".", litOf ["call", "send", "transfer", "delegatecall"], blanks, Reentrancy.callOptions,
    blanks, lit "("]

def opensComment (line : List Char) : Bool :=
  "//".toList.isPrefixOf line || "/*".toList.isPrefixOf line

def isCode (line : List Char) : Bool := !line.isEmpty && !opensComment line

/-- Whether a stripped line counts as comment: it opens one, or a star shows it to be inside one. -/
def isComment (line : List Char) : Bool := opensComment line || ['*'].isPrefixOf line

def ofUnit (u : SourceUnit) : Metrics :=
  let lines := (Text.lines u.text).map Text.strip
  let functions := u.contracts.flatMap (·.functions)
  { totalLines := lines.length
    codeLines := lines.countP isCode
    commentLines := lines.countP isComment
    contractCount := u.contracts.length
    functionCount := functions.length
    publicFunctions := functions.countP (·.isEntryPoint)
    externalCalls := (functions.flatMap fun f => externalCall.findAll f.bodyText).length
    stateVariables := (u.contracts.flatMap (·.stateVariables)).length }

end Metrics
end SolidityAudit
