import SolidityAudit.Source.Declaration
import SolidityAudit.SourceUnit.Basic

/-!
# Writes of critical state

A state variable is critical if its name contains a word of a fixed vocabulary. A body writes
critical variables by name, and beside them other names with a word of the vocabulary, of which at
most one a word is listed.
-/

namespace SolidityAudit.CriticalState
open Pattern

def vocabulary : List String :=
  ["owner", "admin", "operator", "balance", "totalSupply", "allowance", "paused", "price", "rate",
    "fee", "limit", "threshold", "whitelist", "blacklist", "implementation", "controller"]

/-- An assignment after its target, alone or combined with one of four operations. -/
def assignmentSign : Pattern :=
  chain [blanks, Pattern.optional (charOf "+-*/"), lit "=", notNext "=>"]

def writePatterns (name : List Char) : List Pattern := [
  chain [wordEdge, chars name, indexes, assignmentSign],
  chain [wordEdge, chars name, indexes, blanks, litOf ["++", "--"]],
  chain [litOf ["++", "--"], blanks, chars name, wordEdge],
  chain [wordEdge, lit "delete", blanks1, chars name, wordEdge]]

def writes (body : List Char) (name : List Char) : Bool :=
  anyOccursIn (writePatterns name) body

def wordAssignment (word : String) : Pattern :=
  chain [
    wordEdge, group "name" (chain [wordChars, anyCase word, wordChars]), indexes, assignmentSign]

def wordAssignments : List Pattern := vocabulary.map wordAssignment

def wordPatterns : List Pattern := vocabulary.map anyCase

def isCritical (name : String) : Bool := anyOccursIn wordPatterns name.toList

def criticalNames (declared : List StateVariable) : List String :=
  (declared.map (·.name)).filter isCritical

/-- The first name assigned to by a pattern that is not listed yet and not local. -/
def newName? (body : List Char) (listed : List String) (p : Pattern) : Option String :=
  (p.findAll body).findSome? fun m =>
    let name := (m.group? body "name").getD []
    if listed.contains (String.ofList name) || Source.declaresLocally body m.start (some name) then
      none
    else some (String.ofList name)

/-- The critical names that a body writes: the declared ones first, then for each word of the
vocabulary the first other name. -/
def modifiedNames (body : List Char) (critical : List String) : List String :=
  wordAssignments.foldl (fun listed p =>
      match newName? body listed p with
      | some name => listed ++ [name]
      | none => listed)
    (critical.filter fun name => writes body name.toList)

def validationPatterns : List Pattern := [
  chain [wordEdge, lit "require", blanks, lit "("],
  chain [wordEdge, lit "assert", blanks, lit "("],
  chain [wordEdge, lit "revert", wordEdge]]

def validatesInput (body : List Char) : Bool := anyOccursIn validationPatterns body

end SolidityAudit.CriticalState
