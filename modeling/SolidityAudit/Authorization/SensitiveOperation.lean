import SolidityAudit.Pattern.Build
import SolidityAudit.SourceUnit.Basic

/-!
# Sensitive operations

Operations that should not be open to every caller, recognised by the name of the function that
performs them or by its body.
-/

namespace SolidityAudit.Authorization
open Pattern

inductive Recognised where
  | byName
  | byBody
deriving DecidableEq

namespace Recognised

def tag : Recognised → String
  | byName => "name"
  | byBody => "body"

end Recognised

/-- The sensitive operations with their labels; the first one that is recognised counts. -/
def sensitiveOperations : List (String × Pattern) :=
  let called (word : Pattern) := chain [word, blanks, lit "("]
  [("selfdestruct", called (lit "selfdestruct")),
    ("suicide", called (lit "suicide")),
    ("ether transfer", called (lit ".transfer")),
    ("ether send", called (lit ".send")),
    ("call with value",
      chain [lit ".call", blanks, lit "\x7b", many (charNotOf "\x7d"), lit "value"]),
    ("withdraw", anyCase "withdraw"),
    ("setOwner", anyCase "setOwner"),
    ("changeOwner", anyCase "changeOwner"),
    ("transferOwnership", anyCase "transferOwnership"),
    ("setAdmin", anyCase "setAdmin"),
    ("setMinter", anyCase "setMinter"),
    ("setPauser", anyCase "setPauser"),
    ("mint", called (anyCase "mint")),
    ("burn", called (anyCase "burn")),
    ("unpause", called (anyCase "unpause")),
    ("pause", called (anyCase "pause")),
    ("upgrade", anyCase "upgrade"),
    ("setImplementation", anyCase "setImplementation")]

def sensitiveOperation? (f : FunctionDecl) : Option (String × Recognised) :=
  let callForm := f.name.toList ++ ['(']
  let body := f.bodyText
  sensitiveOperations.findSome? fun (label, pattern) =>
    if pattern.occursIn callForm then some (label, .byName)
    else if pattern.occursIn body then some (label, .byBody)
    else none

end SolidityAudit.Authorization
