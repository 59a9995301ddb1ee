import SolidityAudit.Pattern.Build

/-!
# Uses of the transaction's origin

An occurrence of `tx.origin` is used for authorization if it is compared, or if a guard opens before
it in its statement.
-/

namespace SolidityAudit.Authorization
open Pattern

def txOrigin : Pattern :=
  chain [wordEdge, lit "tx", blanks, lit ".", blanks, lit "origin", wordEdge]

def comparisonAfter : Pattern := chain [blanks, charOf "=!", lit "="]

def comparisonBefore : Pattern := chain [charOf "=!", lit "=", blanks, textEnd]

def guardOpening : Pattern :=
  chain [wordEdge, litOf ["require", "assert", "if"], blanks, lit "("]

def txOrigins (source : List Char) : List Span :=
  (txOrigin.findAll source).map (·.span)

/-- Whether an occurrence is compared with something or stands after the opening of a guard in its
statement. -/
def isAuthorizationUse (source : List Char) (occurrence : Span) : Bool :=
  let before := Text.lastStatement (source.take occurrence.start)
  (comparisonAfter.matchAt source occurrence.stop).isSome ||
    comparisonBefore.occursIn before || guardOpening.occursIn before

def lineSnippet (source : List Char) (occurrence : Span) : List Char :=
  let tail := (source.drop occurrence.stop).takeWhile (· != '\n')
  (Text.strip (occurrence.text source ++ tail)).take 120

end SolidityAudit.Authorization
