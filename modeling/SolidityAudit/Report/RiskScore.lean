import SolidityAudit.Finding.Basic
import SolidityAudit.Number.Binary64

/-!
# Risk score

The gravest finding gives a score from 0.5 to 10, and every other one adds a twentieth of its own
score, up to 10 in all. Scores are numbers of 53 significant bits, written as whole multiples of
`2 ^ (-58)`. What the other findings add is summed up from the graver to the lesser ones and then
added to the score of the gravest, and every sum on the way is rounded to 53 bits. The result is
rounded to tenths, a half to the even neighbour.
-/

namespace SolidityAudit.RiskScore

/-- The number of parts into which one point is divided. -/
def unit : Nat := Nat.pow 2 58

def halves : Severity → Nat
  | .critical => 20
  | .high => 15
  | .medium => 10
  | .low => 5
  | .info => 1

def weight (s : Severity) : Nat := halves s * Nat.pow 2 57

/-- What a finding beside the gravest adds: a twentieth of its score, to 53 significant bits. -/
def share : Severity → Nat
  | .critical => Nat.pow 2 57
  | .high => 3 * Nat.pow 2 55
  | .medium => Nat.pow 2 56
  | .low => Nat.pow 2 55
  | .info => 7205759403792794

/-- A number to its 53 most significant bits, a half to the even neighbour. -/
def toBits53 (n : Nat) : Nat :=
  let surplus := n.log2 - 52
  Binary64.roundDiv n (Nat.pow 2 surplus) * Nat.pow 2 surplus

def bySeverity (severities : List Severity) : List Severity :=
  severities.mergeSort fun a b => b.rank ≤ a.rank

def addShare (total : Nat) (s : Severity) : Nat := toBits53 (total + share s)

/-- The score of severities, the gravest first, in tenths. -/
def tenthsOfSorted : List Severity → Nat
  | [] => 0
  | worst :: others =>
    let added := others.foldl addShare 0
    let score := min (10 * unit) (toBits53 (weight worst + added))
    Binary64.roundDiv (10 * score) unit

def tenths (findings : List Finding) : Nat :=
  tenthsOfSorted (bySeverity (findings.map (·.severity)))

def text (tenths : Nat) : String :=
  toString (tenths / 10) ++ "." ++ toString (tenths % 10)

end SolidityAudit.RiskScore
