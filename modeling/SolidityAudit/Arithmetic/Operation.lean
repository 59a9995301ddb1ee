import SolidityAudit.Source.Declaration
import SolidityAudit.Vulnerability

/-!
# Arithmetic operations

The eight arithmetic operations that are looked for, in the order of the table `operations`. An
operation in a function's body is risky if it touches a parameter, or if its leading name is not
declared as a local variable before it and so is presumed to be storage.
-/

namespace SolidityAudit.Arithmetic
open Pattern

inductive Risk where
  | overflow
  | underflow
deriving DecidableEq

namespace Risk

def tag : Risk → String
  | overflow => "overflow"
  | underflow => "underflow"

def vulnerability : Risk → Vulnerability
  | overflow => .integerOverflow
  | underflow => .integerUnderflow

end Risk

structure Operation where
  name : String
  risk : Risk
  pattern : Pattern

/-- A name with index accesses, or a number. -/
def operand : Pattern :=
  oneOf [
    chain [wordEdge, identifier, indexes],
    chain [wordEdge, some1 (one Text.isDecimal)]]

def leftOperand : Pattern := group "lhs" operand

def rightOperand : Pattern := group "rhs" operand

/-- An operator between two operands, where the given characters must not follow the operator. -/
def infixOperation (symbol excluded : String) : Pattern :=
  chain [leftOperand, blanks, lit symbol, notNext excluded, blanks, rightOperand]

/-- An assignment combined with an operation; what is assigned may be no operand. -/
def assigningOperation (symbol : String) : Pattern :=
  chain [leftOperand, blanks, lit symbol, blanks, Pattern.optional rightOperand]

def steppingOperation (symbol : String) : Pattern :=
  oneOf [chain [leftOperand, blanks, lit symbol], chain [lit symbol, blanks, rightOperand]]

def operations : List Operation := [
  ⟨"addition", .overflow, infixOperation "+" "+="⟩,
  ⟨"subtraction", .underflow, infixOperation "-" "-=>"⟩,
  ⟨"multiplication", .overflow, infixOperation "*" "*="⟩,
  ⟨"addition assignment", .overflow, assigningOperation "+="⟩,
  ⟨"subtraction assignment", .underflow, assigningOperation "-="⟩,
  ⟨"multiplication assignment", .overflow, assigningOperation "*="⟩,
  ⟨"increment", .overflow, steppingOperation "++"⟩,
  ⟨"decrement", .underflow, steppingOperation "--"⟩]

def leadingName? (operand : List Char) : Option (List Char) :=
  match operand with
  | c :: rest => if Text.isIdentStart c then some (c :: rest.takeWhile Text.isWord) else none
  | [] => none

def operandNames (text : List Char) (m : Match) : List (List Char) :=
  ["lhs", "rhs"].filterMap fun label => (m.group? text label).bind leadingName?

/-- Whether a match touches a parameter or presumed storage. -/
def isRisky (text : List Char) (m : Match) (parameters : List String) : Bool :=
  let names := operandNames text m
  names.any (fun name => parameters.contains (String.ofList name)) ||
    names.head?.any fun name => !Source.declaredBefore text m.start name

def firstOperation? (text : List Char) : Option (Operation × Match) :=
  operations.findSome? fun op => (op.pattern.find? text).map (op, ·)

end SolidityAudit.Arithmetic
