import SolidityAudit.Pattern.Build

/-!
# Local declarations

A write counts as a write to a local variable if its statement opens with a declaration, or if the
name is declared, with a type or a data location before it, earlier in the text. Both tests look at
the text alone: there is no analysis of scopes.
-/

namespace SolidityAudit.Source
open Pattern

/-- The number of characters looked back for the beginning of a declaration. -/
def lookback : Nat := 50

def elementaryType : Pattern :=
  oneOf [
    chain [optional (lit "u"), lit "int", many (one Text.isDecimal)],
    lit "bool",
    lit "address",
    chain [lit "bytes", many (one Text.isDecimal)],
    lit "byte",
    lit "string"]

def dataLocation : Pattern := litOf ["memory", "calldata", "storage"]

def arrayBrackets : Pattern := many (chain [lit "[", wordChars, lit "]"])

def declarationOpening : Pattern :=
  chain [
    wordEdge,
    oneOf [dataLocation, chain [elementaryType, arrayBrackets]],
    blanks1,
    oneOf [one Text.isIdentStart, textEnd]]

def declarationOf (name : List Char) : Pattern :=
  chain [
    wordEdge,
    oneOf [
      chain [elementaryType, arrayBrackets, optional (chain [blanks1, dataLocation])],
      chain [some1 (one Text.isWord), arrayBrackets, blanks1, dataLocation]],
    optional (chain [blanks1, lit "payable"]),
    blanks1,
    chars name,
    wordEdge]

/-- Whether a declaration opens in the statement in progress at an offset, within the last
`lookback` characters. -/
def inDeclaration (text : List Char) (offset : Nat) : Bool :=
  declarationOpening.occursIn
    (Text.lastStatement ((text.take offset).drop (offset - lookback)))

/-- Whether a name is declared before an offset. The empty text and numbers are no names. -/
def declaredBefore (text : List Char) (offset : Nat) (name : List Char) : Bool :=
  !name.isEmpty && !name.all Text.isAnyDigit && (declarationOf name).occursIn (text.take offset)

/-- Whether a write at an offset to a name, if it is known, is presumed to write a local variable. -/
def declaresLocally (text : List Char) (offset : Nat) (name : Option (List Char)) : Bool :=
  inDeclaration text offset || name.any (declaredBefore text offset)

end SolidityAudit.Source
