import SolidityAudit.Text.Basic
import SolidityAudit.SourceUnit.Basic

/-!
# Line numbers

Lines are counted from one and are ended by line feeds. A function's body is given as a text of its
own, so a line inside it is found through the first place where the body stands in the source.
-/

namespace SolidityAudit.Source

/-- The number of the line on which an offset lies. Offsets outside the text count as its ends. -/
def lineAt (source : List Char) (offset : Int) : Nat :=
  Text.lineFeeds (source.take offset.toNat) + 1

/-- The offset of the first occurrence of a body; an empty body has no place. -/
def locate? (source body : List Char) : Option Nat :=
  if body.isEmpty then none else Text.find? source body

/-- The line of an offset inside a function's body. For a body that is not part of the source, lines
are counted from the line on which the function starts. -/
def bodyLine (source : List Char) (f : FunctionDecl) (offset : Int) : Nat :=
  match locate? source f.bodyText with
  | some start => lineAt source (start + offset)
  | none => f.lineStart + Text.lineFeeds (f.bodyText.take offset.toNat)

/-- The first function of a contract whose body, where it is found, contains the offset. -/
def functionAt? (contract : ContractDecl) (source : List Char) (offset : Int) :
    Option FunctionDecl :=
  contract.functions.find? fun f =>
    match locate? source f.bodyText with
    | some start => start ≤ offset && offset < start + f.bodyText.length
    | none => false

end SolidityAudit.Source
