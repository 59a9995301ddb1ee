/-!
# Parsed source units

A source unit is one Solidity file as its parser describes it: the full text, the version pragma and
the contracts declared in it, each with its state variables and functions.
-/

namespace SolidityAudit

inductive Visibility where
  | «public»
  | external
  | internal
  | «private»
deriving DecidableEq

inductive Mutability where
  | view
  | pure
  | payable
  | nonpayable
deriving DecidableEq

inductive ContractKind where
  | contract
  | interface
  | library
  | abstract
deriving DecidableEq

structure Parameter where
  name : String := ""
  type : String := ""
deriving DecidableEq

structure StateVariable where
  name : String
  type : String := ""
deriving DecidableEq

/-- A function with the text of its body; a declaration without a body has none. -/
structure FunctionDecl where
  name : String := ""
  visibility : Visibility := .public
  mutability : Mutability := .nonpayable
  modifiers : List String := []
  parameters : List Parameter := []
  body : Option String := none
  lineStart : Nat := 1
deriving DecidableEq

structure ContractDecl where
  name : String
  kind : ContractKind := .contract
  inherits : List String := []
  stateVariables : List StateVariable := []
  functions : List FunctionDecl := []
deriving DecidableEq

structure SourceUnit where
  source : String := ""
  pragma : Option String := none
  contracts : List ContractDecl := []
  name : Option String := none
deriving DecidableEq

namespace Visibility

def all : List Visibility := [.public, external, internal, .private]

def tag : Visibility → String
  | .public => "public"
  | external => "external"
  | internal => "internal"
  | .private => "private"

def ofTag? (name : String) : Option Visibility := all.find? (·.tag == name)

end Visibility

namespace Mutability

def all : List Mutability := [view, pure, payable, nonpayable]

def tag : Mutability → String
  | view => "view"
  | pure => "pure"
  | payable => "payable"
  | nonpayable => "nonpayable"

def ofTag? (name : String) : Option Mutability := all.find? (·.tag == name)

end Mutability

namespace ContractKind

def all : List ContractKind := [contract, interface, library, abstract]

def tag : ContractKind → String
  | contract => "contract"
  | interface => "interface"
  | library => "library"
  | abstract => "abstract"

def ofTag? (name : String) : Option ContractKind := all.find? (·.tag == name)

end ContractKind

namespace FunctionDecl

def bodyText (f : FunctionDecl) : List Char := (f.body.getD "").toList

/-- A constructor or a nameless fallback. -/
def isConstructor (f : FunctionDecl) : Bool := f.name == "" || f.name == "constructor"

def parameterNames (f : FunctionDecl) : List String :=
  (f.parameters.map (·.name)).filter (· != "")

def isEntryPoint (f : FunctionDecl) : Bool :=
  f.visibility == .public || f.visibility == .external

def isStateMutating (f : FunctionDecl) : Bool :=
  !(f.mutability == .view || f.mutability == .pure)

end FunctionDecl

namespace SourceUnit

def text (u : SourceUnit) : List Char := u.source.toList

def contractNames (u : SourceUnit) : List String := u.contracts.map (·.name)

def contract? (u : SourceUnit) (name : String) : Option ContractDecl :=
  u.contracts.find? (·.name == name)

end SourceUnit
end SolidityAudit
