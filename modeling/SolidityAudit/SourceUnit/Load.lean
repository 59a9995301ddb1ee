import SolidityAudit.Json.Reader
import SolidityAudit.SourceUnit.Basic
import SolidityAudit.Validation.Field

/-!
# Reading and writing source units

The parser's output is JSON. Keys of several words may be spelled `likeThis` or `like_this`; where
both are given the first one counts. All keys but the names of contracts and state variables may be
left out. `SourceUnit.dump` writes a unit with every key, in the second spelling.
-/

namespace SolidityAudit

namespace Parameter

def load : Json → Checked Parameter :=
  Checked.record fun ms =>
    Parameter.mk <$> Checked.optional ms ["name"] Checked.text ""
      <*> Checked.optional ms ["type"] Checked.text ""

def dump (p : Parameter) : Json := .object [("name", .str p.name), ("type", .str p.type)]

end Parameter

namespace StateVariable

def load : Json → Checked StateVariable :=
  Checked.record fun ms =>
    StateVariable.mk <$> Checked.required ms ["name"] Checked.text
      <*> Checked.optional ms ["type"] Checked.text ""

def dump (v : StateVariable) : Json := .object [("name", .str v.name), ("type", .str v.type)]

end StateVariable

namespace FunctionDecl

def load : Json → Checked FunctionDecl :=
  Checked.record fun ms =>
    FunctionDecl.mk <$> Checked.optional ms ["name"] Checked.text ""
      <*> Checked.optional ms ["visibility"] (Checked.choice Visibility.ofTag?) .public
      <*> Checked.optional ms ["stateMutability", "state_mutability"]
        (Checked.choice Mutability.ofTag?) .nonpayable
      <*> Checked.optional ms ["modifiers"] (Checked.list Checked.text) []
      <*> Checked.optional ms ["parameters"] (Checked.list Parameter.load) []
      <*> Checked.optional ms ["body"] (Checked.nullable Checked.text) none
      <*> Checked.optional ms ["lineStart", "line_start"] Checked.positive 1

def dump (f : FunctionDecl) : Json :=
  .object [
    ("name", .str f.name),
    ("visibility", .str f.visibility.tag),
    ("state_mutability", .str f.mutability.tag),
    ("modifiers", .texts f.modifiers),
    ("parameters", .list (f.parameters.map Parameter.dump)),
    ("body", .ofText? f.body),
    ("line_start", .int f.lineStart)]

end FunctionDecl

namespace ContractDecl

def load : Json → Checked ContractDecl :=
  Checked.record fun ms =>
    ContractDecl.mk <$> Checked.required ms ["name"] Checked.text
      <*> Checked.optional ms ["kind"] (Checked.choice ContractKind.ofTag?) .contract
      <*> Checked.optional ms ["inherits"] (Checked.list Checked.text) []
      <*> Checked.optional ms ["stateVariables", "state_variables"]
        (Checked.list StateVariable.load) []
      <*> Checked.optional ms ["functions"] (Checked.list FunctionDecl.load) []

def dump (c : ContractDecl) : Json :=
  .object [
    ("name", .str c.name),
    ("kind", .str c.kind.tag),
    ("inherits", .texts c.inherits),
    ("state_variables", .list (c.stateVariables.map StateVariable.dump)),
    ("functions", .list (c.functions.map FunctionDecl.dump))]

end ContractDecl

namespace SourceUnit

def load : Json → Checked SourceUnit :=
  Checked.record fun ms =>
    SourceUnit.mk <$> Checked.optional ms ["source"] Checked.text ""
      <*> Checked.optional ms ["pragma"] (Checked.nullable Checked.text) none
      <*> Checked.optional ms ["contracts"] (Checked.list ContractDecl.load) []
      <*> Checked.optional ms ["name"] (Checked.nullable Checked.text) none

def dump (u : SourceUnit) : Json :=
  .object [
    ("source", .str u.source),
    ("pragma", .ofText? u.pragma),
    ("contracts", .list (u.contracts.map ContractDecl.dump)),
    ("name", .ofText? u.name)]

def maxDepth : Nat := 200

def loadText (text : List Char) : Checked SourceUnit :=
  match Json.parse? maxDepth text with
  | some v => load v
  | none => .fail .notJson

/-- Reads a unit from a value, or from a JSON text given as a value. -/
def loadPayload : Json → Checked SourceUnit
  | .str s => loadText s.toList
  | v => load v

end SourceUnit
end SolidityAudit
