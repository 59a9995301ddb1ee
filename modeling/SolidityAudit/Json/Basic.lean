import SolidityAudit.Number.Binary64

/-!
# JSON values

Numbers written without a fraction and an exponent are whole numbers of any size; all others are
numbers of the 64-bit binary format. The members of an object stand in the order of their first
occurrence.
-/

namespace SolidityAudit

inductive Json where
  | null
  | bool (value : Bool)
  | int (value : Int)
  | real (value : Binary64)
  | str (value : String)
  | list (items : List Json)
  | object (members : List (String × Json))

namespace Json

instance : Inhabited Json := ⟨null⟩

abbrev Members := List (String × Json)

namespace Members

def get? (ms : Members) (key : String) : Option Json := ms.lookup key

/-- Sets a member. A key that is already there keeps its place. -/
def set : Members → String → Json → Members
  | [], key, value => [(key, value)]
  | (k, v) :: rest, key, value =>
    if k == key then (k, value) :: rest else (k, v) :: set rest key value

end Members

def ofText? : Option String → Json
  | some s => str s
  | none => null

def ofNat? : Option Nat → Json
  | some n => int n
  | none => null

def texts (ss : List String) : Json := list (ss.map str)

end Json
end SolidityAudit
