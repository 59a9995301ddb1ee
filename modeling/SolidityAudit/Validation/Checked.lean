/-!
# Checked values

A check gives a value or refuses it. A refusal lists every fault that was found, each with its cause
and the path to the part of the input that has it. Checks of several parts are combined so that the
faults of all parts are kept, in the order of the parts.
-/

namespace SolidityAudit

inductive Step where
  | key (name : String)
  | index (position : Nat)
deriving DecidableEq

inductive Cause where
  | missing
  | notRecord
  | notText
  | notList
  | notMapping
  | notChoice
  | notWhole
  | unreadableWhole
  | fractional
  | oversized
  | notFinite
  | belowMinimum
  | notAbove
  | notTruth
  | unreadableTruth
  | unknownKey
  | notJson
  /-- A rule of the domain is broken. -/
  | rejected (message : String)
deriving DecidableEq

structure Fault where
  path : List Step
  cause : Cause
deriving DecidableEq

inductive Checked (α : Type) where
  | ok (value : α)
  | refused (faults : List Fault)

namespace Checked

variable {α β : Type}

def fail (cause : Cause) : Checked α := refused [⟨[], cause⟩]

def map (f : α → β) : Checked α → Checked β
  | ok a => ok (f a)
  | refused faults => refused faults

/-- Two checks side by side: the faults of both are kept. -/
def apply : Checked (α → β) → Checked α → Checked β
  | ok f, ok a => ok (f a)
  | ok _, refused faults => refused faults
  | refused faults, ok _ => refused faults
  | refused faults, refused more => refused (faults ++ more)

def andThen : Checked α → (α → Checked β) → Checked β
  | ok a, next => next a
  | refused faults, _ => refused faults

instance : Functor Checked where
  map := map

instance : Applicative Checked where
  pure := ok
  seq f a := apply f (a ())

def under (step : Step) : Checked α → Checked α
  | ok a => ok a
  | refused faults => refused (faults.map fun f => { f with path := step :: f.path })

/-- The checks of the items of a list, numbered from `position`. -/
def items (check : β → Checked α) (position : Nat) : List β → Checked (List α)
  | [] => ok []
  | b :: rest =>
    apply (map List.cons ((check b).under (.index position))) (items check (position + 1) rest)

end Checked
end SolidityAudit
