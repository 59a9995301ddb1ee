import SolidityAudit.Detector.Registry

/-!
# Running detectors side by side

Each detector has a slot in which it waits, runs or is done. A waiting detector may start while fewer
detectors than there are workers run, and a running one may finish at any moment. The outcomes are
joined in the order of the slots.
-/

namespace SolidityAudit

inductive SlotState where
  | waiting
  | running
  | done (outcome : Outcome)

structure Slot where
  detector : Detector
  state : SlotState

namespace Slot

def isRunning (s : Slot) : Bool :=
  match s.state with
  | .running => true
  | _ => false

def isWaiting (s : Slot) : Bool :=
  match s.state with
  | .waiting => true
  | _ => false

def outcome? (s : Slot) : Option Outcome :=
  match s.state with
  | .done o => some o
  | _ => none

end Slot

namespace Pool

def capacity (workers : Int) : Nat := (max 1 workers).toNat

def initial (detectors : List Detector) : List Slot := detectors.map (⟨·, .waiting⟩)

def runningCount (slots : List Slot) : Nat := slots.countP (·.isRunning)

/-- A step of one detector: it starts, if there is a worker for it, or it finishes. -/
inductive Step (capacity : Nat) (u : SourceUnit) : List Slot → List Slot → Prop where
  | start (before after : List Slot) (d : Detector)
      (free : runningCount (before ++ ⟨d, .waiting⟩ :: after) < capacity) :
      Step capacity u (before ++ ⟨d, .waiting⟩ :: after) (before ++ ⟨d, .running⟩ :: after)
  | finish (before after : List Slot) (d : Detector) :
      Step capacity u (before ++ ⟨d, .running⟩ :: after)
        (before ++ ⟨d, .done (d.run u)⟩ :: after)

def finishFirst (u : SourceUnit) : List Slot → List Slot
  | [] => []
  | s :: rest =>
    if s.isRunning then ⟨s.detector, .done (s.detector.run u)⟩ :: rest
    else s :: finishFirst u rest

def startFirst : List Slot → List Slot
  | [] => []
  | s :: rest =>
    if s.isWaiting then ⟨s.detector, .running⟩ :: rest else s :: startFirst rest

/-- The next step: a waiting detector starts while there is a worker for it, and otherwise a running
one finishes. -/
def advance (capacity : Nat) (u : SourceUnit) (slots : List Slot) : List Slot :=
  if slots.any (·.isWaiting) && decide (runningCount slots < capacity) then startFirst slots
  else finishFirst u slots

def advanceBy (capacity : Nat) (u : SourceUnit) : Nat → List Slot → List Slot
  | 0, slots => slots
  | n + 1, slots => advanceBy capacity u n (advance capacity u slots)

def join (slots : List Slot) : List Outcome := slots.filterMap (·.outcome?)

/-- Runs detectors side by side: each of them takes two steps. -/
def outcomes (workers : Int) (u : SourceUnit) (detectors : List Detector) : List Outcome :=
  join (advanceBy (capacity workers) u (2 * detectors.length) (initial detectors))

end Pool
end SolidityAudit
