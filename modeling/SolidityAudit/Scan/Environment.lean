import SolidityAudit.Json.Reader
import SolidityAudit.Scan.Settings

/-!
# Settings from the environment

A setting may be given by an environment variable with its name after a common beginning, in any
mixture of cases. The detectors are given by a JSON object or one by one, by variables whose names
hold the path to the entry with double underscores between its steps. Explicit settings are laid
over those of the environment, objects member by member.
-/

namespace SolidityAudit

inductive SettingsRefusal where
  /-- The variable of a setting does not hold JSON. -/
  | unreadable (field : String)
  | invalid (faults : List Fault)

namespace SettingsRefusal

def message : SettingsRefusal → String
  | unreadable field =>
    "error parsing value for field \"" ++ field ++ "\" from source \"EnvSettingsSource\""
  | invalid faults => toString faults.length ++ " invalid settings"

end SettingsRefusal

namespace Json

def membersOf : Json → Members
  | .object ms => ms
  | _ => []

/-- Lays members over others: where both values are objects they are merged, and otherwise the upper
one stands. Places are kept. The number bounds the depth to which objects are merged. -/
def overlay : Nat → Members → Members → Members
  | 0, base, upper => upper.foldl (fun ms (key, v) => ms.set key v) base
  | depth + 1, base, upper =>
    upper.foldl (fun ms (key, v) =>
      match ms.get? key, v with
      | some (.object old), .object new => ms.set key (.object (overlay depth old new))
      | _, _ => ms.set key v) base

/-- Sets the member at the end of a path; missing objects on the way are created, and a way that is
barred by another value leads nowhere. -/
def setAt (ms : Members) (last : String) (value : Json) : List String → Members
  | [] => ms.set last value
  | key :: path =>
    match ms.get? key with
    | some (.object inner) => ms.set key (.object (setAt inner last value path))
    | some _ => ms
    | none => ms.set key (.object (setAt [] last value path))

end Json

namespace Environment

def nameBeginning : String := "contractsentry_"

def maxDepth : Nat := 900

/-- Names in small letters. Of variables whose names become equal the last one counts. -/
def lowered (entries : List (String × String)) : List (String × String) :=
  let members : Json.Members := entries.foldl (fun ms (name, value) =>
    ms.set (String.ofList (Text.lower name.toList)) (.str value)) []
  members.filterMap fun
    | (name, .str value) => some (name, value)
    | _ => none

def withBeginning (beginning : String) (entries : List (String × String)) :
    List (String × String) :=
  entries.filterMap fun (name, value) =>
    if beginning.toList.isPrefixOf name.toList then
      some (String.ofList (name.toList.drop beginning.toList.length), value)
    else none

def splitPath (step : List Char) : List Char → List String
  | [] => [String.ofList step]
  | '_' :: '_' :: rest => String.ofList step :: splitPath [] rest
  | c :: rest => splitPath (step ++ [c]) rest

/-- The value of a variable that gives a whole entry: JSON, or otherwise the text itself. -/
def entryValue (value : String) : Json :=
  (Json.parse? maxDepth value.toList).getD (.str value)

def enter (ms : Json.Members) (entry : String × String) : Json.Members :=
  let path := splitPath [] entry.1.toList
  let last := path.getLastD ""
  match path.dropLast with
  | [] => ms.set last (entryValue entry.2)
  | keys => Json.setAt ms last (.str entry.2) keys

def singleDetectors (entries : List (String × String)) : Json.Members :=
  (withBeginning "detectors__" entries).foldl enter []

def detectors (entries : List (String × String)) : Except SettingsRefusal (Option Json) :=
  let single := singleDetectors entries
  match entries.lookup "detectors" with
  | none => .ok (if single.isEmpty then none else some (.object single))
  | some value =>
    match Json.parse? maxDepth value.toList with
    | none => .error (.unreadable "detectors")
    | some .null => .ok none
    | some (.object ms) => .ok (some (.object (Json.overlay maxDepth ms single)))
    | some v => .ok (some v)

def members (environment : List (String × String)) : Except SettingsRefusal Json.Members := do
  let entries := withBeginning nameBeginning (lowered environment)
  let simple := Settings.fields.dropLast.filterMap fun field =>
    (entries.lookup field).map fun value => (field, Json.str value)
  match ← detectors entries with
  | some v => return simple ++ [("detectors", v)]
  | none => return simple

end Environment

/-- Settings from the environment and from explicit members, which come first in rank. -/
def Settings.ofSources (environment : List (String × String)) (explicit : Json.Members) :
    Except SettingsRefusal Settings := do
  let given ← Environment.members environment
  match Settings.load (Json.overlay Environment.maxDepth given explicit) with
  | .ok s => return s
  | .refused faults => .error (.invalid faults)

end SolidityAudit
