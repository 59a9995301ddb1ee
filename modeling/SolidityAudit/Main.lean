import Std.Time.DateTime.Timestamp
import SolidityAudit.Clock.Calendar
import SolidityAudit.Command.Run

/-!
# The command line

Reads the arguments, the environment and the files, runs the command and carries out what it asks for.
-/

namespace SolidityAudit.Main

def variableNames : List String :=
  let fields := Settings.fields ++
    Vulnerability.detectable.flatMap fun v =>
      ["detectors__" ++ v.tag, "detectors__" ++ v.tag ++ "__enabled"]
  fields.map fun field =>
    String.ofList ((Environment.nameBeginning ++ field).toList.map Char.toUpper)

def readEnvironment : IO (List (String × String)) :=
  variableNames.filterMapM fun name => do
    return (← IO.getEnv name).map (name, ·)

def readFile? (path : String) : IO (Option String) := do
  try
    return some (← IO.FS.readFile path)
  catch _ => return none

def readFiles (args : List String) : IO (List (String × String)) :=
  args.filterMapM fun arg => do
    let path := Command.tidyPath arg
    return (← readFile? path).map (path, ·)

/-- The folders that the arguments may name; a path stands at the end of its argument. -/
def readFolders (args : List String) : IO (List String) :=
  let paths := args.flatMap fun arg =>
    (List.range arg.length).map fun i => Command.tidyPath (String.ofList (arg.toList.drop i))
  paths.filterM fun path => (System.mkFilePath [path]).isDir

def hexBytes (bytes : ByteArray) : String :=
  String.ofList (bytes.data.toList.flatMap fun b => Text.hexDigits 2 b.toNat)

def uuidOf (digits : List Char) : String :=
  let part (start count : Nat) : String := String.ofList ((digits.drop start).take count)
  "-".intercalate [part 0 8, part 8 4, part 12 4, part 16 4, part 20 12]

/-- The identifier of a finding in a run with the given seed. -/
def findingId (seed : String) (f : Finding) : String :=
  let key := f.identityKey
  let text := seed ++ key.detector ++ key.title ++ f.location ++ String.ofList key.evidence
  uuidOf (Sha256.hexDigest text.toUTF8.data.toList)

def microseconds : IO Int := do
  return (← Std.Time.Timestamp.now).toNanosecondsSinceUnixEpoch.toInt / 1000

def folderOf (path : String) : String := "/".intercalate (path.splitOn "/").dropLast

def save (path : String) (content : Json) : IO Unit := do
  let folder := folderOf path
  if folder != "" then IO.FS.createDirAll folder
  IO.FS.writeFile path content.pretty

def perform : Command.Act → IO Unit
  | .text content => IO.println content
  | .table rows => for cells in rows do IO.println (" | ".intercalate cells)
  | .progress _ => return
  | .json value => IO.println value.pretty
  | .save path content => save path content

end SolidityAudit.Main

open SolidityAudit in
def main (args : List String) : IO UInt32 := do
  let seed := Main.hexBytes (← IO.getRandomBytes 16)
  let files ← Main.readFiles args
  let folders ← Main.readFolders args
  let surroundings : Command.Surroundings := {
    file? := fun path => files.lookup path
    isFolder := folders.contains
    environment := ← Main.readEnvironment }
  let started ← Main.microseconds
  let answer ← IO.lazyPure fun _ => Command.run surroundings args
  let completed ← Main.microseconds
  let effect := answer.effect surroundings {
    reportId := Main.uuidOf seed.toList
    startedAt := Calendar.timestamp (started / 1000000)
    completedAt := Calendar.timestamp (completed / 1000000)
    duration := Duration.shown (some (completed - started))
    findingId := Main.findingId seed
    executionTime := .real (.finite false 0 0) }
  for act in effect.acts do Main.perform act
  return effect.exitCode.toUInt32
