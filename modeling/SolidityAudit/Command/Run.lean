import SolidityAudit.Command.Options
import SolidityAudit.Report.Printer
import SolidityAudit.Scan.Basic
import SolidityAudit.Scan.Environment

/-!
# Commands

The command line has two commands: one scans the unit in a file, the other lists the detectors. A
command works out what it will do and then does it, one act after another. The terminal and the file
system may refuse an act: a text can hold markup that cannot be rendered, a path may not be writable.
The command ends there with exit status 1.
-/

namespace SolidityAudit.Command

inductive Act where
  | text (content : String)
  | table (rows : List (List String))
  /-- A line that is shown while the detectors run. -/
  | progress (content : String)
  | json (value : Json)
  | save (path : String) (content : Json)

/-- What a command can see, and which of its acts are carried out. -/
structure Surroundings where
  file? : String → Option String
  isFolder : String → Bool
  environment : List (String × String)
  carriesOut : Act → Bool := fun _ => true

/-- What a command will do, and its exit status if nothing of it is refused. -/
structure Plan where
  acts : List Act := []
  exitCode : Nat := 0

structure Effect where
  acts : List Act
  exitCode : Nat

def Plan.perform (carriesOut : Act → Bool) (p : Plan) : Effect :=
  if p.acts.all carriesOut then ⟨p.acts, p.exitCode⟩ else ⟨p.acts.takeWhile carriesOut, 1⟩

/-- The answer to a command line. What a report shows of the run, its times and identifiers, is not
part of it. -/
inductive Answer where
  | immediate (plan : Plan)
  | reported (options : ScanOptions) (report : Report)

def misuse : Answer := .immediate { exitCode := 2 }

def breakOff : Answer := .immediate { exitCode := 1 }

def display (acts : List Act) : Answer := .immediate { acts := acts }

def version : String := "0.1.0"

/-! ## Scanning -/

def configOf (defaults : ScanConfig) (o : ScanOptions) : ScanConfig :=
  { defaults with
    detectors := if o.detectors.isEmpty then defaults.detectors else some o.detectors
    parallel := !o.sequential
    minSeverity := o.minSeverity
    maxFindings := o.maxFindings }

def shortTitle (title : String) : String :=
  if 50 < title.toList.length then String.ofList (title.toList.take 50) ++ "..." else title

def findingRow (stamps : RunStamps) (f : Finding) : Except WriteError (List String) :=
  return [
    String.ofList ((stamps.findingId f).toList.take 8), f.severity.heading, f.vulnerability.tag,
    shortTitle f.title, ← f.tryLocation]

def heading (o : ScanOptions) : List Act :=
  match o.format with
  | .summary => [
    .text ("\nContractSentry v" ++ version), .text ("Input: " ++ o.input),
    .progress "Running detectors..."]
  | .json => []

def summaryActs (stamps : RunStamps) (r : Report) : List Act :=
  [.text "\nScan Complete!\n", .text (r.summaryText stamps.duration)] ++
    if r.findings.isEmpty then [] else [.text "\nFindings:\n"]

def findingTable (rows : List (List String)) : List Act :=
  if rows.isEmpty then []
  else [.table (["ID", "Severity", "Type", "Title", "Location"] :: rows)]

def savedNote (path : String) : Act := .text ("\n✓ Report saved to: " ++ path)

/-- Shows and saves a report as the options say. Where the rows of the table cannot be written the
plan ends before it. -/
def present (stamps : RunStamps) (o : ScanOptions) (r : Report) : Plan :=
  let json := r.toJson stamps
  let exitCode := if o.failOnCritical && r.hasCritical then 2 else 0
  let saved := heading o ++ o.output.toList.map (.save · json)
  match o.format with
  | .json =>
    { acts := saved ++ if o.output.isNone then [.json json] else [], exitCode := exitCode }
  | .summary =>
    match r.findings.mapM (findingRow stamps) with
    | .error _ => { acts := saved ++ summaryActs stamps r, exitCode := 1 }
    | .ok rows =>
      { acts := saved ++ summaryActs stamps r ++ findingTable rows ++
          o.output.toList.map savedNote
        exitCode := exitCode }

/-- What is done where there is no report. A unit that could not be read is refused before the
heading, and for evidence that cannot be written no reason is given. -/
def refuse (o : ScanOptions) : ScanRefusal → Plan
  | .malformed faults =>
    { acts := [.text ("\nError: " ++ (ScanRefusal.malformed faults).message)], exitCode := 1 }
  | .tooLarge size limit =>
    { acts := heading o ++ [.text ("\nError: " ++ (ScanRefusal.tooLarge size limit).message)]
      exitCode := 1 }
  | .unwritable _ => { acts := heading o, exitCode := 1 }

def scanText (settings : Settings) (o : ScanOptions) (text : String) : Answer :=
  match settings.defaultConfig with
  | .refused _ => breakOff
  | .ok defaults =>
    match Registry.standard.analyze settings.maxWorkers (configOf defaults o)
        (.payload (.str text)) with
    | .ok r => .reported o r
    | .error refusal => .immediate (refuse o refusal)

def scan (s : Surroundings) (settings : Settings) (args : List String) : Answer :=
  match Reading.ofArguments? ScanOptions.specs false args with
  | none => misuse
  | some r =>
    if r.has "--help" then display []
    else match ScanOptions.ofReading? r with
      | none => misuse
      | some o =>
        if (o.output.map s.isFolder).getD false then misuse
        else match s.file? o.input with
          | none => misuse
          | some text => scanText settings o text

/-! ## Listing detectors -/

def detectorRow (settings : Settings) (d : Detector) : List String :=
  [d.name, d.vulnerability.tag, (d.swcId.filter (· != "")).getD "-", d.description,
    if settings.isEnabled d.vulnerability.tag then "Enabled" else "Disabled"]

def listDetectors (settings : Settings) (args : List String) : Answer :=
  match Reading.ofArguments? helpSpecs false args with
  | none => misuse
  | some r =>
    if r.has "--help" then display []
    else if !r.words.isEmpty then misuse
    else display [
      .text "\nRegistered Detectors:\n",
      .table (["Detector", "Type", "SWC", "Description", "Status"] ::
        Registry.standard.detectors.map (detectorRow settings))]

/-! ## Choosing the command -/

def actionOf? (s : Surroundings) : String → Option (Settings → List String → Answer)
  | "scan" => some (scan s)
  | "detectors" => some listDetectors
  | _ => none

def endingOption? (r : Reading) : Option String :=
  (r.values.find? fun (name, _) => name == "--version" || name == "--help").map (·.1)

/-- Runs the command that the arguments name. The settings are read before its own arguments. -/
def run (s : Surroundings) (args : List String) : Answer :=
  match Reading.ofArguments? commonSpecs true args with
  | none => misuse
  | some r =>
    match endingOption? r, r.words with
    | some "--version", _ => display [.text ("cli, version " ++ version)]
    | some _, _ => display []
    | none, [] => misuse
    | none, name :: rest =>
      match actionOf? s name with
      | none => misuse
      | some action =>
        match Settings.ofSources s.environment [] with
        | .ok settings => action settings rest
        | .error _ => breakOff

def Answer.plan (stamps : RunStamps) : Answer → Plan
  | .immediate plan => plan
  | .reported o r => present stamps o r

def Answer.effect (s : Surroundings) (stamps : RunStamps) (a : Answer) : Effect :=
  (a.plan stamps).perform s.carriesOut

end SolidityAudit.Command
