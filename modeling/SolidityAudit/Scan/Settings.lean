import SolidityAudit.Logging.Level
import SolidityAudit.Scan.Config

/-!
# Settings
-/

namespace SolidityAudit

structure Settings where
  logLevel : LogLevel := .info
  logFormat : LogFormat := .text
  maxWorkers : Int := 4
  maxSourceBytes : Int := 1024 * 1024
  /-- Which detectors are enabled, by the kind of vulnerability. -/
  detectors : List (String × Bool) := Vulnerability.detectable.map fun v => (v.tag, true)
deriving DecidableEq

namespace Settings

def isEnabled (s : Settings) (kind : String) : Bool := (s.detectors.lookup kind).getD true

def enabledKinds (s : Settings) : List String :=
  (Vulnerability.detectable.map (·.tag)).filter s.isEnabled

/-- The configuration of a scan of which nothing else is said. -/
def defaultConfig (s : Settings) : Checked ScanConfig :=
  let enabled := s.enabledKinds
  let detectors := if enabled.length = Vulnerability.detectable.length then none else some enabled
  if 0 < s.maxSourceBytes then
    .ok { detectors := detectors, maxSourceBytes := s.maxSourceBytes.toNat }
  else .refused [⟨[.key "max_source_bytes"], .notAbove⟩]

/-! ## Reading settings -/

def loadLevel (v : Json) : Checked LogLevel :=
  (Checked.text v).andThen fun name => match LogLevel.ofName? name with
    | some level => .ok level
    | none => .fail (.rejected ("Invalid log level: " ++ name))

def loadFormat (v : Json) : Checked LogFormat :=
  (Checked.text v).andThen fun name => match LogFormat.ofName? name with
    | some format => .ok format
    | none => .fail (.rejected ("Invalid log format: " ++ name))

def loadSwitch : Json → Checked Bool :=
  Checked.record fun ms => Checked.optional ms ["enabled"] Checked.truth true

def loadDetectors (v : Json) : Checked (List (String × Bool)) :=
  (Checked.mapping v).andThen (Checked.entries loadSwitch)

def fields : List String :=
  ["log_level", "log_format", "max_workers", "max_source_bytes", "detectors"]

def refuseUnknown (ms : Json.Members) : Checked Unit :=
  match ms.filter fun (key, _) => !fields.contains key with
  | [] => .ok ()
  | unknown => .refused (unknown.map fun (key, _) => ⟨[.key key], .unknownKey⟩)

def load (ms : Json.Members) : Checked Settings :=
  let standard : Settings := {}
  (fun level format workers bytes detectors _ => ⟨level, format, workers, bytes, detectors⟩) <$>
    Checked.optional ms ["log_level"] loadLevel standard.logLevel
    <*> Checked.optional ms ["log_format"] loadFormat standard.logFormat
    <*> Checked.optional ms ["max_workers"] Checked.whole standard.maxWorkers
    <*> Checked.optional ms ["max_source_bytes"] Checked.whole standard.maxSourceBytes
    <*> Checked.optional ms ["detectors"] loadDetectors standard.detectors
    <*> refuseUnknown ms

end Settings
end SolidityAudit
