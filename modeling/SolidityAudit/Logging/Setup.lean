import SolidityAudit.Scan.Settings

/-!
# Setting up the log
-/

namespace SolidityAudit

inductive LogHandler where
  | json
  | rich
deriving DecidableEq

structure Logger where
  name : String
  level : LogLevel
  handlers : List LogHandler
  /-- Whether records are also passed on to the logger above. -/
  propagate : Bool

/-- The logger that the settings ask for, with one handler in place of any before. -/
def Settings.logger (s : Settings) : Logger where
  name := "contractsentry"
  level := s.logLevel
  handlers := [match s.logFormat with
    | .json => .json
    | .text => .rich]
  propagate := false

end SolidityAudit
