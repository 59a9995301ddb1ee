import SolidityAudit.Clock.Calendar
import SolidityAudit.Json.Literal
import SolidityAudit.Logging.Level

/-!
# Log records

A record is written as one line: a JSON object with the time, the name of the level, the logger, the
message and an exception if there is one, each as a text.
-/

namespace SolidityAudit

structure LogException where
  kind : String
  message : String

namespace LogException

def text (e : LogException) : String :=
  if e.message == "" then e.kind else e.kind ++ ": " ++ e.message

end LogException

/-- The texts that a line of the log shows. -/
structure LogEntry where
  time : String
  level : String
  logger : String
  message : String
  exception : Option String := none

namespace LogEntry

def members (e : LogEntry) : Json.Members :=
  [("time", .str e.time), ("level", .str e.level), ("logger", .str e.logger),
    ("message", .str e.message)] ++ e.exception.toList.map fun text => ("exception", .str text)

def line (e : LogEntry) : String := (Json.object e.members).render

end LogEntry

structure LogRecord where
  /-- Seconds from the beginning of 1970. -/
  seconds : Int
  level : Int
  logger : String
  message : String
  exception : Option LogException := none

namespace LogRecord

/-- A value in a message: a text stands for itself, any other value for its literal. -/
def shown : Json → List Char
  | .str s => s.toList
  | v => v.literal

def shownWhole : Json → List Char
  | .bool b => if b then ['1'] else ['0']
  | .real x => Json.intText x.truncate
  | v => v.literal

/-- A message with values in place of `%s` and `%d`; `%%` stands for the sign itself. -/
def fill : List Char → List Json → List Char
  | '%' :: 's' :: rest, v :: values => shown v ++ fill rest values
  | '%' :: 'd' :: rest, v :: values => shownWhole v ++ fill rest values
  | '%' :: '%' :: rest, values => '%' :: fill rest values
  | c :: rest, values => c :: fill rest values
  | [], _ => []

/-- The message of a template. Without values the template is left alone. -/
def messageOf (template : String) (values : List Json) : String :=
  if values.isEmpty then template else String.ofList (fill template.toList values)

def entry (r : LogRecord) : LogEntry where
  time := Calendar.timestamp r.seconds
  level := LogLevel.nameOfNumber r.level
  logger := r.logger
  message := r.message
  exception := r.exception.map (·.text)

def line (r : LogRecord) : String := r.entry.line

end LogRecord
end SolidityAudit
