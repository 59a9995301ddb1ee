import SolidityAudit.Text.LowerCase

/-!
# Levels and formats of the log
-/

namespace SolidityAudit

inductive LogLevel where
  | debug
  | info
  | warning
  | error
  | critical
deriving DecidableEq

namespace LogLevel

def all : List LogLevel := [debug, info, warning, error, critical]

def name : LogLevel → String
  | debug => "DEBUG"
  | info => "INFO"
  | warning => "WARNING"
  | error => "ERROR"
  | critical => "CRITICAL"

def number : LogLevel → Int
  | debug => 10
  | info => 20
  | warning => 30
  | error => 40
  | critical => 50

def nameOfNumber (n : Int) : String :=
  match all.find? (·.number == n) with
  | some level => level.name
  | none => if n = 0 then "NOTSET" else "Level " ++ toString n

/-- The capital of a letter, where that is an ASCII letter: also the dotless small i has one. -/
def asciiCapital (c : Char) : Char := if c == '\u0131' then 'I' else c.toUpper

def ofName? (name : String) : Option LogLevel :=
  all.find? fun level => level.name.toList == name.toList.map asciiCapital

end LogLevel

inductive LogFormat where
  | text
  | json
deriving DecidableEq

namespace LogFormat

def all : List LogFormat := [text, json]

def name : LogFormat → String
  | text => "text"
  | json => "json"

def ofName? (name : String) : Option LogFormat :=
  all.find? fun format => format.name.toList == Text.lower name.toList

end LogFormat
end SolidityAudit
