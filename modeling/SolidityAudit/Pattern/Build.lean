import SolidityAudit.Pattern.Basic

/-!
# Building patterns

The vocabulary in which the patterns of this library are written.
-/

namespace SolidityAudit.Pattern

def chain : List Pattern → Pattern
  | [] => nothing
  | [p] => p
  | p :: ps => seq p (chain ps)

/-- One of several, the earlier ones preferred. -/
def oneOf : List Pattern → Pattern
  | [] => one fun _ => false
  | [p] => p
  | p :: ps => alt p (oneOf ps)

def optional (p : Pattern) : Pattern := alt p nothing

def some1 (p : Pattern) : Pattern := seq p (many p)

def chars (cs : List Char) : Pattern := chain (cs.map fun c => one (· == c))

def lit (s : String) : Pattern := chars s.toList

def anyCase (s : String) : Pattern := chain (s.toList.map fun c => one (Text.sameLetter c))

def litOf (ss : List String) : Pattern := oneOf (ss.map lit)

def charOf (s : String) : Pattern :=
  let cs := s.toList
  one fun c => cs.contains c

def charNotOf (s : String) : Pattern :=
  let cs := s.toList
  one fun c => !cs.contains c

def notNext (s : String) : Pattern :=
  let cs := s.toList
  notBefore fun c => cs.contains c

def blanks : Pattern := many (one Text.isBlank)

def blanks1 : Pattern := some1 (one Text.isBlank)

def wordChars : Pattern := many (one Text.isWord)

def identifier : Pattern := seq (one Text.isIdentStart) wordChars

/-- The rest of a line or a part of it. -/
def sameLine : Pattern := many (one (· != '\n'))

/-- Blanks and index accesses in brackets, each up to the next closing bracket. -/
def indexes : Pattern :=
  many (chain [blanks, lit "[", many (charNotOf "]"), lit "]"])

end SolidityAudit.Pattern
