import SolidityAudit.Json.Printer
import SolidityAudit.Number.Numeral
import SolidityAudit.Text.CharClass

/-!
# Values as literals

The notation in which values stand in identity keys and messages: texts in single quotes, or in
double quotes if the text holds single quotes and no double ones, with everything that is not
printable escaped; `None`, `True` and `False` for the constants.
-/

namespace SolidityAudit.Json

def literalChar (quote c : Char) : List Char :=
  if c = quote ∨ c = '\\' then ['\\', c]
  else if c = '\n' then ['\\', 'n']
  else if c = '\r' then ['\\', 'r']
  else if c = '\t' then ['\\', 't']
  else if Text.isPrintable c then [c]
  else if c.toNat < 0x100 then '\\' :: 'x' :: Text.hexDigits 2 c.toNat
  else if c.toNat < 0x10000 then '\\' :: 'u' :: Text.hexDigits 4 c.toNat
  else '\\' :: 'U' :: Text.hexDigits 8 c.toNat

/-- The quote with which a text is written. -/
def literalQuote (cs : List Char) : Char :=
  if cs.contains '\'' && !cs.contains '"' then '"' else '\''

def literalText (cs : List Char) : List Char :=
  let q := literalQuote cs
  q :: cs.flatMap (literalChar q) ++ [q]

mutual

def literal : Json → List Char
  | null => "None".toList
  | bool b => (if b then "True" else "False").toList
  | int n => intText n
  | real x => x.text
  | str s => literalText s.toList
  | list items => '[' :: joinWith [',', ' '] (literalItems items) ++ [']']
  | object members => '\x7b' :: joinWith [',', ' '] (literalMembers members) ++ ['\x7d']

def literalItems : List Json → List (List Char)
  | [] => []
  | item :: rest => literal item :: literalItems rest

def literalMembers : List (String × Json) → List (List Char)
  | [] => []
  | (key, value) :: rest =>
    (literalText key.toList ++ [':', ' '] ++ literal value) :: literalMembers rest

end

mutual

/-- Whether a value can be written as a literal: none of its numbers has too many digits. -/
def isWritable : Json → Bool
  | int n => Numeral.isWritable n
  | list items => areWritable items
  | object members => membersWritable members
  | _ => true

def areWritable : List Json → Bool
  | [] => true
  | item :: rest => isWritable item && areWritable rest

def membersWritable : List (String × Json) → Bool
  | [] => true
  | (_, value) :: rest => isWritable value && membersWritable rest

end

end SolidityAudit.Json
