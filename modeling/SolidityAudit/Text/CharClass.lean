import SolidityAudit.Text.Ranges

/-!
# Character classes

The classes that the patterns and the readers of this library refer to: word characters, decimal
digits, white space, and the letters that count as equal when case is ignored.
-/

namespace SolidityAudit.Text

def inRanges (table : List (Nat × Nat)) (n : Nat) : Bool :=
  table.any fun (first, last) => first ≤ n && n ≤ last

/-- Whether a character belongs to a class: ASCII by a test, the rest by a table. -/
def inClass (ascii : Char → Bool) (table : List (Nat × Nat)) (c : Char) : Bool :=
  if c.val < 0x80 then ascii c else inRanges table c.toNat

/-- A letter, digit or numeral of any script, or the underscore. -/
def isWord (c : Char) : Bool :=
  inClass (fun c => c.isAlphanum || c == '_') Ranges.alphanumeric c

def isDecimal (c : Char) : Bool :=
  inClass Char.isDigit Ranges.decimalDigit c

/-- A digit of any kind, superscript and circled digits included. -/
def isAnyDigit (c : Char) : Bool :=
  inClass Char.isDigit (Ranges.decimalDigit ++ Ranges.otherDigit) c

/-- White space: the blanks of ASCII, the four information separators, and those of the table. -/
def isBlank (c : Char) : Bool :=
  inClass (fun c => c == ' ' || (9 ≤ c.toNat && c.toNat ≤ 13) || (28 ≤ c.toNat && c.toNat ≤ 31))
    Ranges.blank c

def isPrintable (c : Char) : Bool :=
  inClass (fun c => 32 ≤ c.toNat && c.toNat < 127) Ranges.printable c

def isIdentStart (c : Char) : Bool :=
  c.isAlpha || c == '_'

def decimalValue (c : Char) : Nat :=
  if c.isDigit then c.toNat - '0'.toNat
  else match Ranges.decimalDigit.find? fun (first, last) => first ≤ c.toNat && c.toNat ≤ last with
    | some (first, _) => (c.toNat - first) % 10
    | none => 0

/-- The ASCII small letter that stands for a character when case is ignored. Besides the capitals,
the long s, the kelvin sign and the dotted and dotless i have one. -/
def foldCase (c : Char) : Char :=
  if c = '\u017f' then 's'
  else if c = '\u212a' then 'k'
  else if c = '\u0130' ∨ c = '\u0131' then 'i'
  else c.toLower

/-- Whether two characters are equal when case is ignored. One of them is always ASCII here. -/
def sameLetter (a b : Char) : Bool :=
  foldCase a == foldCase b

end SolidityAudit.Text
