/-!
# Numerals

A plain numeral is a row of digits without a leading zero, perhaps with a minus sign before it. A
text stands for the plain numeral that is left when what surrounds it has been taken away: first the
blanks, then a plus sign, the zeros at the head, a fraction of zeros, and the underscores that divide
the digits. The zeros at the head come before any minus sign, so `0-5` is minus five, while `-05` and
`0-05` are no numbers.
-/

namespace SolidityAudit

inductive WriteError where
  | oversizedNumber
deriving DecidableEq

def WriteError.message : WriteError → String
  | oversizedNumber =>
    "Exceeds the limit (4300 digits) for integer string conversion; " ++
      "use sys.set_int_max_str_digits() to increase the limit"

namespace Numeral

/-- The most digits with which a number is read or written. -/
def maxDigits : Nat := 4300

def isWritable (n : Int) : Bool := decide (n.natAbs < Nat.pow 10 maxDigits)

def digitsValue (ds : List Char) : Nat :=
  ds.foldl (fun n c => 10 * n + (c.toNat - '0'.toNat)) 0

/-- Whether a text consists of digits without a leading zero. Zero itself is written with one. -/
def isPlain (ds : List Char) : Bool :=
  !ds.isEmpty && ds.all Char.isDigit && (ds.length == 1 || ds.head? != some '0')

def plain? (cs : List Char) : Option Int :=
  if maxDigits < cs.length then none
  else match cs with
    | '-' :: ds => if isPlain ds then some (-(digitsValue ds : Int)) else none
    | ds => if isPlain ds then some (digitsValue ds : Int) else none

def isTooLong (cs : List Char) : Bool :=
  let (sign, rest) := match cs with
    | '-' :: r => (1, r)
    | r => (0, r)
  rest.head? != some '0' && decide (maxDigits < sign + (rest.takeWhile Char.isDigit).length)

/-! ## What surrounds a numeral -/

def isBlank (c : Char) : Bool :=
  let n := c.toNat
  n == 0x20 || (0x09 ≤ n && n ≤ 0x0d) || n == 0x85 || n == 0xa0 || n == 0x1680 ||
    (0x2000 ≤ n && n ≤ 0x200a) || n == 0x2028 || n == 0x2029 || n == 0x202f || n == 0x205f ||
    n == 0x3000

def trim (cs : List Char) : List Char :=
  ((cs.dropWhile isBlank).reverse.dropWhile isBlank).reverse

/-- The text after a plus sign, after which no minus sign may follow at once. -/
def dropPlus? : List Char → Option (List Char)
  | '+' :: '-' :: _ => none
  | '+' :: rest => some rest
  | cs => some cs

def beginsNumeral (c : Char) : Bool := c == '-' || c.isDigit

/-- The text after zeros, between which single underscores may stand; `last` is the character before
it. At the end of the text and before a point the last one stays. -/
def afterZeros? (last : Char) : List Char → Option (List Char)
  | [] => some [last]
  | c :: rest =>
    if c == '0' then afterZeros? c rest
    else if c == '_' then if last == '_' then none else afterZeros? c rest
    else if c == '.' then some (last :: c :: rest)
    else if beginsNumeral c then some (c :: rest)
    else none

def dropZeros? : List Char → Option (List Char)
  | [] => none
  | c :: rest =>
    if c == '0' then afterZeros? c rest
    else if beginsNumeral c then some (c :: rest)
    else none

/-- The text without a fraction of zeros; a point has to have at least one after it. -/
def dropFraction (cs : List Char) : List Char :=
  match cs.dropWhile (· != '.') with
  | _ :: zeros =>
    if !zeros.isEmpty && zeros.all (· == '0') then cs.takeWhile (· != '.') else cs
  | [] => cs

def doublesUnderscore : List Char → Bool
  | '_' :: '_' :: _ => true
  | _ :: rest => doublesUnderscore rest
  | [] => false

/-- The text without its underscores, unless one stands at an end or next to another. -/
def dropUnderscores (cs : List Char) : List Char :=
  if cs.head? == some '_' || cs.getLast? == some '_' || doublesUnderscore cs then cs
  else cs.filter (· != '_')

def read? (cs : List Char) : Option Int := do
  let cs ← dropPlus? (trim cs)
  let cs ← dropZeros? cs
  plain? (dropUnderscores (dropFraction cs))

end Numeral
end SolidityAudit
