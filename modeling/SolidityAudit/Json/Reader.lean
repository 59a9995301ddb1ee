import SolidityAudit.Json.Basic
import SolidityAudit.Number.Numeral

/-!
# Reading JSON

A strict reader: no comments, no trailing commas, no raw control characters in texts, no lone
surrogates, and nothing but blanks after the value. Beside the numbers there are words for the two
infinities and for what is no number. Of members with the same key the last one wins. Values nested
deeper than a given limit are refused.
-/

namespace SolidityAudit.Json.Reader

def isSpace (c : Char) : Bool :=
  c == ' ' || c == '\t' || c == '\n' || c == '\r'

def skipSpace (cs : List Char) : List Char := cs.dropWhile isSpace

def hexValue? (c : Char) : Option Nat :=
  if c.isDigit then some (c.toNat - '0'.toNat)
  else if 'a' ≤ c ∧ c ≤ 'f' then some (c.toNat - 'a'.toNat + 10)
  else if 'A' ≤ c ∧ c ≤ 'F' then some (c.toNat - 'A'.toNat + 10)
  else none

def hexValue4? (a b c d : Char) : Option Nat := do
  return (((← hexValue? a) * 16 + (← hexValue? b)) * 16 + (← hexValue? c)) * 16 + (← hexValue? d)

def isHighSurrogate (n : Nat) : Bool := 0xD800 ≤ n && n ≤ 0xDBFF

def isLowSurrogate (n : Nat) : Bool := 0xDC00 ≤ n && n ≤ 0xDFFF

def pairChar (high low : Nat) : Char :=
  Char.ofNat (0x10000 + (high - 0xD800) * 0x400 + (low - 0xDC00))

def simpleEscape? : Char → Option Char
  | '"' => some '"'
  | '\\' => some '\\'
  | '/' => some '/'
  | 'b' => some '\x08'
  | 'f' => some '\x0c'
  | 'n' => some '\n'
  | 'r' => some '\r'
  | 't' => some '\t'
  | _ => none

def readText : List Char → Option (List Char × List Char)
  | [] => none
  | '"' :: rest => some ([], rest)
  | '\\' :: 'u' :: a :: b :: c :: d :: '\\' :: 'u' :: e :: f :: g :: h :: rest =>
    match hexValue4? a b c d with
    | none => none
    | some n =>
      if isHighSurrogate n then
        match hexValue4? e f g h with
        | some m =>
          if isLowSurrogate m then (readText rest).map fun (t, r) => (pairChar n m :: t, r)
          else none
        | none => none
      else if isLowSurrogate n then none
      else (readText ('\\' :: 'u' :: e :: f :: g :: h :: rest)).map fun (t, r) =>
        (Char.ofNat n :: t, r)
  | '\\' :: 'u' :: a :: b :: c :: d :: rest =>
    match hexValue4? a b c d with
    | none => none
    | some n =>
      if isHighSurrogate n || isLowSurrogate n then none
      else (readText rest).map fun (t, r) => (Char.ofNat n :: t, r)
  | '\\' :: c :: rest =>
    match simpleEscape? c with
    | some e => (readText rest).map fun (t, r) => (e :: t, r)
    | none => none
  | c :: rest => if c.toNat < 0x20 then none else (readText rest).map fun (t, r) => (c :: t, r)

def readDigits (cs : List Char) : List Char × List Char :=
  (cs.takeWhile Char.isDigit, cs.dropWhile Char.isDigit)

def readFraction : List Char → Option (Option (List Char) × List Char)
  | '.' :: rest =>
    let (ds, rest) := readDigits rest
    if ds.isEmpty then none else some (some ds, rest)
  | cs => some (none, cs)

def readExponent : List Char → Option (Option Int × List Char)
  | c :: rest =>
    if c == 'e' || c == 'E' then
      let (negative, rest) := match rest with
        | '-' :: r => (true, r)
        | '+' :: r => (false, r)
        | r => (false, r)
      let (ds, rest) := readDigits rest
      if ds.isEmpty then none
      else some (some (if negative then -(Numeral.digitsValue ds : Int) else Numeral.digitsValue ds), rest)
    else some (none, c :: rest)
  | [] => some (none, [])

/-- A number and what follows it. A row of digits beyond the length of a numeral is refused. -/
def readNumber (cs : List Char) : Option (Json × List Char) := do
  if Numeral.isTooLong cs then none
  let (negative, cs) := match cs with
    | '-' :: r => (true, r)
    | r => (false, r)
  let (whole, cs) := readDigits cs
  if whole.isEmpty || (whole.length > 1 && whole.head? == some '0') then none
  let (fraction, cs) ← readFraction cs
  let (exponent, cs) ← readExponent cs
  match fraction, exponent with
  | none, none =>
    return (int (if negative then -(Numeral.digitsValue whole : Int) else Numeral.digitsValue whole), cs)
  | _, _ =>
    let places := fraction.getD []
    let digits := Numeral.digitsValue (whole ++ places)
    return (real (Binary64.ofDecimal negative digits (exponent.getD 0 - places.length)), cs)

mutual

/-- A value and what follows it. The fuel bounds the number of steps, the depth the nesting. -/
def readValue : Nat → Nat → List Char → Option (Json × List Char)
  | 0, _, _ => none
  | fuel + 1, depth, cs =>
    match skipSpace cs with
    | 'n' :: 'u' :: 'l' :: 'l' :: rest => some (null, rest)
    | 't' :: 'r' :: 'u' :: 'e' :: rest => some (bool true, rest)
    | 'f' :: 'a' :: 'l' :: 's' :: 'e' :: rest => some (bool false, rest)
    | 'N' :: 'a' :: 'N' :: rest => some (real .nan, rest)
    | '-' :: 'I' :: 'n' :: 'f' :: 'i' :: 'n' :: 'i' :: 't' :: 'y' :: rest =>
      some (real (.infinite true), rest)
    | 'I' :: 'n' :: 'f' :: 'i' :: 'n' :: 'i' :: 't' :: 'y' :: rest =>
      some (real (.infinite false), rest)
    | '"' :: rest => (readText rest).map fun (t, r) => (str (String.ofList t), r)
    | '[' :: rest =>
      match skipSpace rest, depth with
      | ']' :: rest, _ => some (list [], rest)
      | _, 0 => none
      | rest, depth + 1 => (readItems fuel depth rest).map fun (items, r) => (list items, r)
    | '\x7b' :: rest =>
      match skipSpace rest, depth with
      | '\x7d' :: rest, _ => some (object [], rest)
      | _, 0 => none
      | rest, depth + 1 => (readMembers fuel depth [] rest).map fun (ms, r) => (object ms, r)
    | rest => readNumber rest

def readItems : Nat → Nat → List Char → Option (List Json × List Char)
  | 0, _, _ => none
  | fuel + 1, depth, cs =>
    match readValue fuel depth cs with
    | none => none
    | some (item, rest) =>
      match skipSpace rest with
      | ']' :: rest => some ([item], rest)
      | ',' :: rest => (readItems fuel depth rest).map fun (items, r) => (item :: items, r)
      | _ => none

/-- The members of an object up to its closing brace, added to those before, and what follows it. -/
def readMembers : Nat → Nat → Members → List Char → Option (Members × List Char)
  | 0, _, _, _ => none
  | fuel + 1, depth, before, cs =>
    match skipSpace cs with
    | '"' :: rest =>
      match readText rest with
      | none => none
      | some (key, rest) =>
        match skipSpace rest with
        | ':' :: rest =>
          match readValue fuel depth rest with
          | none => none
          | some (value, rest) =>
            let members := before.set (String.ofList key) value
            match skipSpace rest with
            | '\x7d' :: rest => some (members, rest)
            | ',' :: rest => readMembers fuel depth members rest
            | _ => none
        | _ => none
    | _ => none

end

end SolidityAudit.Json.Reader

namespace SolidityAudit.Json

def parse? (depth : Nat) (text : List Char) : Option Json :=
  match Reader.readValue (text.length + 1) depth text with
  | some (value, rest) => if (Reader.skipSpace rest).isEmpty then some value else none
  | none => none

end SolidityAudit.Json
