import SolidityAudit.Json.Basic
import SolidityAudit.Text.Hex

/-!
# Writing JSON

`Json.render` writes a value on one line of printable ASCII; `Json.pretty` writes one member or item
a line and leaves characters beyond ASCII as they are.
-/

namespace SolidityAudit.Json

def hex4 (n : Nat) : List Char :=
  [Text.hexDigit (n / 0x1000 % 16), Text.hexDigit (n / 0x100 % 16), Text.hexDigit (n / 16 % 16),
    Text.hexDigit (n % 16)]

def unitEscape (n : Nat) : List Char := '\\' :: 'u' :: hex4 n

def charEscape (c : Char) : List Char :=
  let n := c.toNat
  if n < 0x10000 then unitEscape n
  else
    unitEscape (0xD800 + (n - 0x10000) / 0x400) ++ unitEscape (0xDC00 + (n - 0x10000) % 0x400)

def letterEscape? (c : Char) : Option (List Char) :=
  if c = '"' then some ['\\', '"']
  else if c = '\\' then some ['\\', '\\']
  else if c = '\n' then some ['\\', 'n']
  else if c = '\r' then some ['\\', 'r']
  else if c = '\t' then some ['\\', 't']
  else if c = '\x08' then some ['\\', 'b']
  else if c = '\x0c' then some ['\\', 'f']
  else none

def escapeAscii (c : Char) : List Char :=
  match letterEscape? c with
  | some e => e
  | none => if 0x20 ≤ c.toNat ∧ c.toNat < 0x7f then [c] else charEscape c

/-- A character inside a text, where only control characters, quotes and backslashes are escaped. -/
def escapeControl (c : Char) : List Char :=
  match letterEscape? c with
  | some e => e
  | none => if c.toNat < 0x20 then charEscape c else [c]

def quote (escape : Char → List Char) (cs : List Char) : List Char :=
  '"' :: cs.flatMap escape ++ ['"']

def intText (n : Int) : List Char :=
  if n < 0 then '-' :: Nat.toDigits 10 n.natAbs else Nat.toDigits 10 n.natAbs

def joinWith (separator : List Char) : List (List Char) → List Char
  | [] => []
  | [t] => t
  | t :: ts => t ++ separator ++ joinWith separator ts

/-- A number of the binary format. Infinities and what is no number have words of their own. -/
def realText : Binary64 → List Char
  | .nan => "NaN".toList
  | .infinite negative => (if negative then "-Infinity" else "Infinity").toList
  | x => x.text

mutual

def renderChars : Json → List Char
  | null => "null".toList
  | bool b => (if b then "true" else "false").toList
  | int n => intText n
  | real x => realText x
  | str s => quote escapeAscii s.toList
  | list items => '[' :: joinWith [',', ' '] (renderItems items) ++ [']']
  | object members => '\x7b' :: joinWith [',', ' '] (renderMembers members) ++ ['\x7d']

def renderItems : List Json → List (List Char)
  | [] => []
  | item :: rest => renderChars item :: renderItems rest

def renderMembers : List (String × Json) → List (List Char)
  | [] => []
  | (key, value) :: rest =>
    (quote escapeAscii key.toList ++ [':', ' '] ++ renderChars value) :: renderMembers rest

end

def render (value : Json) : String := String.ofList value.renderChars

def block (indent : Nat) (opening closing : Char) (pieces : List (List Char)) : List Char :=
  if pieces.isEmpty then [opening, closing]
  else
    let margin := '\n' :: List.replicate (indent + 2) ' '
    opening :: margin ++ joinWith (',' :: margin) pieces ++
      '\n' :: List.replicate indent ' ' ++ [closing]

mutual

def prettyChars (indent : Nat) : Json → List Char
  | list items => block indent '[' ']' (prettyItems indent items)
  | object members => block indent '\x7b' '\x7d' (prettyMembers indent members)
  | str s => quote escapeControl s.toList
  | null => "null".toList
  | bool b => (if b then "true" else "false").toList
  | int n => intText n
  | real x => realText x

def prettyItems (indent : Nat) : List Json → List (List Char)
  | [] => []
  | item :: rest => prettyChars (indent + 2) item :: prettyItems indent rest

def prettyMembers (indent : Nat) : List (String × Json) → List (List Char)
  | [] => []
  | (key, value) :: rest =>
    (quote escapeControl key.toList ++ [':', ' '] ++ prettyChars (indent + 2) value) ::
      prettyMembers indent rest

end

def pretty (value : Json) : String := String.ofList (value.prettyChars 0)

end SolidityAudit.Json
