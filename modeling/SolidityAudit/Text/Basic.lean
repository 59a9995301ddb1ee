import SolidityAudit.Text.CharClass

/-!
# Operations on texts

Texts are lists of characters, and an offset into a text counts characters. This file holds the
operations that the analyses share: search for a fixed text, stripping of blanks, lines, slices and
the statement that ends at an offset.
-/

namespace SolidityAudit.Text

def slice (text : List Char) (start stop : Nat) : List Char :=
  (text.drop start).take (stop - start)

def findFrom (part : List Char) (offset : Nat) : List Char → Option Nat
  | [] => if part.isEmpty then some offset else none
  | c :: rest =>
    if part.isPrefixOf (c :: rest) then some offset else findFrom part (offset + 1) rest

def find? (text part : List Char) : Option Nat :=
  findFrom part 0 text

def contains (text part : List Char) : Bool :=
  (find? text part).isSome

def strip (text : List Char) : List Char :=
  ((text.dropWhile isBlank).reverse.dropWhile isBlank).reverse

def lineFeeds (text : List Char) : Nat :=
  text.count '\n'

def endsLine (c : Char) : Bool :=
  c == '\n' || c == '\r' || c == '\x0b' || c == '\x0c' || c == '\x1c' || c == '\x1d' ||
    c == '\x1e' || c == '\u0085' || c == '\u2028' || c == '\u2029'

/-- The lines of a text, given the part of the current line already read, last character first.
A carriage return and the line feed after it end one line. -/
def linesFrom (line : List Char) : List Char → List (List Char)
  | [] => if line.isEmpty then [] else [line.reverse]
  | '\r' :: '\n' :: rest => line.reverse :: linesFrom [] rest
  | c :: rest => if endsLine c then line.reverse :: linesFrom [] rest else linesFrom (c :: line) rest

/-- The lines of a text, without the characters that end them. A final line end begins no line. -/
def lines (text : List Char) : List (List Char) :=
  linesFrom [] text

def endsStatement (c : Char) : Bool :=
  c == ';' || c == '\x7b' || c == '\x7d'

/-- The statement in progress at the end of a text: what follows its last separator. -/
def lastStatement (text : List Char) : List Char :=
  (text.reverse.takeWhile fun c => !endsStatement c).reverse

end SolidityAudit.Text
