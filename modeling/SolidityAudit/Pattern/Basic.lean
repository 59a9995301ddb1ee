import SolidityAudit.Text.Basic

/-!
# Text patterns

A pattern describes pieces of text. Among the ways in which a pattern can match at a place there is
an order of preference: the first alternative before the second, more repetitions before fewer.
`Pattern.run` tries them in this order and gives the first one that its continuation accepts, so
that `Pattern.find?` and `Pattern.findAll` give the leftmost match, and there the preferred one.
-/

namespace SolidityAudit

/-- A stretch of a text, from `start` up to but not including `stop`. -/
structure Span where
  start : Nat
  stop : Nat
deriving DecidableEq

namespace Span

def contains (s : Span) (offset : Int) : Bool :=
  s.start ≤ offset && offset < s.stop

def text (s : Span) (whole : List Char) : List Char :=
  Text.slice whole s.start s.stop

end Span

inductive Pattern where
  /-- The empty text. -/
  | nothing
  /-- One character that is accepted. -/
  | one (accepts : Char → Bool)
  | seq (first second : Pattern)
  | alt (first second : Pattern)
  /-- Any number of pieces, each of at least one character, as many as possible. -/
  | many (body : Pattern)
  /-- A place where a word begins or ends. -/
  | wordEdge
  /-- The end of the text, or the place before a line feed that ends it. -/
  | textEnd
  /-- A place that is not followed by a refused character. -/
  | notBefore (refuses : Char → Bool)
  /-- The body, whose stretch is remembered under a label. -/
  | group (label : String) (body : Pattern)

namespace Pattern

/-- A place in a text, with the stretches remembered on the way to it, the latest first. -/
structure Reading where
  offset : Nat
  previous : Option Char
  ahead : List Char
  groups : List (String × Span)

namespace Reading

def atWordEdge (r : Reading) : Bool :=
  r.previous.any Text.isWord != r.ahead.head?.any Text.isWord

def atTextEnd (r : Reading) : Bool :=
  match r.ahead with
  | [] => true
  | [c] => c == '\n'
  | _ => false

def remember (r : Reading) (label : String) (start : Nat) : Reading :=
  { r with groups := (label, ⟨start, r.offset⟩) :: r.groups }

end Reading

/-- At most `fuel` steps one after another, as many as possible, then the continuation. -/
def runMany {α : Type} (step : Reading → (Reading → Option α) → Option α) :
    Nat → Reading → (Reading → Option α) → Option α
  | 0, r, next => next r
  | fuel + 1, r, next => step r (fun r' => runMany step fuel r' next) <|> next r

/-- The first result of the continuation over the places where a match can end, in order of
preference. The fuel bounds the repetitions; the length of the text is enough. -/
def run {α : Type} (fuel : Nat) : Pattern → Reading → (Reading → Option α) → Option α
  | nothing, r, next => next r
  | one accepts, r, next =>
    match r.ahead with
    | c :: rest => if accepts c then next ⟨r.offset + 1, some c, rest, r.groups⟩ else none
    | [] => none
  | seq p q, r, next => run fuel p r fun r' => run fuel q r' next
  | alt p q, r, next => run fuel p r next <|> run fuel q r next
  | many p, r, next => runMany (run fuel p) fuel r next
  | wordEdge, r, next => if r.atWordEdge then next r else none
  | textEnd, r, next => if r.atTextEnd then next r else none
  | notBefore refuses, r, next => if r.ahead.head?.any refuses then none else next r
  | group label p, r, next => run fuel p r fun r' => next (r'.remember label r.offset)

structure Match where
  span : Span
  groups : List (String × Span)

namespace Match

def start (m : Match) : Nat := m.span.start

def stop (m : Match) : Nat := m.span.stop

def text (m : Match) (whole : List Char) : List Char := m.span.text whole

def group? (m : Match) (whole : List Char) (label : String) : Option (List Char) :=
  (m.groups.lookup label).map fun s => s.text whole

end Match

def matchHere (p : Pattern) (fuel offset : Nat) (previous : Option Char) (ahead : List Char) :
    Option Match :=
  p.run fuel ⟨offset, previous, ahead, []⟩ fun r => some ⟨⟨offset, r.offset⟩, r.groups⟩

def matchAt (p : Pattern) (text : List Char) (offset : Nat) : Option Match :=
  p.matchHere text.length offset (text.take offset).getLast? (text.drop offset)

def findFrom (p : Pattern) (fuel offset : Nat) (previous : Option Char) : List Char → Option Match
  | [] => p.matchHere fuel offset previous []
  | c :: rest =>
    p.matchHere fuel offset previous (c :: rest) <|> findFrom p fuel (offset + 1) (some c) rest

def find? (p : Pattern) (text : List Char) : Option Match :=
  p.findFrom text.length 0 none text

def occursIn (p : Pattern) (text : List Char) : Bool :=
  (p.find? text).isSome

/-- The matches from a place on, where the next `skip` characters belong to the match before. -/
def findAllFrom (p : Pattern) (fuel skip offset : Nat) (previous : Option Char) :
    List Char → List Match
  | [] => []
  | c :: rest =>
    match skip with
    | skip + 1 => findAllFrom p fuel skip (offset + 1) (some c) rest
    | 0 =>
      match p.matchHere fuel offset previous (c :: rest) with
      | some m => m :: findAllFrom p fuel (m.stop - offset - 1) (offset + 1) (some c) rest
      | none => findAllFrom p fuel 0 (offset + 1) (some c) rest

/-- The matches in a text from left to right, none overlapping another. -/
def findAll (p : Pattern) (text : List Char) : List Match :=
  p.findAllFrom text.length 0 0 none text

def anyOccursIn (ps : List Pattern) (text : List Char) : Bool :=
  ps.any (·.occursIn text)

end Pattern
end SolidityAudit
