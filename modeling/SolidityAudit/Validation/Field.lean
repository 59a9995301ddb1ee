import SolidityAudit.Json.Basic
import SolidityAudit.Number.Numeral
import SolidityAudit.Validation.Checked

/-!
# Checks of JSON values

The checks from which the readers of records are built. Numbers and truth values are read leniently:
a whole number may be given as a text or as a number without a fraction, a truth value by one of a
few words or by one and zero.
-/

namespace SolidityAudit.Checked

variable {α : Type}

def text : Json → Checked String
  | .str s => ok s
  | _ => fail .notText

def list (item : Json → Checked α) : Json → Checked (List α)
  | .list vs => items item 0 vs
  | _ => fail .notList

def mapping : Json → Checked Json.Members
  | .object ms => ok ms
  | _ => fail .notMapping

def entries (value : Json → Checked α) : Json.Members → Checked (List (String × α))
  | [] => ok []
  | (key, v) :: rest =>
    apply (map (fun a as => (key, a) :: as) ((value v).under (.key key))) (entries value rest)

def choice (ofTag? : String → Option α) : Json → Checked α
  | .str s => match ofTag? s with
    | some a => ok a
    | none => fail .notChoice
  | _ => fail .notChoice

def nullable (value : Json → Checked α) : Json → Checked (Option α)
  | .null => ok none
  | v => map some (value v)

def record (members : Json.Members → Checked α) : Json → Checked α
  | .object ms => members ms
  | _ => fail .notRecord

/-! ## Whole numbers -/

def wholeOfText (s : String) : Checked Int :=
  if Numeral.isTooLong s.toList then fail .oversized
  else match Numeral.read? s.toList with
    | some n => ok n
    | none => fail .unreadableWhole

/-- Numbers with a fraction are refused, and so are those beyond 64 bits. -/
def wholeOfReal : Binary64 → Checked Int
  | .infinite _ => fail .notFinite
  | .nan => fail .notFinite
  | x => match x.toInt? with
    | some n => if n.natAbs < Nat.pow 2 63 then ok n else fail .oversized
    | none => fail .fractional

def whole : Json → Checked Int
  | .int n => ok n
  | .bool b => ok (if b then 1 else 0)
  | .real x => wholeOfReal x
  | .str s => wholeOfText s
  | _ => fail .notWhole

def positive (v : Json) : Checked Nat :=
  (whole v).andThen fun n => if 1 ≤ n then ok n.toNat else fail .belowMinimum

def natural (v : Json) : Checked Nat :=
  (whole v).andThen fun n => if 0 ≤ n then ok n.toNat else fail .belowMinimum

def aboveZero (v : Json) : Checked Nat :=
  (whole v).andThen fun n => if 0 < n then ok n.toNat else fail .notAbove

/-! ## Truth values -/

def trueWords : List String := ["1", "t", "true", "y", "yes", "on"]

def falseWords : List String := ["0", "f", "false", "n", "no", "off"]

def truthOfText (s : String) : Checked Bool :=
  let word := s.toLower
  if trueWords.contains word then ok true
  else if falseWords.contains word then ok false
  else fail .unreadableTruth

def truth : Json → Checked Bool
  | .bool b => ok b
  | .int n => if n = 1 then ok true else if n = 0 then ok false else fail .unreadableTruth
  | .str s => truthOfText s
  | .real x =>
    if x.toInt? = some 1 then ok true else if x.toInt? = some 0 then ok false else fail .notTruth
  | _ => fail .notTruth

/-! ## Members of records -/

def member? (ms : Json.Members) (spellings : List String) : Option (String × Json) :=
  spellings.findSome? fun key => (ms.get? key).map (key, ·)

/-- A member that has to be there. Its first spelling names it if it is missing. -/
def required (ms : Json.Members) (spellings : List String) (value : Json → Checked α) : Checked α :=
  match member? ms spellings with
  | some (key, v) => (value v).under (.key key)
  | none => refused [⟨[.key (spellings.headD "")], .missing⟩]

def optional (ms : Json.Members) (spellings : List String) (value : Json → Checked α)
    (default : α) : Checked α :=
  match member? ms spellings with
  | some (key, v) => (value v).under (.key key)
  | none => ok default

end SolidityAudit.Checked
