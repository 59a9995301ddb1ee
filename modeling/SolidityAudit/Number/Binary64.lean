/-!
# Binary floating point numbers

A number of the 64-bit binary format is `mantissa · 2 ^ exponent` with a mantissa of at most 53 bits.
This file rounds fractions to such numbers, the nearest one and of two equally near ones the one
with the even mantissa, and writes a number with the fewest decimal digits that read back as it.
-/

namespace SolidityAudit

inductive Binary64 where
  | finite (negative : Bool) (mantissa : Nat) (exponent : Int)
  | infinite (negative : Bool)
  | nan
deriving DecidableEq

namespace Binary64

/-- The quotient of two numbers rounded to the nearest, a half to the even neighbour. -/
def roundDiv (numerator denominator : Nat) : Nat :=
  let q := numerator / denominator
  let twice := 2 * (numerator % denominator)
  if twice > denominator || (twice == denominator && q % 2 == 1) then q + 1 else q

def scaleTwo (numerator denominator : Nat) (power : Int) : Nat × Nat :=
  if power < 0 then (numerator, denominator * Nat.pow 2 (-power).toNat)
  else (numerator * Nat.pow 2 power.toNat, denominator)

def minExponent : Int := -1074

def maxExponent : Int := 971

/-- The exponent with which the mantissa of a fraction has 53 bits before rounding. -/
def exponentOf (numerator denominator : Nat) : Int :=
  let guess : Int := (numerator.log2 : Int) - denominator.log2 - 52
  let (n, d) := scaleTwo numerator denominator (-guess)
  max minExponent (if n < d * Nat.pow 2 52 then guess - 1 else guess)

def nearest (negative : Bool) (numerator denominator : Nat) : Binary64 :=
  if numerator == 0 then finite negative 0 minExponent
  else
    let exponent := exponentOf numerator denominator
    let (n, d) := scaleTwo numerator denominator (-exponent)
    let mantissa := roundDiv n d
    let (mantissa, exponent) :=
      if mantissa == Nat.pow 2 53 then (Nat.pow 2 52, exponent + 1) else (mantissa, exponent)
    if exponent > maxExponent then infinite negative else finite negative mantissa exponent

/-- Decimal exponents beyond this bound give an infinity or zero for any mantissa in reach. -/
def decimalReach : Int := 100000

def ofDecimal (negative : Bool) (digits : Nat) (power : Int) : Binary64 :=
  if digits == 0 then finite negative 0 minExponent
  else if power > decimalReach then infinite negative
  else if power < -decimalReach then finite negative 0 minExponent
  else if power < 0 then nearest negative digits (Nat.pow 10 (-power).toNat)
  else nearest negative (digits * Nat.pow 10 power.toNat) 1

def toInt? : Binary64 → Option Int
  | finite negative mantissa exponent =>
    let (n, d) := scaleTwo mantissa 1 exponent
    if n % d == 0 then some (if negative then -(n / d : Nat) else (n / d : Nat)) else none
  | _ => none

def truncate : Binary64 → Int
  | finite negative mantissa exponent =>
    let (n, d) := scaleTwo mantissa 1 exponent
    if negative then -(n / d : Nat) else (n / d : Nat)
  | _ => 0

def floor (x : Binary64) : Int :=
  match x with
  | finite true _ _ => if x.toInt?.isSome then x.truncate else x.truncate - 1
  | _ => x.truncate

def firstDigitFrom (numerator denominator : Nat) : Nat → Int → Int
  | 0, power => power
  | fuel + 1, power =>
    let reached :=
      if power < 0 then numerator * Nat.pow 10 (-power).toNat ≥ denominator
      else numerator ≥ denominator * Nat.pow 10 power.toNat
    if reached then power else firstDigitFrom numerator denominator fuel (power - 1)

/-- The decimals with their last digit at `10 ^ power` next to a fraction, below and above. -/
def neighbours (numerator denominator : Nat) (power : Int) : Nat × Nat :=
  let q :=
    if power < 0 then numerator * Nat.pow 10 (-power).toNat / denominator
    else numerator / (denominator * Nat.pow 10 power.toNat)
  (q, q + 1)

/-- Whether a fraction is nearer to its lower neighbour `digits · 10 ^ power` than to the upper one;
on a tie the even one counts as nearer. -/
def lowerIsNearer (numerator denominator digits : Nat) (power : Int) : Bool :=
  let (n, d) :=
    if power < 0 then (numerator * Nat.pow 10 (-power).toNat, denominator)
    else (numerator, denominator * Nat.pow 10 power.toNat)
  let below := 2 * (n - digits * d)
  below < d || (below == d && digits % 2 == 0)

/-- The fewest digits that read back as the number, tried from `count` digits on, at most `fuel`
times: the digits as a number and the power of ten of the last one. -/
def shortestFrom (negative : Bool) (value : Binary64) (numerator denominator : Nat) (top : Int) :
    Nat → Nat → Nat × Int
  | 0, count => ((neighbours numerator denominator (top - count)).1, top - count)
  | fuel + 1, count =>
    let power := top - count
    let (lower, upper) := neighbours numerator denominator power
    let lowerFits := lower != 0 && ofDecimal negative lower power == value
    let upperFits := ofDecimal negative upper power == value
    if lowerFits && (!upperFits || lowerIsNearer numerator denominator lower power) then
      (lower, power)
    else if upperFits then (upper, power)
    else shortestFrom negative value numerator denominator top fuel (count + 1)

def dropZeros : Nat → Nat → Nat × Nat
  | 0, digits => (digits, 0)
  | fuel + 1, digits =>
    if digits != 0 && digits % 10 == 0 then
      let (d, k) := dropZeros fuel (digits / 10)
      (d, k + 1)
    else (digits, 0)

/-- The shortest decimal that reads back as a number: its digits and the power of ten of the first
digit. -/
def shortest (negative : Bool) (mantissa : Nat) (exponent : Int) : List Char × Int :=
  let (n, d) := scaleTwo mantissa 1 exponent
  let top := firstDigitFrom n d 700 310
  let (digits, power) := shortestFrom negative (finite negative mantissa exponent) n d top 18 0
  let (digits, zeros) := dropZeros 20 digits
  let text := Nat.toDigits 10 digits
  (text, power + zeros + text.length - 1)

def positional (digits : List Char) (first : Int) : List Char :=
  if first < 0 then "0.".toList ++ List.replicate (-first - 1).toNat '0' ++ digits
  else
    let whole := (first + 1).toNat
    if digits.length ≤ whole then
      digits ++ List.replicate (whole - digits.length) '0' ++ ".0".toList
    else digits.take whole ++ '.' :: digits.drop whole

def scientific (digits : List Char) (first : Int) : List Char :=
  let mantissa := match digits with
    | [] => []
    | [d] => [d]
    | d :: rest => d :: '.' :: rest
  let exponent := Nat.toDigits 10 first.natAbs
  mantissa ++ 'e' :: (if first < 0 then '-' else '+') ::
    (if exponent.length < 2 then '0' :: exponent else exponent)

/-- The text of a number: positional from `1e-4` up to but not including `1e16`. -/
def text : Binary64 → List Char
  | nan => "nan".toList
  | infinite negative => (if negative then "-inf" else "inf").toList
  | finite negative mantissa exponent =>
    let sign := if negative then ['-'] else []
    if mantissa == 0 then sign ++ "0.0".toList
    else
      let (digits, first) := shortest negative mantissa exponent
      sign ++ (if first < -4 || first ≥ 16 then scientific digits first else positional digits first)

end Binary64
end SolidityAudit
