import SolidityAudit.Number.Numeral
import SolidityAudit.Pattern.Build

/-!
# Compiler versions

A pragma names versions such as `^0.8.0` or `>=0.6.0 <0.8.0`. Its floor is the first version named,
in the order of the text. From 0.8.0 on the compiler checks arithmetic for overflow.
-/

namespace SolidityAudit.Source
open Pattern
open Numeral (maxDigits)

structure Version where
  major : Nat
  minor : Nat
  patch : Nat
deriving DecidableEq

namespace Version

def isBefore (v w : Version) : Bool :=
  v.major < w.major || (v.major == w.major &&
    (v.minor < w.minor || (v.minor == w.minor && v.patch < w.patch)))

def checkedArithmetic : Version := ⟨0, 8, 0⟩

end Version

/-- A number in a version has more than `maxDigits` digits. -/
structure OversizedNumber where
  digits : Nat
deriving DecidableEq

def number (digits : List Char) : Nat :=
  digits.foldl (fun n c => 10 * n + Text.decimalValue c) 0

def readNumber (digits : List Char) : Except OversizedNumber Nat :=
  if digits.length > maxDigits then .error ⟨digits.length⟩ else .ok (number digits)

def versionPattern : Pattern :=
  let digits := some1 (one Text.isDecimal)
  chain [
    group "major" digits, lit ".", group "minor" digits,
    optional (chain [lit ".", group "patch" digits])]

def readVersion (pragma : List Char) (m : Match) : Except OversizedNumber Version := do
  let major ← readNumber ((m.group? pragma "major").getD [])
  let minor ← readNumber ((m.group? pragma "minor").getD [])
  let patch ← readNumber ((m.group? pragma "patch").getD [])
  return ⟨major, minor, patch⟩

def versions (pragma : List Char) : Except OversizedNumber (List Version) :=
  (versionPattern.findAll pragma).mapM (readVersion pragma)

/-- The first version that a pragma names. All of them are read, so that an oversized number
anywhere in the pragma is an error. -/
def versionFloor (pragma : Option String) : Except OversizedNumber (Option Version) :=
  match pragma with
  | none => .ok none
  | some p => return (← versions p.toList).head?

/-- Whether arithmetic is unchecked under a pragma. A pragma that names no version is presumed to
allow old compilers. -/
def lacksOverflowChecks (pragma : Option String) : Except OversizedNumber Bool := do
  match ← versionFloor pragma with
  | none => return true
  | some floor => return floor.isBefore Version.checkedArithmetic

def pragmaPattern : Pattern :=
  chain [
    anyCase "pragma", blanks1, anyCase "solidity", blanks1,
    group "constraint" (some1 (charNotOf ";")), lit ";"]

def pragmaOf? (source : List Char) : Option (List Char) := do
  let m ← pragmaPattern.find? source
  let constraint ← m.group? source "constraint"
  return Text.strip constraint

end SolidityAudit.Source
