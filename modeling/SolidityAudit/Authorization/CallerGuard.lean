import SolidityAudit.Pattern.Build
import SolidityAudit.Text.LowerCase

/-!
# Restriction of callers

A function restricts its callers if one of its modifiers contains a known word, in any mixture of
cases, or if its body holds a check of the caller.
-/

namespace SolidityAudit.Authorization
open Pattern

/-- Words in the names of modifiers that restrict callers, in small letters. -/
def guardWords : List (List Char) :=
  ["onlyowner", "onlyadmin", "onlyrole", "onlyminter", "onlypauser", "onlygovernance",
    "onlyauthorized", "requiresauth", "auth", "restricted"].map String.toList

def requireOpening : Pattern := chain [anyCase "require", blanks, lit "(", blanks]

def emptyCall : Pattern := Pattern.optional (lit "()")

def inlineGuards : List Pattern := [
  chain [
    requireOpening, anyCase "msg.sender", blanks, lit "==", blanks, wordChars, anyCase "owner"],
  chain [
    requireOpening, wordChars, anyCase "owner", wordChars, emptyCall, blanks, lit "==", blanks,
    anyCase "msg.sender"],
  chain [
    requireOpening, anyCase "msg.sender", blanks, lit "==", blanks, wordChars, anyCase "admin"],
  chain [requireOpening, anyCase "hasRole"],
  chain [requireOpening, anyCase "isOwner"],
  chain [
    requireOpening, anyCase "_msgSender()", blanks, lit "==", blanks, wordChars, anyCase "owner"],
  chain [
    anyCase "if", blanks, lit "(", blanks, anyCase "msg.sender", blanks, lit "!=", blanks,
    wordChars, anyCase "owner", wordChars, emptyCall, blanks, lit ")"],
  chain [anyCase "_checkOwner", blanks, lit "("],
  chain [anyCase "_checkRole", blanks, lit "("],
  anyCase "onlyOwner"]

def isGuardModifier (modifier : String) : Bool :=
  let name := Text.lower modifier.toList
  guardWords.any (Text.contains name)

def restrictsCallers (modifiers : List String) (body : List Char) : Bool :=
  modifiers.any isGuardModifier || anyOccursIn inlineGuards body

end SolidityAudit.Authorization
