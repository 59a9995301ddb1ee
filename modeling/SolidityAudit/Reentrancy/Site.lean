import SolidityAudit.Source.Declaration

/-!
# External calls and state changes in a function body

`externalCalls` and `stateChanges` list the places in a body at which another contract is called and
at which state is written, by increasing offset. A body violates the order of checks, effects and
interactions if a call stands before a write.
-/

namespace SolidityAudit.Reentrancy
open Pattern

structure Site where
  offset : Nat
  text : List Char
deriving DecidableEq

/-- Adds a site to sites ordered by offset, unless there is one with its offset. -/
def insertSite (site : Site) : List Site → List Site
  | [] => [site]
  | s :: rest =>
    if site.offset < s.offset then site :: s :: rest
    else if site.offset = s.offset then s :: rest
    else s :: insertSite site rest

def orderSites (sites : List Site) : List Site :=
  sites.foldl (fun ordered site => insertSite site ordered) []

/-- Adds a site to sites ordered by offset, in place of one with its offset. -/
def replaceSite (site : Site) : List Site → List Site
  | [] => [site]
  | s :: rest =>
    if site.offset < s.offset then site :: s :: rest
    else if site.offset = s.offset then site :: rest
    else s :: replaceSite site rest

def memberAccesses : Pattern := many (chain [blanks, lit ".", blanks, identifier, indexes])

def assignable : Pattern :=
  chain [wordEdge, group "target" identifier, indexes, memberAccesses]

def callOptions : Pattern :=
  Pattern.optional (chain [lit "\x7b", many (charNotOf "\x7d"), lit "\x7d"])

def externalCallPatterns : List Pattern := [
  chain [
    lit ".", litOf ["call", "delegatecall", "staticcall"], blanks, callOptions, blanks, lit "("],
  chain [lit ".", litOf ["send", "transfer"], blanks, lit "("]]

def assignment : Pattern := chain [assignable, blanks, lit "=", notNext "=>"]

def compoundAssignment : Pattern :=
  chain [
    assignable, blanks, litOf ["+", "-", "*", "/", "%", "|", "&", "^", "<<", ">>"], lit "="]

def postfixStep : Pattern := chain [assignable, blanks, litOf ["++", "--"]]

def prefixStep : Pattern := chain [litOf ["++", "--"], blanks, assignable]

def deletion : Pattern := chain [wordEdge, lit "delete", blanks1, assignable]

def elementChange : Pattern :=
  chain [assignable, blanks, lit ".", blanks, litOf ["push", "pop"], blanks, lit "("]

def stateChangePatterns : List Pattern := [
  assignment,
  compoundAssignment,
  postfixStep,
  prefixStep,
  deletion,
  elementChange]

def guardPatterns : List Pattern := [
  anyCase "nonReentrant",
  anyCase "ReentrancyGuard",
  anyCase "mutex",
  anyCase "locked",
  chain [lit "_status", blanks, lit "==", blanks, lit "_NOT_ENTERED"]]

def hasGuard (modifiers : List String) (body : List Char) : Bool :=
  modifiers.any (fun m => anyOccursIn guardPatterns m.toList) || anyOccursIn guardPatterns body

def callSites (body : List Char) : List Site :=
  externalCallPatterns.flatMap fun p => (p.findAll body).map fun m => ⟨m.start, m.text body⟩

/-- The places at which a body calls another contract, of several with one offset the last. -/
def externalCalls (body : List Char) : List Site :=
  (callSites body).foldl (fun ordered site => replaceSite site ordered) []

/-- The site of a write, unless it writes a local variable. -/
def changeSite? (body : List Char) (m : Match) : Option Site :=
  if Source.declaresLocally body m.start (m.group? body "target") then none
  else some ⟨m.start, Text.strip (m.text body)⟩

def stateChanges (body : List Char) : List Site :=
  orderSites (stateChangePatterns.flatMap fun p => (p.findAll body).filterMap (changeSite? body))

/-- The first call that a write follows, with the first write after it. -/
def violation? (body : List Char) : Option (Site × Site) :=
  let changes := stateChanges body
  (externalCalls body).findSome? fun call =>
    (changes.find? fun change => call.offset < change.offset).map (call, ·)

end SolidityAudit.Reentrancy
