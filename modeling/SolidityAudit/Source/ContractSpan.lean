import SolidityAudit.Pattern.Build
import SolidityAudit.SourceUnit.Basic

/-!
# Where contracts stand in a source

The stretch of a contract runs from its declaration to the next declaration that was found, or to
the end of the source. Stretches are kept in a table by name, in the order of their first entry; a
later entry for a name takes the place of the earlier one.
-/

namespace SolidityAudit.Source
open Pattern

abbrev SpanTable := List (String × Span)

namespace SpanTable

/-- Enters a stretch. A name that is already there keeps its place. -/
def insert : SpanTable → String → Span → SpanTable
  | [], name, span => [(name, span)]
  | (n, s) :: rest, name, span =>
    if n == name then (n, span) :: rest else (n, s) :: insert rest name span

def owner? (table : SpanTable) (offset : Int) : Option String :=
  (table.find? fun (_, s) => s.contains offset).map (·.1)

def ownerOr (table : SpanTable) (offset : Int) (fallback : String) : String :=
  (table.owner? offset).getD fallback

end SpanTable

def declarationWords : ContractKind → Pattern
  | .contract => chain [optional (chain [lit "abstract", blanks1]), lit "contract"]
  | .abstract => chain [lit "abstract", blanks1, lit "contract"]
  | .interface => lit "interface"
  | .library => lit "library"

def anyDeclarationWords : Pattern :=
  oneOf [
    chain [lit "abstract", blanks1, lit "contract"], lit "contract", lit "interface", lit "library"]

def contractDeclaration (words : Pattern) (name : List Char) : Pattern :=
  chain [wordEdge, words, blanks1, chars name, wordEdge]

/-- The offset at which a contract is declared. Words of its own kind are tried first, then those of
any kind. -/
def declarationStart? (source : List Char) (contract : ContractDecl) : Option Nat :=
  let name := contract.name.toList
  ((contractDeclaration (declarationWords contract.kind) name).find? source <|>
    (contractDeclaration anyDeclarationWords name).find? source).map (·.start)

/-- The declarations found in a source, ordered by offset and then by name. -/
def declarationStarts (source : List Char) (contracts : List ContractDecl) :
    List (Nat × String) :=
  let found := contracts.filterMap fun c => (declarationStart? source c).map (·, c.name)
  found.mergeSort fun a b => a.1 < b.1 || (a.1 == b.1 && !decide (b.2 < a.2))

/-- Each declaration with its stretch, for declarations in order in a text of the given length. -/
def spansOfStarts (length : Nat) : List (Nat × String) → List (String × Span)
  | [] => []
  | [(start, name)] => [(name, ⟨start, length⟩)]
  | (start, name) :: (next, other) :: rest =>
    (name, ⟨start, next⟩) :: spansOfStarts length ((next, other) :: rest)

def contractSpans (source : List Char) (contracts : List ContractDecl) : SpanTable :=
  (spansOfStarts source.length (declarationStarts source contracts)).foldl
    (fun table (name, span) => table.insert name span) []

end SolidityAudit.Source
