import SolidityAudit.Report.Metrics

/-!
# Lines that are counted twice

Of the lines of a source some are empty when stripped, and the others count as code or as comment. A
line that begins with a star counts as both: it may go on with a comment, and it opens none. The counts
of code and comment therefore exceed the number of lines that are not empty by the number of these
lines, and each line is counted once exactly if there is none.
-/

namespace SolidityAudit

/-- The lines hold all characters of the text but those that end a line. -/
theorem Text.flatten_linesFrom (line text : List Char) : (linesFrom line text).flatten =
    line.reverse ++ text.filter fun c => !endsLine c := by
  fun_induction linesFrom line text with
  | case1 line hempty => simp [List.isEmpty_iff.mp hempty]
  | case2 line _ => simp
  | case3 line rest ih =>
      have hreturn : endsLine '\r' = true := rfl
      have hfeed : endsLine '\n' = true := rfl
      simp [ih, hreturn, hfeed]
  | case4 line c rest _ hends ih => simp [ih, hends]
  | case5 line c rest _ hgoesOn ih => simp [ih, hgoesOn]

namespace Metrics

def isStarred (line : List Char) : Bool := (Text.strip line).head? == some '*'

def emptyLines (u : SourceUnit) : Nat :=
  (Text.lines u.text).countP fun line => (Text.strip line).isEmpty

def starredLines (u : SourceUnit) : Nat := (Text.lines u.text).countP isStarred

/-- How often a stripped line is counted: as code, as comment and as empty. -/
def timesCounted (stripped : List Char) : Nat :=
  (isCode stripped).toNat + (isComment stripped).toNat + stripped.isEmpty.toNat

/-- The two tables of signs differ by the star alone. -/
theorem timesCounted_eq (stripped : List Char) :
    timesCounted stripped = 1 + (stripped.head? == some '*').toNat := by
  cases stripped with
  | nil => rfl
  | cons c rest =>
      have hstar : ['*'].isPrefixOf (c :: rest) = (c == '*') := by
        change ('*' == c && true) = (c == '*')
        rw [Bool.and_true, BEq.comm]
      cases hopens : opensComment (c :: rest) with
      | false =>
          simp only [timesCounted, isCode, isComment, hopens, hstar, List.isEmpty_cons,
            List.head?_cons, Option.some_beq_some]
          rfl
      | true =>
          have hslash : c = '/' := by
            simp only [opensComment, Bool.or_eq_true, List.isPrefixOf_iff_prefix] at hopens
            rcases hopens with hopens | hopens
            · exact (List.cons_prefix_cons.mp hopens).1.symm
            · exact (List.cons_prefix_cons.mp hopens).1.symm
          subst hslash
          simp only [timesCounted, isCode, isComment, hopens]
          rfl

theorem countP_add_eq_length_add (lines : List (List Char)) :
    lines.countP (fun line => isCode (Text.strip line)) +
        lines.countP (fun line => isComment (Text.strip line)) +
        lines.countP (fun line => (Text.strip line).isEmpty) =
      lines.length + lines.countP isStarred := by
  induction lines with
  | nil => rfl
  | cons line rest ih =>
      have hline := timesCounted_eq (Text.strip line)
      have hcount : ∀ holds : List Char → Bool,
          (line :: rest).countP holds = rest.countP holds + (holds line).toNat := by
        intro holds
        rw [List.countP_cons]
        cases holds line <;> rfl
      simp only [hcount, List.length_cons]
      unfold timesCounted at hline
      unfold isStarred at ih ⊢
      omega

/-- The counts of code, comment and empty lines add up to the number of lines and that of starred lines,
which count as code and as comment. So every line is counted once exactly if none is starred, and code
and comment exceed the number of lines as soon as there are more starred lines than empty ones. -/
theorem line_counts_add_up (u : SourceUnit) :
    (Text.lines u.text).flatten = u.text.filter (fun c => !Text.endsLine c) ∧
    (ofUnit u).totalLines = (Text.lines u.text).length ∧
    (ofUnit u).codeLines + (ofUnit u).commentLines + emptyLines u =
      (ofUnit u).totalLines + starredLines u ∧
    ((ofUnit u).codeLines + (ofUnit u).commentLines + emptyLines u = (ofUnit u).totalLines ↔
      ∀ line ∈ Text.lines u.text, (Text.strip line).head? ≠ some '*') ∧
    ((ofUnit u).codeLines + (ofUnit u).commentLines ≤ (ofUnit u).totalLines ↔
      starredLines u ≤ emptyLines u) := by
  have htotal : (ofUnit u).totalLines = (Text.lines u.text).length := List.length_map _
  have hsum : (ofUnit u).codeLines + (ofUnit u).commentLines + emptyLines u =
      (ofUnit u).totalLines + starredLines u := by
    rw [htotal, emptyLines, starredLines, ← countP_add_eq_length_add]
    simp only [ofUnit, List.countP_map, Function.comp_def]
  have hnone : starredLines u = 0 ↔
      ∀ line ∈ Text.lines u.text, (Text.strip line).head? ≠ some '*' := by
    rw [starredLines, List.countP_eq_zero]
    simp only [isStarred, beq_iff_eq, ne_eq]
  refine ⟨?_, htotal, hsum, ?_, ?_⟩
  · rw [Text.lines, Text.flatten_linesFrom, List.reverse_nil, List.nil_append]
  · rw [← hnone]
    omega
  · omega

/-- Of the four lines of a contract with a comment over three lines three count as code and three as
comment. -/
theorem comment_lines_counted_as_code :
    let u : SourceUnit := {
      source := "/**\n * @title Vault\n */\ncontract Vault \x7b\x7d"
      contracts := [{ name := "Vault" }] }
    (ofUnit u).totalLines = 4 ∧ (ofUnit u).codeLines = 3 ∧ (ofUnit u).commentLines = 3 ∧
      emptyLines u = 0 ∧ starredLines u = 2 ∧
      ¬ (ofUnit u).codeLines + (ofUnit u).commentLines ≤ (ofUnit u).totalLines := by
  decide

end Metrics
end SolidityAudit
