import SolidityAudit.Source.Line

/-!
# Bounds of line numbers

Every line number that is computed from an offset lies between one and the number of lines of the
source, wherever the offset lies.
-/

namespace SolidityAudit.Source

theorem one_le_lineAt (source : List Char) (offset : Int) : 1 ≤ lineAt source offset :=
  Nat.le_add_left 1 _

theorem lineAt_le (source : List Char) (offset : Int) :
    lineAt source offset ≤ 1 + Text.lineFeeds source := by
  have hcount : Text.lineFeeds (source.take offset.toNat) ≤ Text.lineFeeds source :=
    (List.take_sublist _ source).count_le '\n'
  unfold lineAt
  omega

theorem one_le_bodyLine (source : List Char) {f : FunctionDecl} (hf : 1 ≤ f.lineStart)
    (offset : Int) : 1 ≤ bodyLine source f offset := by
  unfold bodyLine
  split
  · exact one_le_lineAt _ _
  · exact Nat.le_trans hf (Nat.le_add_right _ _)

theorem mem_functions_of_functionAt?_eq_some {c : ContractDecl} {source : List Char}
    {offset : Int} {f : FunctionDecl} (h : functionAt? c source offset = some f) :
    f ∈ c.functions :=
  List.mem_of_find?_eq_some h

end SolidityAudit.Source
