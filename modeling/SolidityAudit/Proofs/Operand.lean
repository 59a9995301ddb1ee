import SolidityAudit.Arithmetic.Operation
import SolidityAudit.Proofs.AssignmentSite

/-!
# Operands and the operators behind them

An operand is read in one way as far as the next operator is concerned: the name ends where the word
ends, an index access ends at its first closing bracket, and a number ends with its digits. So behind an
operand stands at most one of the operators of the table, and at each place of a text at most one of the
operations is found.
-/

namespace SolidityAudit

namespace Arithmetic
open Pattern Text

variable {text rest rest' : List Char} {r r' : Reading} {q : Pattern}

/-! ## Behind an operand -/

def SymbolSign (text : List Char) : Prop :=
  ∃ c ∈ ['+', '-', '*'], ∃ rest, text = c :: rest

/-- A symbol begins no operand and no member access. -/
theorem apart_of_mem_symbols {c : Char} (hc : c ∈ ['+', '-', '*']) :
    isIdentStart c = false ∧ isDecimal c = false ∧ c ≠ '.' := by
  simp only [List.mem_cons, List.not_mem_nil, or_false] at hc
  rcases hc with rfl | rfl | rfl <;> decide

theorem symbolSign_isSign : IsSign SymbolSign := by
  rintro text ⟨c, hc, rest, rfl⟩
  refine ⟨c, rest, rfl, ?_⟩
  simp only [List.mem_cons, List.not_mem_nil, or_false] at hc
  rcases hc with rfl | rfl | rfl <;> decide

def Behind (text rest : List Char) : Prop :=
  (∃ name after, Source.IsName name ∧ text = name ++ after ∧ Follows false (· = rest) after) ∨
    ∃ digits gap, digits ≠ [] ∧ (∀ c ∈ digits, isDecimal c = true) ∧
      (∀ c ∈ gap, isBlank c = true) ∧ text = digits ++ (gap ++ rest)

theorem exists_behind_of_reaches (h : (leftOperand.seq (blanks.seq q)).Reaches r r') :
    ∃ s, Behind r.ahead s.ahead ∧ q.Reaches s r' := by
  obtain ⟨_, ⟨last, hoperand, rfl⟩, s, hblanks, hrest⟩ := h
  refine ⟨s, ?_, hrest⟩
  obtain ⟨gap, hgap, hbetween⟩ := exists_between_of_reaches_many hblanks
  have hgone : last.ahead = gap ++ s.ahead := hbetween.ahead
  rcases hoperand with ⟨_, ⟨_, rfl⟩, _, hidentifier, hindexes⟩ | ⟨_, ⟨_, rfl⟩, hnumber⟩
  · obtain ⟨name, hname, ⟨after, hahead⟩, rfl⟩ := (reaches_iff_describes rfl).mp hidentifier
    obtain ⟨accesses, haccesses, ⟨later, hlater⟩, rfl⟩ := (reaches_iff_describes rfl).mp hindexes
    rw [Reading.advance_ahead_of_eq hlater.symm] at hgone
    rw [Reading.advance_ahead_of_eq hahead.symm, hgone] at hlater
    exact Or.inl ⟨name, after, hname, hahead.symm, accesses, gap, s.ahead, hlater.symm,
      describes_indexes_iff.mp haccesses, hgap, rfl⟩
  · obtain ⟨digits, hdigits, ⟨later, hahead⟩, rfl⟩ := (reaches_iff_describes rfl).mp hnumber
    obtain ⟨hne, hall⟩ := describes_some1_one_iff.mp hdigits
    rw [Reading.advance_ahead_of_eq hahead.symm] at hgone
    rw [hgone] at hahead
    exact Or.inr ⟨digits, gap, hne, hall, hgap, hahead.symm⟩

theorem Behind.begins (h : Behind text rest) :
    ∃ c tail, text = c :: tail ∧ (isIdentStart c = true ∨ isDecimal c = true) := by
  rcases h with ⟨name, after, hname, rfl, _⟩ | ⟨digits, gap, hne, hdigits, _, rfl⟩
  · obtain ⟨c, cs, rfl, hc, _⟩ := describes_identifier_iff.mp hname
    exact ⟨c, cs ++ after, rfl, Or.inl hc⟩
  · obtain ⟨c, cs, rfl⟩ := List.exists_cons_of_ne_nil hne
    exact ⟨c, cs ++ (gap ++ rest), rfl, Or.inr (hdigits c List.mem_cons_self)⟩

theorem not_symbolSign_of_behind (h : Behind text rest) : ¬ SymbolSign text := by
  obtain ⟨c, tail, rfl, hc⟩ := h.begins
  rintro ⟨d, hd, _, heq⟩
  obtain rfl := (List.cons.inj heq).1
  obtain ⟨hident, hdecimal, _⟩ := apart_of_mem_symbols hd
  rw [hident, hdecimal] at hc
  simp at hc

/-- A name is no number. -/
theorem name_ne_digits {name digits after later : List Char} (hname : Source.IsName name)
    (hne : digits ≠ []) (hdigits : ∀ c ∈ digits, isDecimal c = true) :
    name ++ after ≠ digits ++ later := by
  obtain ⟨c, cs, rfl, hc, _⟩ := describes_identifier_iff.mp hname
  obtain ⟨d, ds, rfl⟩ := List.exists_cons_of_ne_nil hne
  intro heq
  obtain rfl := (List.cons.inj heq).1
  have hd := hdigits c List.mem_cons_self
  rw [isDecimal_eq_false_of_isIdentStart hc] at hd
  cases hd

theorem stops_isDecimal {gap : List Char} (hgap : ∀ c ∈ gap, isBlank c = true)
    (hsign : SymbolSign rest) : Stops isDecimal (gap ++ rest) := by
  cases gap with
  | nil =>
      obtain ⟨c, hc, tail, rfl⟩ := hsign
      exact ⟨c, tail, rfl, (apart_of_mem_symbols hc).2.1⟩
  | cons c gap =>
      exact ⟨c, gap ++ rest, rfl, isDecimal_eq_false_of_isBlank (hgap c List.mem_cons_self)⟩

/-- Behind an operand the sign of an operation stands at one place only. -/
theorem Behind.unique (h : Behind text rest) (h' : Behind text rest') (hsign : SymbolSign rest)
    (hsign' : SymbolSign rest') : rest = rest' := by
  have hfixed : ∀ {rest}, SymbolSign rest → IsSign (· = rest) := by
    intro rest hsign _ heq
    exact symbolSign_isSign (heq ▸ hsign)
  rcases h with ⟨name, after, hname, rfl, hafter⟩ | ⟨digits, gap, hne, hdigits, hgap, rfl⟩
  · rcases h' with ⟨name', after', hname', heq, hafter'⟩ | ⟨digits', gap', hne', hdigits', _, heq⟩
    · obtain ⟨_, rfl⟩ := append_inj_of_stops hname.all_isWord hname'.all_isWord
        (hafter.stops_isWord (hfixed hsign)) (hafter'.stops_isWord (hfixed hsign')) heq
      obtain ⟨accesses, gap, _, rfl, haccesses, hgap, rfl⟩ := hafter
      obtain ⟨c, tail, rfl, _, hblank, hopen, _⟩ := symbolSign_isSign hsign
      have hdot : c ≠ '.' := by
        obtain ⟨d, hd, _, heq⟩ := hsign
        obtain rfl := (List.cons.inj heq).1
        exact (apart_of_mem_symbols hd).2.2
      exact hafter'.sign_of_accesses (hfixed hsign') haccesses hgap hblank hopen hdot
    · exact absurd heq (name_ne_digits hname hne' hdigits')
  · rcases h' with ⟨name', after', hname', heq, _⟩ | ⟨digits', gap', _, hdigits', hgap', heq⟩
    · exact absurd heq.symm (name_ne_digits hname' hne hdigits)
    · obtain ⟨_, hbehind⟩ := append_inj_of_stops hdigits hdigits' (stops_isDecimal hgap hsign)
        (stops_isDecimal hgap' hsign') heq
      have hstops : ∀ {rest}, SymbolSign rest → Stops isBlank rest := by
        intro rest hsign
        obtain ⟨c, tail, hrest, _, hblank, _⟩ := symbolSign_isSign hsign
        exact ⟨c, tail, hrest, hblank⟩
      exact (append_inj_of_stops hgap hgap' (hstops hsign) (hstops hsign') hbehind).2

/-! ## Operators -/

/-- An operator, with the characters of which none may follow it. -/
structure Operator where
  symbol : List Char
  excluded : List Char := []

namespace Operator

variable {a b : Operator}

def StandsAt (a : Operator) (text : List Char) : Prop :=
  ∃ rest, text = a.symbol ++ rest ∧ ∀ c ∈ rest.head?, c ∉ a.excluded

theorem StandsAt.symbol_stands (h : a.StandsAt text) : a.symbol <+: text := by
  obtain ⟨rest, rfl, _⟩ := h
  exact List.prefix_append a.symbol rest

/-- Whether the other operator, where it goes on from this one, does so with an excluded character. -/
def cutsOff (a b : Operator) : Bool :=
  !a.symbol.isPrefixOf b.symbol || (b.symbol.drop a.symbol.length).head?.any a.excluded.contains

def excludes (a b : Operator) : Bool := a.cutsOff b && b.cutsOff a

theorem not_standsAt_of_cutsOff (hcuts : a.cutsOff b = true) (hstands : a.symbol <+: b.symbol)
    (ha : a.StandsAt text) : ¬ b.StandsAt text := by
  obtain ⟨rest, rfl, hfree⟩ := ha
  rintro ⟨rest', heq, _⟩
  obtain ⟨more, hmore⟩ := hstands
  rw [cutsOff, List.isPrefixOf_iff_prefix.mpr ⟨more, hmore⟩, ← hmore, List.drop_left, Bool.not_true,
    Bool.false_or] at hcuts
  obtain ⟨c, hhead, hc⟩ := Option.any_eq_true _ _ |>.mp hcuts
  rw [← hmore, List.append_assoc] at heq
  obtain rfl := List.append_cancel_left heq
  refine hfree c ?_ (List.contains_iff_mem.mp hc)
  rw [List.head?_append, hhead]
  rfl

theorem not_standsAt_of_excludes (hexcludes : a.excludes b = true) (ha : a.StandsAt text) :
    ¬ b.StandsAt text := by
  obtain ⟨hab, hba⟩ := Bool.and_eq_true_iff.mp hexcludes
  intro hb
  rcases List.prefix_or_prefix_of_prefix ha.symbol_stands hb.symbol_stands with hstands | hstands
  · exact not_standsAt_of_cutsOff hab hstands ha hb
  · exact not_standsAt_of_cutsOff hba hstands hb ha

def Performed (a : Operator) (text : List Char) : Prop :=
  (∃ rest, Behind text rest ∧ a.StandsAt rest) ∨ a.StandsAt text

end Operator

def operators : List Operator := [
  ⟨['+'], ['+', '=']⟩, ⟨['-'], ['-', '=', '>']⟩, ⟨['*'], ['*', '=']⟩,
  ⟨['+', '='], []⟩, ⟨['-', '='], []⟩, ⟨['*', '='], []⟩, ⟨['+', '+'], []⟩, ⟨['-', '-'], []⟩]

variable {a b : Operator}

theorem symbolSign_of_standsAt (ha : a ∈ operators) (h : a.StandsAt text) : SymbolSign text := by
  have hall : operators.all (fun a => a.symbol.head?.any ['+', '-', '*'].contains) = true := by decide
  obtain ⟨c, hhead, hc⟩ := Option.any_eq_true _ _ |>.mp (List.all_eq_true.mp hall a ha)
  obtain ⟨rest, rfl, _⟩ := h
  obtain ⟨tail, htail⟩ := List.head?_eq_some_iff.mp hhead
  exact ⟨c, List.contains_iff_mem.mp hc, tail ++ rest, by rw [htail, List.cons_append]⟩

theorem not_performed_of_excludes (ha : a ∈ operators) (hb : b ∈ operators)
    (hexcludes : a.excludes b = true) (h : a.Performed text) : ¬ b.Performed text := by
  rintro (⟨rest', hbehind', hb'⟩ | hb')
  · rcases h with ⟨rest, hbehind, ha'⟩ | ha'
    · obtain rfl := hbehind.unique hbehind' (symbolSign_of_standsAt ha ha')
        (symbolSign_of_standsAt hb hb')
      exact Operator.not_standsAt_of_excludes hexcludes ha' hb'
    · exact not_symbolSign_of_behind hbehind' (symbolSign_of_standsAt ha ha')
  · rcases h with ⟨rest, hbehind, _⟩ | ha'
    · exact not_symbolSign_of_behind hbehind (symbolSign_of_standsAt hb hb')
    · exact Operator.not_standsAt_of_excludes hexcludes ha' hb'

/-! ## The operations of the table -/

theorem performed_of_reaches_leftOperand (hq : ∀ {s}, q.Reaches s r' → a.StandsAt s.ahead)
    (h : (leftOperand.seq (blanks.seq q)).Reaches r r') : a.Performed r.ahead := by
  obtain ⟨s, hbehind, hs⟩ := exists_behind_of_reaches h
  exact Or.inl ⟨s.ahead, hbehind, hq hs⟩

theorem standsAt_of_reaches_lit {symbol : String} (h : (lit symbol).Reaches r r') :
    Operator.StandsAt ⟨symbol.toList, []⟩ r.ahead :=
  ⟨r'.ahead, (between_of_reaches_chars h).ahead, by simp⟩

theorem standsAt_of_reaches_notNext {symbol excluded : String}
    (h : ((lit symbol).seq ((notNext excluded).seq q)).Reaches r r') :
    Operator.StandsAt ⟨symbol.toList, excluded.toList⟩ r.ahead := by
  obtain ⟨s, hlit, _, ⟨hfree, _⟩, _⟩ := h
  refine ⟨s.ahead, (between_of_reaches_chars hlit).ahead, ?_⟩
  intro c hc hmem
  rw [Option.mem_def.mp hc, Option.any_some, List.contains_iff_mem.mpr hmem] at hfree
  cases hfree

theorem performed_of_reaches_stepping {symbol : String}
    (h : (steppingOperation symbol).Reaches r r') :
    Operator.Performed ⟨symbol.toList, []⟩ r.ahead := by
  rcases h with h | ⟨_, hlit, _⟩
  · exact performed_of_reaches_leftOperand standsAt_of_reaches_lit h
  · exact Or.inr (standsAt_of_reaches_lit hlit)

theorem performed_of_reaches_assigning {symbol : String}
    (h : (assigningOperation symbol).Reaches r r') :
    Operator.Performed ⟨symbol.toList, []⟩ r.ahead := by
  refine performed_of_reaches_leftOperand ?_ h
  rintro s ⟨_, hlit, _⟩
  exact standsAt_of_reaches_lit hlit

theorem performed_of_reaches_infixOperation {symbol excluded : String}
    (h : (infixOperation symbol excluded).Reaches r r') :
    Operator.Performed ⟨symbol.toList, excluded.toList⟩ r.ahead :=
  performed_of_reaches_leftOperand standsAt_of_reaches_notNext h

/-- Where an operation of the table is found, its operator is performed. -/
theorem performed_of_reaches {entry : Operation × Operator} (hentry : entry ∈ operations.zip operators)
    (h : entry.1.pattern.Reaches r r') : entry.2.Performed r.ahead := by
  revert entry
  simp only [operations, operators, List.zip_cons_cons, List.zip_nil_left, List.forall_mem_cons,
    List.not_mem_nil, false_imp_iff, implies_true, and_true]
  exact ⟨performed_of_reaches_infixOperation, performed_of_reaches_infixOperation,
    performed_of_reaches_infixOperation, performed_of_reaches_assigning,
    performed_of_reaches_assigning, performed_of_reaches_assigning, performed_of_reaches_stepping,
    performed_of_reaches_stepping⟩

/-- From no place do two operations of the table lead on. -/
theorem operations_reach_apart : operations.Pairwise fun op op' =>
    ∀ r r' r'', op.pattern.Reaches r r' → ¬ op'.pattern.Reaches r r'' := by
  have hexcludes : operators.Pairwise fun a b => a.excludes b = true := by decide
  have hzip : (operations.zip operators).Pairwise fun x y => x.2.excludes y.2 = true :=
    List.pairwise_map.mp (show ((operations.zip operators).map (·.2)).Pairwise _ from hexcludes)
  have hapart : (operations.zip operators).Pairwise fun x y =>
      ∀ r r' r'', x.1.pattern.Reaches r r' → ¬ y.1.pattern.Reaches r r'' := by
    apply hzip.imp_of_mem
    intro x y hx hy hxy r r' r'' hr' hr''
    exact not_performed_of_excludes (List.of_mem_zip hx).2 (List.of_mem_zip hy).2 hxy
      (performed_of_reaches hx hr') (performed_of_reaches hy hr'')
  have hfirst : (operations.zip operators).map (·.1) = operations := rfl
  rw [← hfirst]
  exact List.pairwise_map.mpr hapart

end Arithmetic
end SolidityAudit
