import SolidityAudit.Proofs.CriticalState
import SolidityAudit.Proofs.LocalDeclaration

/-!
# Writes through an index

An index access is read up to the first closing bracket. A write through an index without brackets
is therefore recognised whatever the index is, and for an index that holds brackets everything depends
on the text behind its first closing bracket: in `x[a[b]] = v;` a bracket comes there and no write is
seen, while `x[a[b] = c] = v;` is taken for a write of `x` that stops at the first sign.
-/

namespace SolidityAudit
open Pattern

/-! ## Brackets -/

namespace Text

/-- Whether a text closes the given number of open brackets and all that it opens. -/
def closes : Nat → List Char → Bool
  | depth, [] => depth == 0
  | depth, c :: rest =>
    if c = '[' then closes (depth + 1) rest
    else if c = ']' then
      match depth with
      | 0 => false
      | depth + 1 => closes depth rest
    else closes depth rest

def isBalanced (text : List Char) : Bool := closes 0 text

variable {text : List Char} {depth : Nat}

theorem notMem_close_of_notMem_open (h : closes 0 text = true) (hopen : '[' ∉ text) :
    ']' ∉ text := by
  induction text with
  | nil => simp
  | cons c rest ih =>
      obtain ⟨hne, hrest⟩ := not_or.mp (mt List.mem_cons.mpr hopen)
      by_cases hclose : c = ']'
      · simp [closes, hclose] at h
      · have hc : c ≠ '[' := fun heq => hne heq.symm
        simp only [closes, if_neg hc, if_neg hclose] at h
        rw [List.mem_cons, not_or]
        exact ⟨fun heq => hclose heq.symm, ih h hrest⟩

theorem notMem_open_of_notMem_close (h : closes depth text = true) (hclose : ']' ∉ text) :
    depth = 0 ∧ '[' ∉ text := by
  induction text generalizing depth with
  | nil => simpa [closes] using h
  | cons c rest ih =>
      obtain ⟨hne, hrest⟩ := not_or.mp (mt List.mem_cons.mpr hclose)
      by_cases hopen : c = '['
      · simp only [closes, if_pos hopen] at h
        exact absurd (ih h hrest).1 (Nat.succ_ne_zero depth)
      · have hc : c ≠ ']' := fun heq => hne heq.symm
        simp only [closes, if_neg hopen, if_neg hc] at h
        obtain ⟨hdepth, hrest'⟩ := ih h hrest
        rw [List.mem_cons, not_or]
        exact ⟨hdepth, fun heq => hopen heq.symm, hrest'⟩

end Text

open Text
open Reentrancy (memberAccesses)

/-! ## Accesses -/

/-- Index accesses, each up to the first closing bracket, and member accesses if these are read too. -/
inductive Accesses (members : Bool) : List Char → Prop
  | none : Accesses members []
  | index {gap inner rest : List Char} (hgap : ∀ c ∈ gap, isBlank c = true) (hinner : ']' ∉ inner)
      (hrest : Accesses members rest) : Accesses members (gap ++ '[' :: (inner ++ ']' :: rest))
  | member {gap gap' name rest : List Char} (hmembers : members = true)
      (hgap : ∀ c ∈ gap, isBlank c = true) (hgap' : ∀ c ∈ gap', isBlank c = true)
      (hname : Source.IsName name) (hrest : Accesses members rest) :
      Accesses members (gap ++ '.' :: (gap' ++ (name ++ rest)))

variable {members : Bool} {text piece rest name : List Char} {sign : List Char → Prop}

theorem describes_index_iff :
    (chain [blanks, lit "[", many (charNotOf "]"), lit "]"]).Describes piece ↔
      ∃ gap inner, (∀ c ∈ gap, isBlank c = true) ∧ ']' ∉ inner ∧
        piece = gap ++ '[' :: (inner ++ [']']) := by
  have hinner : ∀ {inner : List Char}, (many (charNotOf "]")).Describes inner ↔ ']' ∉ inner :=
    describes_many_charNotOf_iff rfl
  constructor
  · rintro ⟨gap, _, rfl, hgap, _, _, rfl, hopen, inner, _, rfl, hinner', hclose⟩
    obtain rfl := describes_chars_iff.mp hopen
    obtain rfl := describes_chars_iff.mp hclose
    exact ⟨gap, inner, describes_many_one_iff.mp hgap, hinner.mp hinner', rfl⟩
  · rintro ⟨gap, inner, hgap, hmem, rfl⟩
    exact ⟨gap, _, rfl, describes_many_one_iff.mpr hgap, ['['], inner ++ [']'], rfl,
      describes_chars_iff.mpr rfl, inner, [']'], rfl, hinner.mpr hmem, describes_chars_iff.mpr rfl⟩

theorem Accesses.indexes_append {u v : List Char} (hu : indexes.Describes u)
    (hv : Accesses members v) : Accesses members (u ++ v) := by
  obtain ⟨pieces, rfl, hpieces⟩ := hu
  induction pieces with
  | nil => exact hv
  | cons first pieces ih =>
      obtain ⟨hfirst, hrest⟩ := List.forall_mem_cons.mp hpieces
      obtain ⟨gap, inner, hgap, hinner, rfl⟩ := describes_index_iff.mp hfirst
      have haccess := Accesses.index hgap hinner (ih hrest)
      simpa using haccess

theorem describes_indexes_cons {first v : List Char}
    (hfirst : (chain [blanks, lit "[", many (charNotOf "]"), lit "]"]).Describes first)
    (hv : indexes.Describes v) : indexes.Describes (first ++ v) := by
  obtain ⟨pieces, rfl, hpieces⟩ := hv
  exact ⟨first :: pieces, rfl, List.forall_mem_cons.mpr ⟨hfirst, hpieces⟩⟩

theorem describes_indexes_iff : indexes.Describes piece ↔ Accesses false piece := by
  constructor
  · intro h
    rw [← List.append_nil piece]
    exact Accesses.indexes_append h .none
  · intro h
    induction h with
    | none => exact ⟨[], rfl, by simp⟩
    | @index gap inner rest hgap hinner _ ih =>
        have hfirst := describes_index_iff.mpr ⟨gap, inner, hgap, hinner, rfl⟩
        simpa using describes_indexes_cons hfirst ih
    | member hmembers => cases hmembers

theorem describes_memberAccesses_cons {gap gap' name u v : List Char}
    (hgap : ∀ c ∈ gap, isBlank c = true) (hgap' : ∀ c ∈ gap', isBlank c = true)
    (hname : Source.IsName name) (hu : indexes.Describes u) (hv : memberAccesses.Describes v) :
    memberAccesses.Describes (gap ++ '.' :: (gap' ++ (name ++ (u ++ v)))) := by
  obtain ⟨pieces, rfl, hpieces⟩ := hv
  refine ⟨(gap ++ '.' :: (gap' ++ (name ++ u))) :: pieces, by simp,
    List.forall_mem_cons.mpr ⟨?_, hpieces⟩⟩
  exact ⟨gap, _, rfl, describes_many_one_iff.mpr hgap, ['.'], _, rfl, describes_chars_iff.mpr rfl,
    gap', _, rfl, describes_many_one_iff.mpr hgap', name, u, rfl, hname, hu⟩

theorem describes_accesses_iff : (seq indexes memberAccesses).Describes piece ↔
    Accesses true piece := by
  constructor
  · rintro ⟨u, _, rfl, hu, pieces, rfl, hpieces⟩
    apply Accesses.indexes_append hu
    clear hu
    induction pieces with
    | nil => exact .none
    | cons first pieces ih =>
        obtain ⟨hfirst, hrest⟩ := List.forall_mem_cons.mp hpieces
        obtain ⟨gap, _, rfl, hgap, _, _, rfl, hdot, gap', _, rfl, hgap', name, v, rfl, hname, hv⟩ :=
          hfirst
        obtain rfl := describes_chars_iff.mp hdot
        have haccess := Accesses.member rfl (describes_many_one_iff.mp hgap)
          (describes_many_one_iff.mp hgap') hname (Accesses.indexes_append hv (ih hrest))
        simpa using haccess
  · intro h
    induction h with
    | none => exact ⟨[], [], rfl, ⟨[], rfl, by simp⟩, ⟨[], rfl, by simp⟩⟩
    | @index gap inner _ hgap hinner _ ih =>
        obtain ⟨u, v, rfl, hu, hv⟩ := ih
        have hfirst := describes_index_iff.mpr ⟨gap, inner, hgap, hinner, rfl⟩
        exact ⟨_, v, by simp, describes_indexes_cons hfirst hu, hv⟩
    | @member gap gap' name _ _ hgap hgap' hname _ ih =>
        obtain ⟨u, v, rfl, hu, hv⟩ := ih
        exact ⟨[], _, rfl, ⟨[], rfl, by simp⟩, describes_memberAccesses_cons hgap hgap' hname hu hv⟩

/-- Accesses stand at the head of the text, then blanks, and then what the sign asks for. -/
def Follows (members : Bool) (sign : List Char → Prop) (text : List Char) : Prop :=
  ∃ accesses gap rest, text = accesses ++ (gap ++ rest) ∧ Accesses members accesses ∧
    (∀ c ∈ gap, isBlank c = true) ∧ sign rest

def IsSign (sign : List Char → Prop) : Prop :=
  ∀ ⦃text⦄, sign text → ∃ c rest, text = c :: rest ∧ isWord c = false ∧ isBlank c = false ∧
    c ≠ '[' ∧ c ≠ ']'

theorem Follows.stops_isWord (hsign : IsSign sign) (h : Follows members sign text) :
    Stops isWord text := by
  obtain ⟨accesses, gap, rest, rfl, haccesses, hgap, hrest⟩ := h
  cases haccesses with
  | none =>
      obtain ⟨c, cs, rfl, hc, _⟩ := hsign hrest
      rw [List.nil_append]
      exact stops_isWord_append hgap ⟨c, cs, rfl, hc⟩
  | index hgap' =>
      rw [List.append_assoc]
      exact stops_isWord_append hgap' ⟨'[', _, rfl, by decide⟩
  | member _ hgap' =>
      rw [List.append_assoc]
      exact stops_isWord_append hgap' ⟨'.', _, rfl, by decide⟩

/-- The first character behind the blanks says what follows: an index, a member or the sign. -/
theorem Follows.cases_of_gap (hsign : IsSign sign) {gap tail : List Char} {c : Char}
    (hgap : ∀ d ∈ gap, isBlank d = true) (hc : isBlank c = false)
    (h : Follows members sign (gap ++ c :: tail)) :
    (c = '[' ∧ ∃ inner rest, ']' ∉ inner ∧ tail = inner ++ ']' :: rest ∧ Follows members sign rest) ∨
      c = '.' ∨ sign (c :: tail) := by
  have hcut : ∀ {gap' v : List Char}, (∀ d ∈ gap', isBlank d = true) → Stops isBlank v →
      gap ++ c :: tail = gap' ++ v → c :: tail = v := fun hgap' hv heq =>
    (append_inj_of_stops hgap hgap' ⟨c, tail, rfl, hc⟩ hv heq).2
  obtain ⟨accesses, gap', rest, htext, haccesses, hgap', hrest⟩ := h
  cases haccesses with
  | none =>
      obtain ⟨d, ds, rfl, _, hd, _⟩ := hsign hrest
      rw [hcut hgap' ⟨d, ds, rfl, hd⟩ htext]
      exact Or.inr (Or.inr hrest)
  | @index gap₁ inner accesses hgap₁ hinner haccesses =>
      simp only [List.append_assoc, List.cons_append] at htext
      obtain ⟨hopen, htail⟩ := List.cons.inj (hcut hgap₁ ⟨'[', _, rfl, by decide⟩ htext)
      exact Or.inl ⟨hopen, inner, _, hinner, htail, accesses, gap', rest, rfl, haccesses, hgap', hrest⟩
  | member _ hgap₁ =>
      simp only [List.append_assoc, List.cons_append] at htext
      obtain ⟨hdot, _⟩ := List.cons.inj (hcut hgap₁ ⟨'.', _, rfl, by decide⟩ htext)
      exact Or.inr (Or.inl hdot)

/-- An index is passed at its first closing bracket and in no other way. -/
theorem follows_index_iff (hsign : IsSign sign) {inner tail : List Char} (hinner : ']' ∉ inner) :
    Follows members sign ('[' :: (inner ++ ']' :: tail)) ↔ Follows members sign tail := by
  constructor
  · intro h
    rcases @Follows.cases_of_gap _ _ hsign [] _ '[' (by simp) (by decide) h with
      ⟨_, inner', rest, hinner', htext, hrest⟩ | hdot | hhere
    · rwa [(append_cons_inj_of_notMem hinner hinner' htext).2]
    · exact absurd hdot (by decide)
    · obtain ⟨c, cs, htext, _, _, hne, _⟩ := hsign hhere
      exact absurd (List.cons.inj htext).1.symm hne
  · rintro ⟨accesses, gap, rest, rfl, haccesses, hgap, hrest⟩
    exact ⟨[] ++ '[' :: (inner ++ ']' :: accesses), gap, rest, by simp,
      Accesses.index (by simp) hinner haccesses, hgap, hrest⟩

/-- Nothing that is written follows where a bracket is closed next. -/
theorem not_follows_close (hsign : IsSign sign) {gap more : List Char}
    (hgap : ∀ c ∈ gap, isBlank c = true) : ¬ Follows members sign (gap ++ ']' :: more) := by
  intro h
  rcases Follows.cases_of_gap hsign hgap (by decide) h with ⟨hopen, _⟩ | hdot | hhere
  · exact absurd hopen (by decide)
  · exact absurd hdot (by decide)
  · obtain ⟨c, cs, htext, _, _, _, hne⟩ := hsign hhere
    exact absurd (List.cons.inj htext).1.symm hne

/-! ## Signs of a write -/

def AssignSign (text : List Char) : Prop :=
  ∃ rest, text = '=' :: rest ∧ rest.head? ≠ some '=' ∧ rest.head? ≠ some '>'

def CompoundSign (text : List Char) : Prop :=
  ∃ op ∈ ["+", "-", "*", "/", "%", "|", "&", "^", "<<", ">>"], ∃ rest,
    text = op.toList ++ '=' :: rest

def StepSign (text : List Char) : Prop :=
  ∃ op ∈ ["++", "--"], ∃ rest, text = op.toList ++ rest

def ElementSign (text : List Char) : Prop :=
  ∃ gap method gap' rest, (∀ c ∈ gap, isBlank c = true) ∧ method ∈ ["push", "pop"] ∧
    (∀ c ∈ gap', isBlank c = true) ∧ text = '.' :: (gap ++ (method.toList ++ (gap' ++ '(' :: rest)))

def ChangeSign (text : List Char) : Prop :=
  AssignSign text ∨ CompoundSign text ∨ StepSign text ∨ ElementSign text

def ShortAssignSign (text : List Char) : Prop :=
  ∃ op ∈ [[], ['+'], ['-'], ['*'], ['/']], ∃ rest, text = op ++ '=' :: rest ∧
    rest.head? ≠ some '=' ∧ rest.head? ≠ some '>'

def VariableSign (text : List Char) : Prop :=
  ShortAssignSign text ∨ StepSign text

theorem changeSign_isSign : IsSign ChangeSign := by
  rintro text (⟨rest, rfl, _⟩ | ⟨op, hop, rest, rfl⟩ | ⟨op, hop, rest, rfl⟩ |
    ⟨gap, method, gap', rest, _, _, _, rfl⟩)
  · exact ⟨'=', rest, rfl, by decide⟩
  · simp only [List.mem_cons, List.not_mem_nil, or_false] at hop
    rcases hop with rfl | rfl | rfl | rfl | rfl | rfl | rfl | rfl | rfl | rfl <;>
      exact ⟨_, _, rfl, by decide⟩
  · simp only [List.mem_cons, List.not_mem_nil, or_false] at hop
    rcases hop with rfl | rfl <;> exact ⟨_, _, rfl, by decide⟩
  · exact ⟨'.', _, rfl, by decide⟩

theorem variableSign_isSign : IsSign VariableSign := by
  rintro text (⟨op, hop, rest, rfl, _⟩ | ⟨op, hop, rest, rfl⟩)
  · simp only [List.mem_cons, List.not_mem_nil, or_false] at hop
    rcases hop with rfl | rfl | rfl | rfl | rfl <;> exact ⟨_, _, rfl, by decide⟩
  · simp only [List.mem_cons, List.not_mem_nil, or_false] at hop
    rcases hop with rfl | rfl <;> exact ⟨_, _, rfl, by decide⟩

/-! ## Patterns that end with a sign -/

variable {p q : Pattern} {r : Reading}

theorem announces_notNext : Announces (notNext "=>") fun text =>
    text.head? ≠ some '=' ∧ text.head? ≠ some '>' := by
  intro r
  constructor
  · rintro ⟨r', hfree, _⟩
    cases hhead : r.ahead.head? with
    | none => simp
    | some c =>
        rw [hhead] at hfree
        constructor
        · intro heq
          rw [Option.some.inj heq] at hfree
          cases hfree
        · intro heq
          rw [Option.some.inj heq] at hfree
          cases hfree
  · rintro ⟨hequals, harrow⟩
    refine ⟨r, ?_, rfl⟩
    cases hhead : r.ahead.head? with
    | none => rfl
    | some c =>
        rw [hhead] at hequals harrow
        have hne : c ≠ '=' ∧ c ≠ '>' :=
          ⟨fun heq => hequals (heq ▸ rfl), fun heq => harrow (heq ▸ rfl)⟩
        simp [hne]

theorem announces_assign : Announces (chain [lit "=", notNext "=>"]) AssignSign := by
  refine (Announces.seq rfl announces_notNext).congr fun text => ?_
  constructor
  · rintro ⟨_, rest, hequals, rfl, hfree⟩
    obtain rfl := describes_chars_iff.mp hequals
    exact ⟨rest, rfl, hfree⟩
  · rintro ⟨rest, rfl, hfree⟩
    exact ⟨['='], rest, describes_chars_iff.mpr rfl, rfl, hfree⟩

theorem announces_shortAssign : Announces
    (chain [Pattern.optional (charOf "+-*/"), lit "=", notNext "=>"]) ShortAssignSign := by
  refine (Announces.seq rfl announces_assign).congr fun text => ?_
  constructor
  · rintro ⟨op, _, hop, rfl, rest, rfl, hfree⟩
    refine ⟨op, ?_, rest, rfl, hfree⟩
    rcases hop with ⟨c, hc, rfl⟩ | rfl
    · have hmem : c ∈ ['+', '-', '*', '/'] := List.contains_iff_mem.mp hc
      simpa using hmem
    · exact List.mem_cons_self
  · rintro ⟨op, hop, rest, rfl, hfree⟩
    refine ⟨op, _, ?_, rfl, rest, rfl, hfree⟩
    simp only [List.mem_cons, List.not_mem_nil, or_false] at hop
    rcases hop with rfl | rfl | rfl | rfl | rfl
    · exact Or.inr rfl
    all_goals exact Or.inl ⟨_, rfl, rfl⟩

theorem announces_step : Announces (litOf ["++", "--"]) StepSign := by
  refine (announces_of_isPlain rfl).congr fun text => ?_
  constructor
  · rintro ⟨piece, rest, hpiece, rfl⟩
    obtain ⟨op, hop, rfl⟩ := describes_litOf_iff.mp hpiece
    exact ⟨op, hop, rest, rfl⟩
  · rintro ⟨op, hop, rest, rfl⟩
    exact ⟨op.toList, rest, describes_litOf_iff.mpr ⟨op, hop, rfl⟩, rfl⟩

theorem announces_compound : Announces
    (chain [litOf ["+", "-", "*", "/", "%", "|", "&", "^", "<<", ">>"], lit "="]) CompoundSign := by
  refine (Announces.seq rfl (announces_of_isPlain rfl)).congr fun text => ?_
  constructor
  · rintro ⟨piece, _, hpiece, rfl, _, rest, hequals, rfl⟩
    obtain ⟨op, hop, rfl⟩ := describes_litOf_iff.mp hpiece
    obtain rfl := describes_chars_iff.mp hequals
    exact ⟨op, hop, rest, rfl⟩
  · rintro ⟨op, hop, rest, rfl⟩
    exact ⟨op.toList, _, describes_litOf_iff.mpr ⟨op, hop, rfl⟩, rfl, ['='], rest,
      describes_chars_iff.mpr rfl, rfl⟩

theorem announces_element : Announces
    (chain [lit ".", blanks, litOf ["push", "pop"], blanks, lit "("]) ElementSign := by
  refine (Announces.seq rfl (Announces.seq rfl (Announces.seq rfl (Announces.seq rfl
    (announces_of_isPlain rfl))))).congr fun text => ?_
  constructor
  · rintro ⟨_, _, hdot, rfl, gap, _, hgap, rfl, _, _, hmethod, rfl, gap', _, hgap', rfl, _, rest,
      hparen, rfl⟩
    obtain rfl := describes_chars_iff.mp hdot
    obtain ⟨method, hmem, rfl⟩ := describes_litOf_iff.mp hmethod
    obtain rfl := describes_chars_iff.mp hparen
    exact ⟨gap, method, gap', rest, describes_many_one_iff.mp hgap, hmem,
      describes_many_one_iff.mp hgap', rfl⟩
  · rintro ⟨gap, method, gap', rest, hgap, hmethod, hgap', rfl⟩
    exact ⟨['.'], _, describes_chars_iff.mpr rfl, rfl, gap, _, describes_many_one_iff.mpr hgap, rfl,
      method.toList, _, describes_litOf_iff.mpr ⟨method, hmethod, rfl⟩, rfl, gap', _,
      describes_many_one_iff.mpr hgap', rfl, ['('], rest, describes_chars_iff.mpr rfl, rfl⟩

/-- Accesses and blanks before a sign. -/
theorem Announces.follows (hp : p.isPlain = true)
    (haccesses : ∀ {piece}, p.Describes piece ↔ Accesses members piece) (hq : Announces q sign) :
    Announces (p.seq (blanks.seq q)) (Follows members sign) := by
  refine (Announces.seq hp (Announces.seq rfl hq)).congr fun text => ?_
  constructor
  · rintro ⟨piece, _, hpiece, rfl, gap, rest, hgap, rfl, hrest⟩
    exact ⟨piece, gap, rest, rfl, haccesses.mp hpiece, describes_many_one_iff.mp hgap, hrest⟩
  · rintro ⟨piece, gap, rest, rfl, hpiece, hgap, hrest⟩
    exact ⟨piece, _, haccesses.mpr hpiece, rfl, gap, rest, describes_many_one_iff.mpr hgap, rfl, hrest⟩

theorem exists_reaches_assignable_iff (hq : Announces q sign) :
    (∃ r', (Reentrancy.assignable.seq (blanks.seq q)).Reaches r r') ↔ r.atWordEdge = true ∧
      ∃ name rest, Source.IsName name ∧ r.ahead = name ++ rest ∧ Follows true sign rest := by
  have hfollows := Announces.follows rfl describes_accesses_iff hq
  constructor
  · rintro ⟨r', r₁, ⟨_, ⟨hedge, rfl⟩, _, ⟨last, hlast, rfl⟩, haccesses⟩, hrest⟩
    obtain ⟨name, hname, ⟨rest, hahead⟩, rfl⟩ := (reaches_iff_describes rfl).mp hlast
    have hsign := (hfollows _).mp ⟨r', r₁, haccesses, hrest⟩
    change Follows true sign (Reading.advance _ name).ahead at hsign
    rw [Reading.advance_ahead_of_eq hahead.symm] at hsign
    exact ⟨hedge, name, rest, hname, hahead.symm, hsign⟩
  · rintro ⟨hedge, name, rest, hname, hahead, hsign⟩
    rw [← Reading.advance_ahead_of_eq hahead] at hsign
    have hlast : identifier.Reaches r (r.advance name) :=
      (reaches_iff_describes rfl).mpr ⟨name, hname, ⟨rest, hahead.symm⟩, rfl⟩
    obtain ⟨r', r₁, haccesses, hrest⟩ :=
      (hfollows ((r.advance name).remember "target" r.offset)).mpr hsign
    exact ⟨r', r₁, ⟨r, ⟨hedge, rfl⟩, _, ⟨_, hlast, rfl⟩, haccesses⟩, hrest⟩

theorem exists_reaches_named_iff (hq : Announces q sign) :
    (∃ r', (chain [wordEdge, chars name, indexes, blanks, q]).Reaches r r') ↔
      r.atWordEdge = true ∧ ∃ rest, r.ahead = name ++ rest ∧ Follows false sign rest := by
  have hfollows := Announces.seq (isPlain_chars name) (Announces.follows rfl describes_indexes_iff hq)
  constructor
  · rintro ⟨r', _, ⟨hedge, rfl⟩, hnamed⟩
    obtain ⟨piece, rest, hpiece, hahead, hsign⟩ := (hfollows _).mp ⟨r', hnamed⟩
    obtain rfl := describes_chars_iff.mp hpiece
    exact ⟨hedge, rest, hahead, hsign⟩
  · rintro ⟨hedge, rest, hahead, hsign⟩
    obtain ⟨r', hnamed⟩ := (hfollows r).mpr ⟨name, rest, describes_chars_iff.mpr rfl, hahead, hsign⟩
    exact ⟨r', r, ⟨hedge, rfl⟩, hnamed⟩

theorem follows_or_iff {sign' : List Char → Prop} :
    Follows members (fun text => sign text ∨ sign' text) text ↔
      Follows members sign text ∨ Follows members sign' text := by
  constructor
  · rintro ⟨accesses, gap, rest, htext, haccesses, hgap, hrest | hrest⟩
    · exact Or.inl ⟨accesses, gap, rest, htext, haccesses, hgap, hrest⟩
    · exact Or.inr ⟨accesses, gap, rest, htext, haccesses, hgap, hrest⟩
  · rintro (⟨accesses, gap, rest, htext, haccesses, hgap, hrest⟩ |
      ⟨accesses, gap, rest, htext, haccesses, hgap, hrest⟩)
    · exact ⟨accesses, gap, rest, htext, haccesses, hgap, Or.inl hrest⟩
    · exact ⟨accesses, gap, rest, htext, haccesses, hgap, Or.inr hrest⟩

/-! ## A write at the beginning of a body -/

theorem atWordEdge_start_of_isName (hname : Source.IsName name) :
    (Reading.start (name ++ rest) 0).atWordEdge = true :=
  (Reading.atWordEdge_iff_of_begins rfl hname.begins).mpr rfl

namespace Reentrancy

/-- Nothing is declared before the beginning of a text. -/
theorem declaresLocally_zero (body : List Char) (target : Option (List Char)) :
    Source.declaresLocally body 0 target = false := by
  have hopening : Source.inDeclaration body 0 = false := by
    rw [Bool.eq_false_iff, ne_eq, Source.inDeclaration_iff (Nat.zero_le _)]
    rintro ⟨before, keyword, gap, after, h⟩
    have hnil := h.stands
    rw [List.take_zero] at hnil
    have hgap : gap = [] := by simp_all
    exact h.isGap.1 hgap
  have hbefore : ∀ name, Source.declaredBefore body 0 name = false := by
    intro name
    rw [Bool.eq_false_iff, ne_eq, Source.declaredBefore_iff]
    rintro ⟨hne, _, k, _, r', hr'⟩
    obtain ⟨u, hahead⟩ := Source.exists_ahead_of_reaches_declarationOf hr'
    have hnil : [] = u ++ name ++ r'.ahead := by simpa [Reading.start] using hahead
    simp [hne] at hnil
  rw [Source.declaresLocally, hopening, Bool.false_or]
  cases target with
  | none => rfl
  | some name => exact hbefore name

theorem exists_change_zero_iff {body : List Char} (hbody : body ≠ []) :
    (∃ s ∈ stateChanges body, s.offset = 0) ↔
      ∃ p ∈ stateChangePatterns, ∃ r', p.Reaches (.start body 0) r' := by
  rw [exists_mem_stateChanges_iff]
  constructor
  · rintro ⟨p, hp, m, hm, hstart, _⟩
    obtain ⟨r', hr', _⟩ := exists_reaches_of_matchAt (matchAt_of_mem_findAll hm)
    exact ⟨p, hp, r', hstart ▸ hr'⟩
  · rintro ⟨p, hp, hreaches⟩
    have hproductive : p.isProductive = true := by
      simp only [stateChangePatterns, List.mem_cons, List.not_mem_nil, or_false] at hp
      rcases hp with rfl | rfl | rfl | rfl | rfl | rfl <;> rfl
    obtain ⟨m, hm⟩ := Option.isSome_iff_exists.mp ((isSome_matchAt_iff hproductive).mpr hreaches)
    have hstart := start_of_matchAt hm
    refine ⟨p, hp, m, mem_findAll_iff.mpr ?_, hstart, declaresLocally_zero body _⟩
    rw [hstart]
    refine ⟨hm, List.length_pos_iff.mpr hbody, ?_⟩
    rintro ⟨_, _, hbefore, _⟩
    exact Nat.not_lt_zero _ hbefore

theorem exists_reaches_assignable_of_name_iff (hname : Source.IsName name) (hword : Stops isWord rest)
    (hahead : r.ahead = name ++ rest) (hq : Announces q sign) (hsign : IsSign sign) :
    (∃ r', (assignable.seq (blanks.seq q)).Reaches r r') ↔
      r.atWordEdge = true ∧ Follows true sign rest := by
  rw [exists_reaches_assignable_iff hq]
  constructor
  · rintro ⟨hedge, name', rest', hname', hahead', hfollows⟩
    obtain ⟨_, rfl⟩ := append_inj_of_stops hname.all_isWord hname'.all_isWord hword
      (hfollows.stops_isWord hsign) (hahead.symm.trans hahead')
    exact ⟨hedge, hfollows⟩
  · rintro ⟨hedge, hfollows⟩
    exact ⟨hedge, name, rest, hname, hahead, hfollows⟩

theorem not_reaches_prefixStep (hname : Source.IsName name) (hahead : r.ahead = name ++ rest)
    {r' : Reading} : ¬ prefixStep.Reaches r r' := by
  rintro ⟨_, hstep, _⟩
  obtain ⟨op, hop, more, hstep⟩ := (announces_step _).mp ⟨_, hstep⟩
  obtain ⟨c, cs, rfl, hc, _⟩ := describes_identifier_iff.mp hname
  have hfirst := hahead.symm.trans hstep
  simp only [List.mem_cons, List.not_mem_nil, or_false] at hop
  rcases hop with rfl | rfl
  · rw [(List.cons.inj hfirst).1] at hc
    exact absurd hc (by decide)
  · rw [(List.cons.inj hfirst).1] at hc
    exact absurd hc (by decide)

/-- A name is no deletion if what stands behind it and its blanks does not begin a name. -/
theorem not_reaches_delete (hname : Source.IsName name) {gap tail : List Char} {c : Char}
    (hgap : ∀ d ∈ gap, isBlank d = true) (hblank : isBlank c = false) (hword : isWord c = false)
    (hahead : r.ahead = name ++ (gap ++ c :: tail)) {r' : Reading} :
    ¬ deletion.Reaches r r' := by
  rintro ⟨_, ⟨_, rfl⟩, r₁, hdelete, r₂, ⟨r₃, ⟨b, more, hmore, hb, rfl⟩, hblanks⟩, htarget⟩
  obtain ⟨gap', hgap', hblanks⟩ := exists_between_of_reaches_many hblanks
  obtain ⟨d, piece, hd, htarget⟩ := assignable_beginsWith htarget
  have hdeletion : name ++ (gap ++ c :: tail) =
      "delete".toList ++ (b :: gap' ++ d :: (piece ++ r'.ahead)) := by
    have hgone : more = gap' ++ r₂.ahead := hblanks.ahead
    rw [← hahead, (between_of_reaches_chars hdelete).ahead, hmore, hgone, htarget.ahead]
    rfl
  obtain ⟨_, hbehind⟩ := append_inj_of_stops hname.all_isWord (List.all_eq_true.mp (by decide))
    (stops_isWord_append hgap ⟨c, tail, rfl, hword⟩) ⟨b, _, rfl, isWord_eq_false_of_isBlank hb⟩
    hdeletion
  obtain ⟨_, htail⟩ := append_inj_of_stops hgap (List.forall_mem_cons.mpr ⟨hb, hgap'⟩)
    ⟨c, tail, rfl, hblank⟩ ⟨d, _, rfl, isBlank_eq_false_of_isIdentStart hd⟩ hbehind
  rw [(List.cons.inj htail).1, isWord_of_isIdentStart hd] at hword
  cases hword

/-- A body that begins with a name changes state there exactly if accesses and a sign follow. -/
theorem exists_change_zero_iff_follows (hname : Source.IsName name) (hblank : Stops isBlank rest)
    (hword : Stops isWord rest) :
    (∃ s ∈ stateChanges (name ++ rest), s.offset = 0) ↔ Follows true ChangeSign rest := by
  have hbody : name ++ rest ≠ [] := List.append_ne_nil_of_left_ne_nil hname.ne_nil rest
  have hassigned : ∀ {q : Pattern} {sign : List Char → Prop}, Announces q sign →
      (∀ {text}, sign text → ChangeSign text) →
      ((∃ r', (assignable.seq (blanks.seq q)).Reaches (.start (name ++ rest) 0) r') ↔
        Follows true sign rest) := fun hq hsign =>
    (exists_reaches_assignable_of_name_iff hname hword rfl hq fun _ h =>
      changeSign_isSign (hsign h)).trans (and_iff_right (atWordEdge_start_of_isName hname))
  have hchange : Follows true ChangeSign rest ↔ Follows true AssignSign rest ∨
      Follows true CompoundSign rest ∨ Follows true StepSign rest ∨ Follows true ElementSign rest := by
    unfold ChangeSign
    rw [follows_or_iff, follows_or_iff, follows_or_iff]
  rw [exists_change_zero_iff hbody, hchange]
  simp only [stateChangePatterns, List.exists_mem_cons_iff, List.not_mem_nil, false_and, exists_false,
    or_false]
  rw [← hassigned announces_assign Or.inl, ← hassigned announces_compound (Or.inr ∘ Or.inl),
    ← hassigned announces_step (Or.inr ∘ Or.inr ∘ Or.inl),
    ← hassigned announces_element (Or.inr ∘ Or.inr ∘ Or.inr)]
  constructor
  · rintro (h | h | h | ⟨_, h⟩ | ⟨_, h⟩ | h)
    · exact Or.inl h
    · exact Or.inr (Or.inl h)
    · exact Or.inr (Or.inr (Or.inl h))
    · exact absurd h (not_reaches_prefixStep hname rfl)
    · obtain ⟨c, tail, rfl, hc⟩ := hblank
      obtain ⟨_, _, heq, hc'⟩ := hword
      obtain ⟨rfl, rfl⟩ := List.cons.inj heq
      exact absurd h (@not_reaches_delete _ _ hname [] tail c (by simp) hc hc' rfl _)
    · exact Or.inr (Or.inr (Or.inr h))
  · rintro (h | h | h | h)
    · exact Or.inl h
    · exact Or.inr (Or.inl h)
    · exact Or.inr (Or.inr (Or.inl h))
    · exact Or.inr (Or.inr (Or.inr (Or.inr (Or.inr h))))

end Reentrancy

namespace CriticalState

/-- The ways to write a variable by an access and a sign, and those by a sign before its name. -/
theorem writes_iff {body : List Char} : writes body name = true ↔
    (∃ k ≤ body.length, (Reading.start body k).atWordEdge = true ∧
      ∃ rest, body.drop k = name ++ rest ∧ Follows false VariableSign rest) ∨
    (chain [litOf ["++", "--"], blanks, chars name, wordEdge]).occursIn body = true ∨
    (chain [wordEdge, lit "delete", blanks1, chars name, wordEdge]).occursIn body = true := by
  have hproductive : ∀ {q : Pattern}, q.isProductive = true →
      (chain [wordEdge, chars name, indexes, blanks, q]).isProductive = true := by
    intro q hq
    change (_ && ((chars name).isProductive && (_ && (_ && q.isProductive)))) = true
    rw [isProductive_chars, hq]
    rfl
  have hoccurs : ∀ {q : Pattern} {sign : List Char → Prop}, q.isProductive = true →
      Announces q sign →
      ((chain [wordEdge, chars name, indexes, blanks, q]).occursIn body = true ↔
        ∃ k ≤ body.length, (Reading.start body k).atWordEdge = true ∧
          ∃ rest, body.drop k = name ++ rest ∧ Follows false sign rest) := by
    intro q sign hq hsign
    rw [occursIn_iff (hproductive hq)]
    simp only [exists_reaches_named_iff hsign, Reading.start]
  have hassign := hoccurs rfl announces_shortAssign
  have hstep := hoccurs rfl announces_step
  have hpatterns : writes body name = true ↔
      (chain [wordEdge, chars name, indexes, assignmentSign]).occursIn body = true ∨
      (chain [wordEdge, chars name, indexes, blanks, litOf ["++", "--"]]).occursIn body = true ∨
      (chain [litOf ["++", "--"], blanks, chars name, wordEdge]).occursIn body = true ∨
      (chain [wordEdge, lit "delete", blanks1, chars name, wordEdge]).occursIn body = true := by
    simp [writes, anyOccursIn, writePatterns]
  have hvariable : ∀ rest, Follows false VariableSign rest ↔
      Follows false ShortAssignSign rest ∨ Follows false StepSign rest := fun _ => follows_or_iff
  rw [hpatterns, ← or_assoc]
  refine or_congr_left ((or_congr hassign hstep).trans ?_)
  simp only [hvariable]
  constructor
  · rintro (⟨k, hk, hedge, rest, hahead, h⟩ | ⟨k, hk, hedge, rest, hahead, h⟩)
    · exact ⟨k, hk, hedge, rest, hahead, Or.inl h⟩
    · exact ⟨k, hk, hedge, rest, hahead, Or.inr h⟩
  · rintro ⟨k, hk, hedge, rest, hahead, h | h⟩
    · exact Or.inl ⟨k, hk, hedge, rest, hahead, h⟩
    · exact Or.inr ⟨k, hk, hedge, rest, hahead, h⟩

def StandsLater (name body : List Char) : Prop := ∃ k, 0 < k ∧ name <+: body.drop k

theorem standsLater_of_reaches {body : List Char} {k : Nat} {r' : Reading} (hp : p.consumes = true)
    (hr : r.ahead = body.drop k) (h : (chain [p, q, chars name, wordEdge]).Reaches r r') :
    StandsLater name body := by
  obtain ⟨r₁, hfirst, r₂, hsecond, r₃, hname, _⟩ := h
  have hlt := length_lt_of_reaches hp hfirst
  obtain ⟨u, hu⟩ := exists_between_of_reaches hfirst
  obtain ⟨v, hv⟩ := exists_between_of_reaches hsecond
  have hahead := ((hu.trans hv).trans (between_of_reaches_chars hname)).ahead
  rw [hr, List.append_assoc] at hahead
  refine ⟨k + (u ++ v).length, ?_, r₃.ahead, ?_⟩
  · have hlength := congrArg List.length hu.ahead
    rw [List.length_append] at hlength ⊢
    omega
  · rw [← List.drop_drop, hahead, List.drop_left]

theorem standsLater_of_step {body : List Char}
    (h : (chain [litOf ["++", "--"], blanks, chars name, wordEdge]).occursIn body = true) :
    StandsLater name body := by
  obtain ⟨k, _, hmatch⟩ := occursIn_iff_matchAt.mp h
  obtain ⟨m, hm⟩ := Option.isSome_iff_exists.mp hmatch
  obtain ⟨r', hr', _⟩ := exists_reaches_of_matchAt hm
  exact standsLater_of_reaches rfl rfl hr'

theorem standsLater_of_delete {body : List Char}
    (h : (chain [wordEdge, lit "delete", blanks1, chars name, wordEdge]).occursIn body = true) :
    StandsLater name body := by
  obtain ⟨k, _, hmatch⟩ := occursIn_iff_matchAt.mp h
  obtain ⟨m, hm⟩ := Option.isSome_iff_exists.mp hmatch
  obtain ⟨r', ⟨_, ⟨_, rfl⟩, hr'⟩, _⟩ := exists_reaches_of_matchAt hm
  exact standsLater_of_reaches rfl rfl hr'

/-- The name is written at another offset, or by a step or a deletion that stands before it. -/
def WrittenOtherwise (body name : List Char) (offset : Nat) : Prop :=
  (∃ k ≤ body.length, k ≠ offset ∧ (Reading.start body k).atWordEdge = true ∧
    ∃ rest, body.drop k = name ++ rest ∧ Follows false VariableSign rest) ∨
  (chain [litOf ["++", "--"], blanks, chars name, wordEdge]).occursIn body = true ∨
  (chain [wordEdge, lit "delete", blanks1, chars name, wordEdge]).occursIn body = true

theorem writes_iff_or_writtenOtherwise {body : List Char} {offset : Nat} (hlt : offset ≤ body.length)
    (hedge : (Reading.start body offset).atWordEdge = true) (hahead : body.drop offset = name ++ rest) :
    writes body name = true ↔ Follows false VariableSign rest ∨ WrittenOtherwise body name offset := by
  rw [writes_iff]
  constructor
  · rintro (⟨k, hk, hedge', rest', hahead', hfollows⟩ | hbefore)
    · by_cases heq : k = offset
      · subst heq
        rw [List.append_cancel_left (hahead.symm.trans hahead')]
        exact Or.inl hfollows
      · exact Or.inr (Or.inl ⟨k, hk, heq, hedge', rest', hahead', hfollows⟩)
    · exact Or.inr (Or.inr hbefore)
  · rintro (hfollows | ⟨k, hk, _, hnamed⟩ | hbefore)
    · exact Or.inl ⟨offset, hlt, hedge, rest, hahead, hfollows⟩
    · exact Or.inl ⟨k, hk, hnamed⟩
    · exact Or.inr hbefore

/-- A name that begins the body and stands nowhere else is written there or nowhere. -/
theorem not_writtenOtherwise {body : List Char} (honce : ¬ StandsLater name body) :
    ¬ WrittenOtherwise body name 0 := by
  rintro (⟨k, _, hk, _, rest, hahead, _⟩ | hstep | hdelete)
  · exact honce ⟨k, Nat.pos_of_ne_zero hk, rest, hahead.symm⟩
  · exact honce (standsLater_of_step hstep)
  · exact honce (standsLater_of_delete hdelete)

/-- A body that begins with a name writes it exactly if accesses and a sign follow, or in another
way. -/
theorem writes_iff_follows (hname : Source.IsName name) :
    writes (name ++ rest) name = true ↔
      Follows false VariableSign rest ∨ WrittenOtherwise (name ++ rest) name 0 :=
  writes_iff_or_writtenOtherwise (Nat.zero_le _) (atWordEdge_start_of_isName hname) rfl

end CriticalState

/-! ## Indexes with and without brackets -/

open Reentrancy CriticalState

def indexedWrite (name index value : List Char) : List Char :=
  name ++ '[' :: (index ++ "] = ".toList ++ value ++ [';'])

theorem exists_change_indexed_iff (hname : Source.IsName name) {inner tail : List Char}
    (hinner : ']' ∉ inner) :
    (∃ s ∈ stateChanges (name ++ '[' :: (inner ++ ']' :: tail)), s.offset = 0) ↔
      Follows true ChangeSign tail :=
  (exists_change_zero_iff_follows hname ⟨'[', _, rfl, by decide⟩ ⟨'[', _, rfl, by decide⟩).trans
    (follows_index_iff changeSign_isSign hinner)

theorem exists_first_close (hbalanced : isBalanced text = true) (hopen : '[' ∈ text) :
    ∃ inner rest, text = inner ++ ']' :: rest ∧ ']' ∉ inner := by
  have hclose : ']' ∈ text := by
    by_contra hnone
    exact (notMem_open_of_notMem_close hbalanced hnone).2 hopen
  obtain ⟨inner, rest, htext, hinner⟩ := List.eq_append_cons_of_mem hclose
  exact ⟨inner, rest, htext, hinner⟩

/-- An assignment to an element is recognised if the index holds no bracket. If it holds one, the
assignment is recognised exactly if the text behind the first closing bracket goes on like a write, and
so never where another bracket is closed next, unless the name is written in another way too. There is
no other way if the name stands nowhere else. -/
theorem indexed_write_recognised_iff {index value : List Char} (hname : Source.IsName name)
    (hbalanced : isBalanced index = true) :
    let body := indexedWrite name index value
    ('[' ∉ index → (∃ s ∈ stateChanges body, s.offset = 0) ∧ writes body name = true) ∧
    ('[' ∈ index → ∃ inner rest, index = inner ++ ']' :: rest ∧ ']' ∉ inner ∧
      let tail := rest ++ "] = ".toList ++ value ++ [';']
      ((∃ s ∈ stateChanges body, s.offset = 0) ↔ Follows true ChangeSign tail) ∧
      (writes body name = true ↔
        Follows false VariableSign tail ∨ WrittenOtherwise body name 0) ∧
      (∀ gap more, (∀ c ∈ gap, isBlank c = true) → tail = gap ++ ']' :: more →
        (¬ ∃ s ∈ stateChanges body, s.offset = 0) ∧
        (writes body name = true ↔ WrittenOtherwise body name 0)) ∧
      (¬ StandsLater name body → ¬ WrittenOtherwise body name 0)) := by
  intro body
  constructor
  · intro hopen
    have hinner := notMem_close_of_notMem_open hbalanced hopen
    have hassign : AssignSign ('=' :: ' ' :: (value ++ [';'])) :=
      ⟨_, rfl, by simp, by simp⟩
    have hbody : body = name ++ '[' :: (index ++ ']' :: (' ' :: '=' :: ' ' :: (value ++ [';']))) := by
      simp [body, indexedWrite]
    have hgap : ∀ c ∈ [' '], isBlank c = true := List.all_eq_true.mp rfl
    rw [hbody]
    constructor
    · rw [exists_change_indexed_iff hname hinner]
      exact ⟨[], [' '], _, rfl, .none, hgap, Or.inl hassign⟩
    · rw [writes_iff_follows hname, follows_index_iff variableSign_isSign hinner]
      exact Or.inl ⟨[], [' '], _, rfl, .none, hgap, Or.inl ⟨[], List.mem_cons_self, hassign⟩⟩
  · intro hopen
    obtain ⟨inner, rest, hindex, hinner⟩ := exists_first_close hbalanced hopen
    refine ⟨inner, rest, hindex, hinner, ?_⟩
    intro tail
    have hbody : body = name ++ '[' :: (inner ++ ']' :: tail) := by
      simp [body, tail, indexedWrite, hindex]
    rw [hbody]
    have hchange : (∃ s ∈ stateChanges (name ++ '[' :: (inner ++ ']' :: tail)), s.offset = 0) ↔
        Follows true ChangeSign tail := exists_change_indexed_iff hname hinner
    have hwrites : writes (name ++ '[' :: (inner ++ ']' :: tail)) name = true ↔
        Follows false VariableSign tail ∨
          WrittenOtherwise (name ++ '[' :: (inner ++ ']' :: tail)) name 0 :=
      (writes_iff_follows hname).trans (or_congr_left (follows_index_iff variableSign_isSign hinner))
    refine ⟨hchange, hwrites, fun gap more hgap htail => ⟨?_, ?_⟩, not_writtenOtherwise⟩
    · rw [hchange, htail]
      exact not_follows_close changeSign_isSign hgap
    · apply hwrites.trans
      rw [htail]
      exact or_iff_right (not_follows_close variableSign_isSign hgap)

/-- An element of an element as index: no change of state is seen in the body, and no write. -/
theorem indexed_write_recognised_iff_nested :
    let body := indexedWrite "x".toList "a[b]".toList "v".toList
    body = "x[a[b]] = v;".toList ∧ isBalanced "a[b]".toList = true ∧ '[' ∈ "a[b]".toList ∧
      (¬ ∃ s ∈ stateChanges body, s.offset = 0) ∧ stateChanges body = [] ∧
      writes body "x".toList = false := by
  intro body
  have hname : Source.IsName "x".toList :=
    describes_identifier_iff.mpr ⟨'x', [], by decide, by decide, by simp⟩
  have honce : ¬ StandsLater "x".toList body := by
    rintro ⟨k, hk, hstands⟩
    have hmem : 'x' ∈ body.drop k := hstands.subset (by decide)
    have hlater : 'x' ∉ body.drop 1 := by decide
    rw [← Nat.add_sub_of_le hk, ← List.drop_drop] at hmem
    exact hlater (List.mem_of_mem_drop hmem)
  have hchanges : (stateChanges body).length = 0 := by decide +kernel
  obtain ⟨_, hnested⟩ :=
    @indexed_write_recognised_iff _ "a[b]".toList "v".toList hname (by decide)
  obtain ⟨inner, rest, hindex, hinner, _, _, hclose, honly⟩ := hnested (by decide)
  have hrest : rest = [] := by
    rcases inner with _ | ⟨_, _ | ⟨_, _ | ⟨_, _ | ⟨_, inner⟩⟩⟩⟩ <;> simp_all
  subst hrest
  obtain ⟨hnone, hwrites⟩ := hclose [] " = v;".toList (by simp) (by decide)
  have hunwritten : ¬ writes body "x".toList = true := mt hwrites.mp (honly honce)
  exact ⟨by decide, by decide, by decide, hnone, List.length_eq_zero_iff.mp hchanges,
    Bool.eq_false_iff.mpr hunwritten⟩

end SolidityAudit
