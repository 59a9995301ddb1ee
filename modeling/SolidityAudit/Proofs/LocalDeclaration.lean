import Mathlib.Data.List.DropRight
import SolidityAudit.Proofs.Reentrancy
import SolidityAudit.Proofs.Search

/-!
# Writes presumed to be local

A write is presumed to be local if its name is declared before it, or if a declaration opens in its
statement, whatever is declared there. So the target of such a write need not be declared: in
`uint256 t = (total = 0);` the declaration of `t` hides the write of `total`. The statements below say
which declarations hide a write to a name that is not declared itself.
-/

namespace SolidityAudit.Source
open Pattern

variable {text : List Char} {offset : Nat} {name : List Char}

/-! ## The statement in progress -/

theorem suffix_lastStatement_iff {piece : List Char} : piece <:+ Text.lastStatement text ↔
    piece <:+ text ∧ ∀ c ∈ piece, Text.endsStatement c = false := by
  have hlast : Text.lastStatement text = text.rtakeWhile fun c => !Text.endsStatement c := rfl
  constructor
  · intro h
    rw [hlast] at h
    refine ⟨h.trans (List.rtakeWhile_suffix _ _), fun c hc => ?_⟩
    simpa using List.mem_rtakeWhile_imp (h.subset hc)
  · rintro ⟨⟨before, rfl⟩, hclean⟩
    rw [Text.lastStatement, List.reverse_append, List.takeWhile_append_of_pos (by simpa using hclean),
      List.reverse_append, List.reverse_reverse]
    exact List.suffix_append _ _

theorem getLast?_append_isWord_eq_false {u v : List Char} (hu : u.getLast?.any Text.isWord = false)
    (hv : v.getLast?.any Text.isWord = false) : (u ++ v).getLast?.any Text.isWord = false := by
  rw [List.getLast?_append]
  cases hlast : v.getLast? with
  | none => exact hu
  | some c => rwa [hlast] at hv

theorem getLast?_isWord_eq_false_of_append {u v : List Char}
    (h : (u ++ v).getLast?.any Text.isWord = false) : v.getLast?.any Text.isWord = false := by
  rw [List.getLast?_append] at h
  cases hlast : v.getLast? with
  | none => rfl
  | some c => rwa [hlast] at h

/-- Before the last statement of a text stands a separator or nothing, in any case no word. -/
theorem exists_eq_append_lastStatement (text : List Char) : ∃ front,
    text = front ++ Text.lastStatement text ∧ front.getLast?.any Text.isWord = false := by
  refine ⟨text.rdropWhile fun c => !Text.endsStatement c, List.rdropWhile_append_rtakeWhile.symm, ?_⟩
  by_cases hfront : (text.rdropWhile fun c => !Text.endsStatement c) = []
  · rw [hfront]
    rfl
  · rw [List.getLast?_eq_some_getLast hfront]
    apply Text.isWord_eq_false_of_endsStatement
    simpa using List.rdropWhile_last_not _ text hfront

/-! ## Openings of declarations -/

def TypeName (keyword : List Char) : Prop :=
  (chain [elementaryType, arrayBrackets]).Describes keyword

def Keyword (keyword : List Char) : Prop :=
  dataLocation.Describes keyword ∨ TypeName keyword

theorem Keyword.begins {keyword : List Char} (h : Keyword keyword) :
    keyword.head?.any Text.isWord = true := by
  rcases h with h | ⟨u, v, rfl, hu, _⟩
  · obtain ⟨s, hs, rfl⟩ := describes_litOf_iff.mp h
    simp only [List.mem_cons, List.not_mem_nil, or_false] at hs
    rcases hs with rfl | rfl | rfl <;> decide
  · have hlit : ∀ {s : String} {u : List Char}, (lit s).Describes u → u = s.toList :=
      describes_chars_iff.mp
    rcases hu with ⟨a, b, rfl, ha, b, d, rfl, hb, _⟩ | hu | hu | ⟨b, d, rfl, hb, _⟩ | hu | hu
    · obtain rfl := hlit hb
      rcases ha with ha | rfl
      · obtain rfl := hlit ha
        rfl
      · rfl
    · obtain rfl := hlit hu
      rfl
    · obtain rfl := hlit hu
      rfl
    · obtain rfl := hlit hb
      rfl
    · obtain rfl := hlit hu
      rfl
    · obtain rfl := hlit hu
      rfl

def IsGap (gap : List Char) : Prop :=
  gap ≠ [] ∧ ∀ c ∈ gap, Text.isBlank c = true

def EndsOrNames (after : List Char) : Prop :=
  after = [] ∨ after.head?.any Text.isIdentStart = true

/-- The text begins with a keyword and a gap, and then it ends or goes on with a name. -/
def OpensDeclaration (ahead : List Char) : Prop :=
  ∃ keyword gap after, ahead = keyword ++ gap ++ after ∧ Keyword keyword ∧ IsGap gap ∧
    EndsOrNames after

theorem OpensDeclaration.begins {ahead : List Char} (h : OpensDeclaration ahead) :
    ahead.head?.any Text.isWord = true := by
  obtain ⟨keyword, gap, after, rfl, hkeyword, _⟩ := h
  have hbegins := hkeyword.begins
  cases keyword with
  | nil => cases hbegins
  | cons c cs => exact hbegins

theorem exists_reaches_declarationOpening_iff {r : Reading} :
    (∃ r', declarationOpening.Reaches r r') ↔
      r.previous.any Text.isWord = false ∧ OpensDeclaration r.ahead := by
  have hedge : ∀ {keyword rest}, Keyword keyword → r.ahead = keyword ++ rest →
      (r.atWordEdge = true ↔ r.previous.any Text.isWord = false) := by
    intro keyword rest hkeyword hahead
    exact Reading.atWordEdge_iff_of_begins hahead hkeyword.begins
  constructor
  · rintro ⟨r', _, ⟨hat, rfl⟩, r₁, hfirst, r₂, hsecond, hend⟩
    obtain ⟨keyword, hkeyword, ⟨rest, hahead⟩, rfl⟩ := (reaches_iff_describes rfl).mp hfirst
    obtain ⟨gap, hgap, ⟨after, hrest⟩, rfl⟩ := (reaches_iff_describes rfl).mp hsecond
    rw [Reading.advance_ahead_of_eq hahead.symm] at hrest
    have hafter := Reading.advance_ahead_of_eq
      ((Reading.advance_ahead_of_eq hahead.symm).trans hrest.symm)
    refine ⟨(hedge hkeyword hahead.symm).mp hat, ?_⟩
    have hblank := describes_some1_one_iff.mp hgap
    rcases hend with ⟨c, rest', hc, hstart, _⟩ | ⟨hatEnd, _⟩
    · rw [hafter] at hc
      refine ⟨keyword, gap, after, ?_, hkeyword, hblank, Or.inr ?_⟩
      · rw [← hahead, ← hrest, List.append_assoc]
      · simpa [hc] using hstart
    · rw [Reading.atTextEnd, hafter] at hatEnd
      split at hatEnd
      · exact ⟨keyword, gap, [], by simp [← hahead, ← hrest], hkeyword, hblank, Or.inl rfl⟩
      · next c =>
          obtain rfl := beq_iff_eq.mp hatEnd
          refine ⟨keyword, gap ++ ['\n'], [], by simp [← hahead, ← hrest], hkeyword,
            ⟨by simp, ?_⟩, Or.inl rfl⟩
          intro c hc
          rcases List.mem_append.mp hc with hc | hc
          · exact hblank.2 c hc
          · rw [List.mem_singleton.mp hc]
            decide
      · cases hatEnd
  · rintro ⟨hprevious, keyword, gap, after, hahead, hkeyword, hgap, hafter⟩
    rw [List.append_assoc] at hahead
    have hrest := Reading.advance_ahead_of_eq hahead
    have hend : ((r.advance keyword).advance gap).ahead = after :=
      Reading.advance_ahead_of_eq hrest
    have hopen : ∃ r', (oneOf [one Text.isIdentStart, textEnd]).Reaches
        ((r.advance keyword).advance gap) r' := by
      rcases hafter with rfl | hafter
      · exact ⟨_, Or.inr ⟨by rw [Reading.atTextEnd, hend], rfl⟩⟩
      · cases after with
        | nil => cases hafter
        | cons c rest => exact ⟨_, Or.inl ⟨c, rest, hend, hafter, rfl⟩⟩
    obtain ⟨r', hr'⟩ := hopen
    refine ⟨r', r, ⟨(hedge hkeyword hahead).mpr hprevious, rfl⟩, r.advance keyword, ?_,
      (r.advance keyword).advance gap, ?_, hr'⟩
    · exact (reaches_iff_describes rfl).mpr ⟨keyword, hkeyword, ⟨_, hahead.symm⟩, rfl⟩
    · exact (reaches_iff_describes rfl).mpr
        ⟨gap, describes_some1_one_iff.mpr hgap, ⟨_, hrest.symm⟩, rfl⟩

theorem occursIn_declarationOpening_iff : declarationOpening.occursIn text = true ↔
    ∃ before ahead, text = before ++ ahead ∧ before.getLast?.any Text.isWord = false ∧
      OpensDeclaration ahead := by
  rw [occursIn_iff rfl]
  simp only [exists_reaches_declarationOpening_iff, Reading.start]
  constructor
  · rintro ⟨k, _, hedge, hopens⟩
    exact ⟨text.take k, text.drop k, (List.take_append_drop k text).symm, hedge, hopens⟩
  · rintro ⟨before, ahead, rfl, hedge, hopens⟩
    refine ⟨before.length, by simp, ?_⟩
    rw [List.take_left, List.drop_left]
    exact ⟨hedge, hopens⟩

/-- A declaration opens in the last statement of a text exactly if it opens in the text and no
separator stands behind it. -/
theorem occursIn_lastStatement_iff : declarationOpening.occursIn (Text.lastStatement text) = true ↔
    ∃ before ahead, text = before ++ ahead ∧ before.getLast?.any Text.isWord = false ∧
      OpensDeclaration ahead ∧ ∀ c ∈ ahead, Text.endsStatement c = false := by
  obtain ⟨front, hfront, hlast⟩ := exists_eq_append_lastStatement text
  rw [occursIn_declarationOpening_iff]
  constructor
  · rintro ⟨before, ahead, hsplit, hedge, hopens⟩
    refine ⟨front ++ before, ahead, ?_, getLast?_append_isWord_eq_false hlast hedge, hopens,
      (suffix_lastStatement_iff.mp ⟨before, hsplit.symm⟩).2⟩
    rw [List.append_assoc, ← hsplit, ← hfront]
  · rintro ⟨before, ahead, hsplit, hedge, hopens, hclean⟩
    obtain ⟨inner, hinner⟩ := suffix_lastStatement_iff.mpr ⟨⟨before, hsplit.symm⟩, hclean⟩
    have hbefore : before = front ++ inner := by
      rw [← hinner, ← List.append_assoc, hsplit] at hfront
      exact List.append_cancel_right hfront
    rw [hbefore] at hedge
    exact ⟨inner, ahead, hinner.symm, getLast?_isWord_eq_false_of_append hedge, hopens⟩

/-- Before the offset stands a keyword and a gap, and then nothing or a name with what follows it. All
of this is part of one statement and no longer than the lookback. The keyword is a word of its own, or
the lookback begins with it. -/
structure Opening (text : List Char) (offset : Nat) (before keyword gap after : List Char) :
    Prop where
  stands : text.take offset = before ++ (keyword ++ gap ++ after)
  isKeyword : Keyword keyword
  isGap : IsGap gap
  goesOn : EndsOrNames after
  near : (keyword ++ gap ++ after).length ≤ lookback
  statement : ∀ c ∈ keyword ++ gap ++ after, Text.endsStatement c = false
  edge : before.getLast?.any Text.isWord = false ∨ (keyword ++ gap ++ after).length = lookback

theorem inDeclaration_iff (hoffset : offset ≤ text.length) : inDeclaration text offset = true ↔
    ∃ before keyword gap after, Opening text offset before keyword gap after := by
  have hsplit := List.take_append_drop (offset - lookback) (text.take offset)
  have hlength : ((text.take offset).drop (offset - lookback)).length =
      offset - (offset - lookback) := by
    rw [List.length_drop, List.length_take, Nat.min_eq_left hoffset]
  rw [inDeclaration, occursIn_lastStatement_iff]
  constructor
  · rintro ⟨inner, _, hwindow, hedge, ⟨keyword, gap, after, rfl, hkeyword, hgap, hafter⟩, hclean⟩
    rw [hwindow, List.length_append] at hlength
    rw [hwindow, ← List.append_assoc] at hsplit
    refine ⟨_, keyword, gap, after, hsplit.symm, hkeyword, hgap, hafter, by omega, hclean, ?_⟩
    by_cases hinner : inner = []
    · rw [hinner, List.length_nil] at hlength
      by_cases hnear : offset ≤ lookback
      · rw [hinner, Nat.sub_eq_zero_of_le hnear]
        exact Or.inl rfl
      · exact Or.inr (by omega)
    · rw [List.getLast?_append_of_ne_nil _ hinner]
      exact Or.inl hedge
  · rintro ⟨before, keyword, gap, after, h⟩
    have hsuffix : keyword ++ gap ++ after <:+ text.take offset := ⟨before, h.stands.symm⟩
    have hshort := hsuffix.length_le
    have hnear := h.near
    rw [List.length_take, Nat.min_eq_left hoffset] at hshort
    obtain ⟨inner, hinner⟩ := List.suffix_of_suffix_length_le hsuffix
      (List.drop_suffix (offset - lookback) (text.take offset)) (by omega)
    refine ⟨inner, _, hinner.symm, ?_, ⟨keyword, gap, after, rfl, h.isKeyword, h.isGap, h.goesOn⟩,
      h.statement⟩
    rcases h.edge with hedge | hfull
    · rw [← hinner, ← List.append_assoc] at hsplit
      rw [← List.append_cancel_right (hsplit.trans h.stands)] at hedge
      exact getLast?_isWord_eq_false_of_append hedge
    · rw [← hinner, List.length_append] at hlength
      rw [List.length_eq_zero_iff.mp (by omega : inner.length = 0)]
      rfl

/-! ## Declarations of a name -/

def IsName (name : List Char) : Prop := identifier.Describes name

theorem IsName.ne_nil (h : IsName name) : name ≠ [] := by
  obtain ⟨c, cs, rfl, _⟩ := describes_identifier_iff.mp h
  exact List.cons_ne_nil c cs

theorem IsName.begins (h : IsName name) : name.head?.any Text.isWord = true := by
  obtain ⟨c, cs, rfl, hc, _⟩ := describes_identifier_iff.mp h
  exact Text.isWord_of_isIdentStart hc

theorem IsName.all_isWord (h : IsName name) : ∀ c ∈ name, Text.isWord c = true := by
  obtain ⟨c, cs, rfl, hc, hcs⟩ := describes_identifier_iff.mp h
  exact List.forall_mem_cons.mpr ⟨Text.isWord_of_isIdentStart hc, hcs⟩

theorem IsName.getLast?_isWord (h : IsName name) : name.getLast?.any Text.isWord = true := by
  rw [List.getLast?_eq_some_getLast h.ne_nil]
  exact h.all_isWord _ (List.getLast_mem h.ne_nil)

theorem IsName.all_isAnyDigit (h : IsName name) : name.all Text.isAnyDigit = false := by
  obtain ⟨c, cs, rfl, hc, _⟩ := describes_identifier_iff.mp h
  rw [List.all_cons, Text.isAnyDigit_eq_false_of_isIdentStart hc, Bool.false_and]

theorem declaredBefore_iff : declaredBefore text offset name = true ↔
    name ≠ [] ∧ name.all Text.isAnyDigit = false ∧ ∃ k ≤ (text.take offset).length,
      ∃ r', (declarationOf name).Reaches (.start (text.take offset) k) r' := by
  have hproductive : (declarationOf name).isProductive = true := by
    change (_ && (_ && (_ && (_ && ((chars name).isProductive && _))))) = true
    rw [isProductive_chars]
    rfl
  rw [declaredBefore, Bool.and_eq_true, Bool.and_eq_true, occursIn_iff hproductive, and_assoc]
  simp only [Bool.not_eq_true', List.isEmpty_eq_false_iff, ne_eq]

theorem exists_ahead_of_reaches_declarationOf {r r' : Reading}
    (h : (declarationOf name).Reaches r r') : ∃ u, r.ahead = u ++ name ++ r'.ahead := by
  obtain ⟨_, ⟨_, rfl⟩, r₁, hkind, r₂, hpayable, r₃, hblanks, r₄, hname, _, rfl⟩ := h
  obtain ⟨kind, hkind⟩ := exists_between_of_reaches hkind
  obtain ⟨payable, hpayable⟩ := exists_between_of_reaches hpayable
  obtain ⟨blanks, hblanks⟩ := exists_between_of_reaches hblanks
  exact ⟨_, (((hkind.trans hpayable).trans hblanks).trans (between_of_reaches_chars hname)).ahead⟩

/-- A declaration that ends with the text ends with a word, since there is an edge behind the name. -/
theorem getLast?_isWord_of_reaches_declarationOf {r r' : Reading} (hne : name ≠ [])
    (h : (declarationOf name).Reaches r r') (hend : r'.ahead = []) :
    name.getLast?.any Text.isWord = true := by
  obtain ⟨_, ⟨_, rfl⟩, _, _, _, _, r₃, _, _, hname, hedge, rfl⟩ := h
  obtain ⟨_, hpiece, _, rfl⟩ := (reaches_iff_describes (isPlain_chars name)).mp hname
  obtain rfl := describes_chars_iff.mp hpiece
  rw [Reading.atWordEdge, hend] at hedge
  rw [List.getLast?_eq_some_getLast hne]
  simpa [Reading.advance, List.getLast?_eq_some_getLast hne] using hedge

/-- An offset falls inside a word: a word stands before it and goes on behind it. -/
def InsideWord (text : List Char) (offset : Nat) : Prop :=
  (text.take offset).getLast?.any Text.isWord = true ∧
    (text.drop offset).head?.any Text.isWord = true

/-- A name that is declared before an offset is declared before every later one, unless the offset
falls inside a word. -/
theorem declaredBefore_of_le {offset' : Nat} (hle : offset ≤ offset')
    (hinside : ¬ InsideWord text offset) (h : declaredBefore text offset name = true) :
    declaredBefore text offset' name = true := by
  obtain ⟨hne, hdigits, k, hk, r', hreaches⟩ := declaredBefore_iff.mp h
  obtain ⟨n, rfl⟩ := Nat.exists_eq_add_of_le hle
  have hmore : r'.ahead ≠ [] ∨ ((text.drop offset).take n).head?.any Text.isWord = false := by
    by_cases hend : r'.ahead = []
    · obtain ⟨u, hahead⟩ := exists_ahead_of_reaches_declarationOf hreaches
      have hlast : (text.take offset).getLast? = name.getLast? := by
        have hdrop : (text.take offset).drop k = u ++ name := by
          rw [hend, List.append_nil] at hahead
          exact hahead
        rw [← List.take_append_drop k (text.take offset), hdrop, ← List.append_assoc,
          List.getLast?_append_of_ne_nil _ hne]
      have hword := getLast?_isWord_of_reaches_declarationOf hne hreaches hend
      rw [← hlast] at hword
      have hfree : (text.drop offset).head?.any Text.isWord = false :=
        Bool.eq_false_iff.mpr fun hgoes => hinside ⟨hword, hgoes⟩
      right
      cases n with
      | zero => simp
      | succ n => rwa [List.head?_take, if_neg (Nat.succ_ne_zero n)]
    · exact Or.inl hend
  have hopen : (declarationOf name).isOpenEnded = true := by
    change (_ && (_ && (_ && (_ && ((chars name).isOpenEnded && _))))) = true
    rw [isOpenEnded_chars]
    rfl
  have hstart : Reading.start (text.take (offset + n)) k =
      (Reading.start (text.take offset) k).extend ((text.drop offset).take n) := by
    simp only [Reading.start, Reading.extend, List.take_add]
    rw [List.take_append_of_le_length hk, List.drop_append_of_le_length hk]
  refine declaredBefore_iff.mpr ⟨hne, hdigits, k, ?_, _, hstart ▸ reaches_extend hopen hreaches hmore⟩
  rw [List.take_add, List.length_append]
  omega

example : declaredBefore "uint256 xs;".toList 9 "x".toList = true ∧
    declaredBefore "uint256 xs;".toList 10 "x".toList = false := by decide +kernel

/-- A name is declared by a type that stands before it as a word of its own. -/
theorem declaredBefore_of_opening {before keyword gap : List Char}
    (h : Opening text offset before keyword gap []) (htype : TypeName keyword)
    (hbefore : before.getLast?.any Text.isWord = false) (hname : IsName name)
    (hstands : name <+: text.drop offset) :
    declaredBefore text (offset + name.length) name = true := by
  obtain ⟨rest, hrest⟩ := hstands
  have htake : text.take (offset + name.length) = before ++ (keyword ++ (gap ++ name)) := by
    rw [List.take_add, h.stands, ← hrest, List.take_left]
    simp
  have hstart : Reading.start (text.take (offset + name.length)) before.length =
      ⟨before.length, before.getLast?, keyword ++ (gap ++ name), []⟩ := by
    rw [Reading.start, htake, List.take_left, List.drop_left]
  rw [declaredBefore_iff]
  refine ⟨hname.ne_nil, hname.all_isAnyDigit, before.length, ?_, ?_⟩
  · rw [htake, List.length_append]
    omega
  rw [hstart]
  generalize hr : Reading.mk before.length before.getLast? (keyword ++ (gap ++ name)) [] = r
  have hahead : r.ahead = keyword ++ (gap ++ name) := by rw [← hr]
  have hahead₁ := Reading.advance_ahead_of_eq hahead
  have hahead₂ := Reading.advance_ahead_of_eq hahead₁
  have hahead₃ : (((r.advance keyword).advance gap).advance name).ahead = [] :=
    Reading.advance_ahead_of_eq (by rw [hahead₂, List.append_nil])
  refine ⟨_, r, ⟨?_, rfl⟩, r.advance keyword, Or.inl ?_, r.advance keyword, Or.inr rfl,
    (r.advance keyword).advance gap, ?_, ((r.advance keyword).advance gap).advance name, ?_, ?_, rfl⟩
  · rw [Reading.atWordEdge_iff_of_begins hahead h.isKeyword.begins, ← hr]
    exact hbefore
  · obtain ⟨u, v, rfl, hu, hv⟩ := htype
    exact (reaches_iff_describes rfl).mpr
      ⟨u ++ v, ⟨u, v, rfl, hu, v, [], by simp, hv, Or.inr rfl⟩, ⟨_, hahead.symm⟩, rfl⟩
  · exact (reaches_iff_describes rfl).mpr
      ⟨gap, describes_some1_one_iff.mpr h.isGap, ⟨_, hahead₁.symm⟩, rfl⟩
  · exact (reaches_iff_describes (isPlain_chars name)).mpr
      ⟨name, describes_chars_iff.mpr rfl, ⟨[], by rw [hahead₂, List.append_nil]⟩, rfl⟩
  · have hlast : (((r.advance keyword).advance gap).advance name).previous = name.getLast? := by
      rw [Reading.advance, List.getLast?_eq_some_getLast hname.ne_nil]
      rfl
    rw [Reading.atWordEdge, hahead₃, hlast, hname.getLast?_isWord]
    rfl

/-! ## Dropped writes -/

/-- In the statement in progress a declaration opens that is not the one of the name at the offset:
another name follows the keyword, or the keyword is a data location, or it is the end of a longer word
that the lookback cuts in two. -/
def OpensAnother (text : List Char) (offset : Nat) : Prop :=
  ∃ before keyword gap after, Opening text offset before keyword gap after ∧
    (after ≠ [] ∨ dataLocation.Describes keyword ∨ before.getLast?.any Text.isWord = true)

/-- A name that is not declared up to its own occurrence is presumed to be local exactly if another
declaration opens in the statement. -/
theorem declaresLocally_iff_opensAnother (hname : IsName name) (hstands : name <+: text.drop offset)
    (hedge : (text.take offset).getLast?.any Text.isWord = false)
    (hundeclared : declaredBefore text (offset + name.length) name = false) :
    declaresLocally text offset (some name) = true ↔ OpensAnother text offset := by
  have hoffset : offset ≤ text.length := by
    have hlength := hstands.length_le
    have hpos := List.length_pos_iff.mpr hname.ne_nil
    rw [List.length_drop] at hlength
    omega
  have hbefore : declaredBefore text offset name = false := by
    rw [Bool.eq_false_iff]
    intro h
    have hlater := declaredBefore_of_le (Nat.le_add_right offset name.length)
      (fun hinside => absurd hinside.1 (by simp [hedge])) h
    rw [hundeclared] at hlater
    cases hlater
  rw [declaresLocally, Option.any_some, hbefore, Bool.or_false, inDeclaration_iff hoffset]
  constructor
  · rintro ⟨before, keyword, gap, after, h⟩
    refine ⟨before, keyword, gap, after, h, ?_⟩
    by_contra hnone
    obtain ⟨hafter, hlocation, hlast⟩ : after = [] ∧ ¬ dataLocation.Describes keyword ∧
        before.getLast?.any Text.isWord = false := by simpa using hnone
    subst hafter
    have hdeclared := declaredBefore_of_opening h (h.isKeyword.resolve_left hlocation) hlast hname
      hstands
    rw [hundeclared] at hdeclared
    cases hdeclared
  · rintro ⟨before, keyword, gap, after, h, _⟩
    exact ⟨before, keyword, gap, after, h⟩

end SolidityAudit.Source

namespace SolidityAudit.Reentrancy
open Pattern Source

variable {p q : Pattern} {body : List Char} {offset : Nat} {m : Match}

theorem group?_eq_of_groups {label : String} {target : List Char}
    (hstands : target <+: body.drop offset)
    (hgroups : m.groups = [(label, ⟨offset, offset + target.length⟩)]) :
    m.group? body label = some target := by
  rw [Match.group?, hgroups, List.lookup_cons_self, Option.map_some, Option.some_inj]
  change Text.slice body offset (offset + target.length) = target
  rw [Text.slice, Nat.add_sub_cancel_left]
  exact (List.prefix_iff_eq_take.mp hstands).symm

theorem exists_target_of_matchAt (hq : q.isGroupless = true)
    (h : (seq assignable q).matchAt body offset = some m) :
    ∃ target, m.group? body "target" = some target ∧ IsName target ∧ target <+: body.drop offset ∧
      (body.take offset).getLast?.any Text.isWord = false := by
  obtain ⟨r', ⟨r₁, ⟨r₀, ⟨hedge, hr₀⟩, r₂, ⟨last, hname, rfl⟩, haccesses⟩, hrest⟩, rfl⟩ :=
    exists_reaches_of_matchAt h
  subst hr₀
  obtain ⟨target, htarget, hstands, rfl⟩ := (reaches_iff_describes rfl).mp hname
  refine ⟨target, ?_, htarget, hstands, ?_⟩
  · apply group?_eq_of_groups hstands
    change r'.groups = _
    rw [groups_eq_of_reaches hq hrest, groups_eq_of_reaches rfl haccesses]
    rfl
  · obtain ⟨rest, hahead⟩ := hstands
    exact (Reading.atWordEdge_iff_of_begins hahead.symm (IsName.begins htarget)).mp hedge

/-- A write to a name that is not declared up to this occurrence is dropped exactly if another
declaration opens in the statement before it. If none does, it is reported. -/
theorem undeclared_write_dropped_iff (hp : p ∈ [assignment, compoundAssignment, postfixStep])
    (hm : p.matchAt body offset = some m) :
    ∃ target, m.group? body "target" = some target ∧ IsName target ∧ target <+: body.drop offset ∧
      (declaredBefore body (offset + target.length) target = false →
        (declaresLocally body offset (some target) = true ↔ OpensAnother body offset) ∧
        (m ∈ p.findAll body → ¬ OpensAnother body offset →
          ∃ s ∈ stateChanges body, s.offset = offset)) := by
  have hform : ∃ q, p = seq assignable q ∧ q.isGroupless = true := by
    simp only [List.mem_cons, List.not_mem_nil, or_false] at hp
    rcases hp with rfl | rfl | rfl
    · exact ⟨_, rfl, rfl⟩
    · exact ⟨_, rfl, rfl⟩
    · exact ⟨_, rfl, rfl⟩
  have hlisted : p ∈ stateChangePatterns := by
    simp only [List.mem_cons, List.not_mem_nil, or_false] at hp
    rcases hp with rfl | rfl | rfl <;> simp [stateChangePatterns]
  obtain ⟨q, rfl, hq⟩ := hform
  obtain ⟨target, hgroup, hname, hstands, hedge⟩ := exists_target_of_matchAt hq hm
  refine ⟨target, hgroup, hname, hstands, fun hundeclared => ?_⟩
  have hdropped := declaresLocally_iff_opensAnother hname hstands hedge hundeclared
  refine ⟨hdropped, fun hfound hnone => exists_mem_stateChanges_iff.mpr ?_⟩
  refine ⟨_, hlisted, m, hfound, start_of_matchAt hm, ?_⟩
  rw [hgroup, Bool.eq_false_iff]
  exact mt hdropped.mp hnone

/-- The write in the initializer of `t` is to `balances`, which is declared nowhere. The declaration
of `t` hides it, and the body has no write at all. -/
theorem undeclared_write_dropped_iff_initializer :
    let body := "uint256 t = (balances[msg.sender] = 0);".toList
    (∃ m, assignment.matchAt body 13 = some m ∧
      m.group? body "target" = some "balances".toList) ∧
      declaredBefore body 21 "balances".toList = false ∧ OpensAnother body 13 ∧
      declaresLocally body 13 (some "balances".toList) = true ∧ stateChanges body = [] := by
  intro body
  have hmatch : (assignment.matchAt body 13).bind (·.group? body "target") =
      some "balances".toList := by decide +kernel
  obtain ⟨m, hm, hgroup⟩ := Option.bind_eq_some_iff.mp hmatch
  have hundeclared : declaredBefore body 21 "balances".toList = false := by decide +kernel
  have hstatement : ∀ c ∈ "uint256".toList ++ " ".toList ++ "t = (".toList,
      Text.endsStatement c = false := by
    intro c hc
    simpa using List.all_eq_true.mp (by decide : (("uint256".toList ++ " ".toList ++
      "t = (".toList).all fun c => !Text.endsStatement c) = true) c hc
  have hopens : OpensAnother body 13 := by
    refine ⟨[], "uint256".toList, " ".toList, "t = (".toList, ⟨by decide, Or.inr ?_, ?_,
      Or.inr rfl, by decide, hstatement, Or.inl rfl⟩, Or.inl (by decide)⟩
    · refine ⟨"uint256".toList, [], by decide, Or.inl ?_, [], rfl, by simp⟩
      exact ⟨['u'], "int256".toList, by decide, Or.inl ⟨'u', rfl, rfl⟩, "int".toList, "256".toList,
        by decide, describes_chars_iff.mpr rfl,
        describes_many_one_iff.mpr (List.all_eq_true.mp (by decide))⟩
    · exact ⟨by decide, List.all_eq_true.mp (by decide)⟩
  obtain ⟨target, htarget, _, _, hiff⟩ := undeclared_write_dropped_iff List.mem_cons_self hm
  obtain rfl : "balances".toList = target := Option.some.inj (hgroup.symm.trans htarget)
  have hnone : (stateChanges body).length = 0 := by decide +kernel
  exact ⟨⟨m, hm, hgroup⟩, hundeclared, hopens, (hiff hundeclared).1.mpr hopens,
    List.length_eq_zero_iff.mp hnone⟩

end SolidityAudit.Reentrancy
