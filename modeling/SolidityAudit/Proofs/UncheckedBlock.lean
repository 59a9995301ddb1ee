import SolidityAudit.Proofs.Excerpt
import SolidityAudit.Proofs.Operand
import SolidityAudit.Proofs.RiskyOperation

/-!
# What is seen of an unchecked block

An unchecked block is read up to the first closing brace behind its opening, whatever was opened in
between. Of a block with blocks inside, only the text before this brace is searched for arithmetic. A
block is also lost if an earlier opening is still waiting for its closing brace, since the earlier block
then reaches over it.
-/

namespace SolidityAudit.Arithmetic
open Pattern Text

variable {text gap gap' inner inner' rest before inside after : List Char} {k stop : Nat} {m : Match}
  {op : Operation} {r r' : Reading}

/-! ## The text of a block -/

def uncheckedWord : List Char := "unchecked".toList

def blockText (gap inner : List Char) : List Char :=
  uncheckedWord ++ (gap ++ '{' :: (inner ++ ['}']))

/-- At an offset of a text a block stands, and no brace is closed inside it. -/
structure BlockAt (text : List Char) (offset : Nat) (gap inner : List Char) : Prop where
  blank : ∀ c ∈ gap, isBlank c = true
  unclosed : '}' ∉ inner
  stands : blockText gap inner <+: text.drop offset

theorem describes_uncheckedBlock_iff {piece : List Char} : uncheckedBlock.Describes piece ↔
    ∃ gap inner, (∀ c ∈ gap, isBlank c = true) ∧ '}' ∉ inner ∧ piece = blockText gap inner := by
  have hinner : ∀ {inner : List Char}, (many (charNotOf "\x7d")).Describes inner ↔ '}' ∉ inner :=
    describes_many_charNotOf_iff rfl
  constructor
  · rintro ⟨_, _, rfl, hword, gap, _, rfl, hgap, _, _, rfl, hopen, inner, _, rfl, hinner', hclose⟩
    obtain rfl := describes_chars_iff.mp hword
    obtain rfl := describes_chars_iff.mp hopen
    obtain rfl := describes_chars_iff.mp hclose
    exact ⟨gap, inner, describes_many_one_iff.mp hgap, hinner.mp hinner', rfl⟩
  · rintro ⟨gap, inner, hgap, hmem, rfl⟩
    exact ⟨_, _, rfl, describes_chars_iff.mpr rfl, gap, _, rfl, describes_many_one_iff.mpr hgap, ['{'],
      _, rfl, describes_chars_iff.mpr rfl, inner, _, rfl, hinner.mpr hmem, describes_chars_iff.mpr rfl⟩

theorem leadsTo_uncheckedBlock_iff : uncheckedBlock.LeadsTo text k stop ↔
    ∃ gap inner, BlockAt text k gap inner ∧ stop = k + (blockText gap inner).length := by
  constructor
  · rintro ⟨r', hr', rfl⟩
    obtain ⟨_, hpiece, hstands, rfl⟩ := (reaches_iff_describes rfl).mp hr'
    obtain ⟨gap, inner, hgap, hinner, rfl⟩ := describes_uncheckedBlock_iff.mp hpiece
    exact ⟨gap, inner, ⟨hgap, hinner, hstands⟩, rfl⟩
  · rintro ⟨gap, inner, h, rfl⟩
    have hpiece := describes_uncheckedBlock_iff.mpr ⟨gap, inner, h.blank, h.unclosed, rfl⟩
    exact ⟨_, (reaches_iff_describes rfl).mpr ⟨_, hpiece, h.stands, rfl⟩, rfl⟩

theorem exists_blockAt_of_matchAt (h : uncheckedBlock.matchAt text k = some m) :
    ∃ gap inner, BlockAt text k gap inner ∧ m.stop = k + (blockText gap inner).length ∧
      m.text text = blockText gap inner := by
  obtain ⟨r', hr', rfl⟩ := exists_reaches_of_matchAt h
  obtain ⟨gap, inner, hblock, hstop⟩ := leadsTo_uncheckedBlock_iff.mp ⟨r', hr', rfl⟩
  refine ⟨gap, inner, hblock, hstop, ?_⟩
  change Text.slice text k r'.offset = _
  rw [Text.slice, hstop, Nat.add_sub_cancel_left]
  exact (List.prefix_iff_eq_take.mp hblock.stands).symm

theorem BlockAt.isSome_matchAt (h : BlockAt text k gap inner) :
    (uncheckedBlock.matchAt text k).isSome = true :=
  (isSome_matchAt_iff_leadsTo rfl).mpr ⟨_, leadsTo_uncheckedBlock_iff.mpr ⟨gap, inner, h, rfl⟩⟩

theorem BlockAt.unique (h : BlockAt text k gap inner) (h' : BlockAt text k gap' inner') :
    gap = gap' ∧ inner = inner' := by
  obtain ⟨rest, hrest⟩ := h.stands
  obtain ⟨rest', hrest'⟩ := h'.stands
  have heq := hrest.trans hrest'.symm
  simp only [blockText, List.append_assoc, List.cons_append, List.nil_append] at heq
  obtain ⟨hgap, hbrace⟩ := append_inj_of_stops h.blank h'.blank ⟨'{', _, rfl, by decide⟩
    ⟨'{', _, rfl, by decide⟩ (List.append_cancel_left heq)
  exact ⟨hgap, (append_cons_inj_of_notMem h.unclosed h'.unclosed (List.cons.inj hbrace).2).1⟩

theorem exists_first_brace (inside after : List Char) :
    ∃ rest, inside ++ '}' :: after = inside.takeWhile (· ≠ '}') ++ '}' :: rest := by
  induction inside with
  | nil => exact ⟨after, rfl⟩
  | cons c inside ih =>
      by_cases hc : c = '}'
      · exact ⟨inside ++ '}' :: after, by simp [hc]⟩
      · obtain ⟨rest, hrest⟩ := ih
        exact ⟨rest, by simpa [hc] using hrest⟩

/-- A block is read up to the first closing brace behind its opening. -/
theorem blockAt_of_eq (hgap : ∀ c ∈ gap, isBlank c = true)
    (htext : text = before ++ (uncheckedWord ++ (gap ++ '{' :: (inside ++ '}' :: after)))) :
    BlockAt text before.length gap (inside.takeWhile (· ≠ '}')) := by
  refine ⟨hgap, fun hmem => ?_, ?_⟩
  · have hne := List.mem_takeWhile_imp hmem
    simp at hne
  · obtain ⟨rest, hrest⟩ := exists_first_brace inside after
    rw [htext, List.drop_left, hrest]
    exact ⟨rest, by simp [blockText]⟩

/-! ## Blocks that are passed over -/

structure OpensAt (text : List Char) (offset : Nat) (gap opened : List Char) : Prop where
  blank : ∀ c ∈ gap, isBlank c = true
  unclosed : '}' ∉ opened
  stands : text.drop offset = uncheckedWord ++ (gap ++ '{' :: opened)

/-- A block is opened in the text and not closed. -/
def StandsOpen (text : List Char) : Prop :=
  ∃ offset gap opened, OpensAt text offset gap opened

theorem OpensAt.lt_length (h : OpensAt text k gap rest) : k < text.length := by
  have hlength := congrArg List.length h.stands
  simp only [List.length_drop, List.length_append, List.length_cons] at hlength
  omega

theorem notMem_opening (hgap : ∀ c ∈ gap, isBlank c = true) (hrest : '}' ∉ rest) :
    '}' ∉ uncheckedWord ++ (gap ++ '{' :: rest) := by
  have hword : '}' ∉ uncheckedWord := by decide
  have hblank : '}' ∉ gap := fun hmem => absurd (hgap _ hmem) (by decide)
  simp [hrest, hword, hblank]

theorem notMem_tail_of_opening (hgap : ∀ c ∈ gap, isBlank c = true) :
    'u' ∉ (uncheckedWord ++ (gap ++ ['{'])).tail := by
  have hu : 'u' ∉ gap := fun hmem => absurd (hgap _ hmem) (by decide)
  have hword : 'u' ∉ uncheckedWord.tail := by decide
  change 'u' ∉ uncheckedWord.tail ++ (gap ++ ['{'])
  simp [hu, hword]

/-- An opening that begins before another one and whose block reaches over it stands open before it. -/
theorem standsOpen_of_passesOver {tail : List Char}
    (h : uncheckedBlock.PassesOver (before ++ (uncheckedWord ++ tail)) before.length) :
    StandsOpen before := by
  obtain ⟨m, hm, hstart, hstop⟩ := h
  obtain ⟨gap, inner, hblock, hlength, _⟩ := exists_blockAt_of_matchAt (matchAt_of_mem_findAll hm)
  obtain ⟨rest, hrest⟩ := hblock.stands
  rw [List.drop_append_of_le_length (Nat.le_of_lt hstart)] at hrest
  have hcut : (uncheckedWord ++ (gap ++ ['{'])) ++ (inner ++ '}' :: rest) =
      before.drop m.start ++ (uncheckedWord ++ tail) := by
    simpa [blockText] using hrest
  rcases List.append_eq_append_iff.mp hcut with ⟨more, hmore, hinner⟩ | ⟨more, hmore, hinner⟩
  · refine ⟨m.start, gap, more, hblock.blank, fun hmem => ?_, by simpa using hmore⟩
    have hshort : more.length ≤ inner.length := by
      have hdrop := congrArg List.length hmore
      simp only [List.length_drop, List.length_append, List.length_cons, List.length_nil] at hdrop
      simp only [blockText, List.length_append, List.length_cons, List.length_nil] at hlength
      omega
    have hstands : more <+: inner :=
      List.prefix_of_prefix_length_le ⟨_, hinner.symm⟩ (List.prefix_append _ _) hshort
    exact hblock.unclosed (hstands.subset hmem)
  · cases more with
    | nil => exact ⟨m.start, gap, [], hblock.blank, by simp, by simpa using hmore.symm⟩
    | cons c more =>
        obtain rfl : 'u' = c := (List.cons.inj hinner).1
        refine absurd ?_ (notMem_tail_of_opening hblock.blank)
        have hne : before.drop m.start ≠ [] := by simpa using hstart
        rw [hmore, List.tail_append_of_ne_nil hne]
        simp

theorem getElem?_stop_of_mem_findAll (h : m ∈ uncheckedBlock.findAll text) :
    0 < m.stop ∧ text[m.stop - 1]? = some '}' := by
  obtain ⟨gap, inner, hblock, hstop, _⟩ := exists_blockAt_of_matchAt (matchAt_of_mem_findAll h)
  obtain ⟨rest, hrest⟩ := hblock.stands
  have hlength : (blockText gap inner).length =
      (uncheckedWord ++ (gap ++ '{' :: inner)).length + 1 := by
    simp [blockText]
    omega
  have hsplit : text.drop m.start = (uncheckedWord ++ (gap ++ '{' :: inner)) ++ '}' :: rest := by
    rw [← hrest]
    simp [blockText]
  refine ⟨by omega, ?_⟩
  have hlast : m.stop - 1 = m.start + (uncheckedWord ++ (gap ++ '{' :: inner)).length := by omega
  rw [hlast, ← List.getElem?_drop, hsplit, List.getElem?_append_right (Nat.le_refl _), Nat.sub_self]
  rfl

/-- A block that reaches over a place reaches over what follows there without a closing brace. -/
theorem lt_stop_of_notMem {piece : List Char} (h : m ∈ uncheckedBlock.findAll text)
    (hk : k < m.stop) (hpiece : '}' ∉ piece) (hstands : piece <+: text.drop k) :
    k + piece.length < m.stop := by
  obtain ⟨hpos, hlast⟩ := getElem?_stop_of_mem_findAll h
  apply Nat.lt_of_not_le
  intro hle
  obtain ⟨rest, hrest⟩ := hstands
  have hinside : piece[m.stop - 1 - k]? = some '}' := by
    have hat : (piece ++ rest)[m.stop - 1 - k]? = some '}' := by
      rw [hrest, List.getElem?_drop]
      rwa [Nat.add_sub_cancel' (by omega)]
    rwa [List.getElem?_append_left (by omega)] at hat
  exact hpiece (List.mem_of_getElem? hinside)

theorem BlockAt.lt_length (h : BlockAt text k gap inner) : k < text.length := by
  have hle := h.stands.length_le
  simp only [blockText, List.length_append, List.length_cons, List.length_drop] at hle
  omega

/-- A block is given by the scan, or one that begins before it reaches over its start. -/
theorem BlockAt.exists_mem_findAll (h : BlockAt text k gap inner) :
    ∃ m ∈ uncheckedBlock.findAll text, m.start ≤ k ∧ k < m.stop := by
  by_cases hover : uncheckedBlock.PassesOver text k
  · obtain ⟨m, hm, hstart, hstop⟩ := hover
    exact ⟨m, hm, Nat.le_of_lt hstart, hstop⟩
  · obtain ⟨m, hm⟩ := Option.isSome_iff_exists.mp h.isSome_matchAt
    obtain ⟨gap', inner', _, hstop, _⟩ := exists_blockAt_of_matchAt hm
    obtain rfl := start_of_matchAt hm
    refine ⟨m, mem_findAll_iff.mpr ⟨hm, h.lt_length, hover⟩, Nat.le_refl _, ?_⟩
    simp only [blockText, List.length_append, List.length_cons] at hstop
    omega

/-- An earlier opening that stands open is closed where the block itself is closed. -/
theorem OpensAt.blockAt {opened : List Char} (h : OpensAt before k gap' opened)
    (hblock : BlockAt (before ++ rest) before.length gap inner) :
    BlockAt (before ++ rest) k gap' (opened ++ (uncheckedWord ++ (gap ++ '{' :: inner))) := by
  refine ⟨h.blank, ?_, ?_⟩
  · rw [List.mem_append, not_or]
    exact ⟨h.unclosed, notMem_opening hblock.blank hblock.unclosed⟩
  · obtain ⟨later, hlater⟩ := hblock.stands
    rw [List.drop_left] at hlater
    rw [List.drop_append_of_le_length (Nat.le_of_lt h.lt_length), h.stands, ← hlater]
    exact ⟨later, by simp [blockText]⟩

/-- The scan passes over a block exactly if an earlier opening stands open before it. -/
theorem passesOver_iff_standsOpen {tail : List Char}
    (hblock : BlockAt (before ++ (uncheckedWord ++ tail)) before.length gap inner) :
    uncheckedBlock.PassesOver (before ++ (uncheckedWord ++ tail)) before.length ↔
      StandsOpen before := by
  refine ⟨standsOpen_of_passesOver, ?_⟩
  rintro ⟨k, gap', opened, hopen⟩
  have hlt := hopen.lt_length
  obtain ⟨m, hm, hstart, hstop⟩ := (hopen.blockAt hblock).exists_mem_findAll
  have hclosed : '}' ∉ before.drop k := by
    rw [hopen.stands]
    exact notMem_opening hopen.blank hopen.unclosed
  have hstands : before.drop k <+: (before ++ (uncheckedWord ++ tail)).drop k := by
    rw [List.drop_append_of_le_length (Nat.le_of_lt hlt)]
    exact List.prefix_append _ _
  have hover := lt_stop_of_notMem hm hstop hclosed hstands
  rw [List.length_drop] at hover
  exact ⟨m, hm, by omega, by omega⟩

theorem not_standsOpen_of_notInfix (h : ¬ uncheckedWord <:+: before) : ¬ StandsOpen before := by
  rintro ⟨k, gap, opened, hopen⟩
  exact h (List.IsInfix.trans ⟨[], _, hopen.stands.symm⟩ (List.drop_suffix k before).isInfix)

/-! ## Operations in a block -/

/-- The text begins with an operand that is a name, and the sign of an operation follows; or it begins
with a digit or such a sign. -/
def StartsOperation (text : List Char) : Prop :=
  (∃ name rest, Source.IsName name ∧ text = name ++ rest ∧ Follows false SymbolSign rest) ∨
    (∃ c rest, text = c :: rest ∧ isDecimal c = true) ∨ SymbolSign text

theorem startsOperation_of_reaches_leftOperand {q : Pattern}
    (hq : BeginsWith (fun c => ['+', '-', '*'].contains c) q)
    (h : (leftOperand.seq (blanks.seq q)).Reaches r r') : StartsOperation r.ahead := by
  obtain ⟨s, hbehind, hs⟩ := exists_behind_of_reaches h
  obtain ⟨c, piece, hc, hbetween⟩ := hq hs
  rcases hbehind with ⟨name, after, hname, hahead, accesses, gap, _, hafter, haccesses, hgap, rfl⟩ |
    ⟨digits, gap, hne, hdigits, _, hahead⟩
  · exact Or.inl ⟨name, after, hname, hahead, accesses, gap, s.ahead, hafter, haccesses, hgap,
      c, List.contains_iff_mem.mp hc, _, hbetween.ahead⟩
  · obtain ⟨d, ds, rfl⟩ := List.exists_cons_of_ne_nil hne
    exact Or.inr (Or.inl ⟨d, _, hahead, hdigits d List.mem_cons_self⟩)

theorem startsOperation_of_reaches_lit {symbol : String} {c : Char} {cs : List Char} {q : Pattern}
    (hsymbol : symbol.toList = c :: cs) (hc : c ∈ ['+', '-', '*'])
    (h : ((lit symbol).seq q).Reaches r r') : StartsOperation r.ahead := by
  obtain ⟨_, hlit, _⟩ := h
  have hahead := (between_of_reaches_chars hlit).ahead
  rw [hsymbol] at hahead
  exact Or.inr (Or.inr ⟨c, hc, _, hahead⟩)

/-- Every operation of the table begins with an operand and a sign, or with a sign. -/
theorem startsOperation_of_reaches (hop : op ∈ operations) (h : op.pattern.Reaches r r') :
    StartsOperation r.ahead := by
  have hbinary : ∀ {symbol excluded : String} {c : Char} {cs : List Char},
      symbol.toList = c :: cs → ['+', '-', '*'].contains c = true →
      (infixOperation symbol excluded).Reaches r r' → StartsOperation r.ahead :=
    fun hsymbol hc => startsOperation_of_reaches_leftOperand (.seq (.lit hsymbol hc))
  have hassigning : ∀ {symbol : String} {c : Char} {cs : List Char},
      symbol.toList = c :: cs → ['+', '-', '*'].contains c = true →
      (assigningOperation symbol).Reaches r r' → StartsOperation r.ahead :=
    fun hsymbol hc => startsOperation_of_reaches_leftOperand (.seq (.lit hsymbol hc))
  have hstepping : ∀ {symbol : String} {c : Char} {cs : List Char},
      symbol.toList = c :: cs → ['+', '-', '*'].contains c = true →
      (steppingOperation symbol).Reaches r r' → StartsOperation r.ahead := by
    intro symbol c cs hsymbol hc h
    rcases h with h | h
    · exact startsOperation_of_reaches_leftOperand (.lit hsymbol hc) h
    · exact startsOperation_of_reaches_lit hsymbol (List.contains_iff_mem.mp hc) h
  revert op
  simp only [operations, List.forall_mem_cons, List.not_mem_nil, false_imp_iff, implies_true,
    and_true]
  exact ⟨hbinary rfl rfl, hbinary rfl rfl, hbinary rfl rfl, hassigning rfl rfl, hassigning rfl rfl,
    hassigning rfl rfl, hstepping rfl rfl, hstepping rfl rfl⟩

theorem letter_of_mem_uncheckedWord {c : Char} (hc : c ∈ uncheckedWord) :
    isWord c = true ∧ isDecimal c = false ∧ c ∉ ['+', '-', '*'] := by
  have hall : uncheckedWord.all (fun c => isWord c && !isDecimal c && !(['+', '-', '*'].contains c)) =
      true := by decide +kernel
  obtain ⟨hboth, hsymbol⟩ := Bool.and_eq_true_iff.mp (List.all_eq_true.mp hall c hc)
  obtain ⟨hletter, hdigit⟩ := Bool.and_eq_true_iff.mp hboth
  refine ⟨hletter, (Bool.not_eq_true' _).mp hdigit, fun hmem => ?_⟩
  rw [List.contains_iff_mem.mpr hmem] at hsymbol
  cases hsymbol

/-- What is left of an opening begins with a letter, a blank or the brace. -/
theorem not_symbol_of_opening {word tail : List Char} {c : Char} (hword : word <:+ uncheckedWord)
    (hgap : ∀ c ∈ gap, isBlank c = true) (h : word ++ (gap ++ '{' :: tail) = c :: rest) :
    isDecimal c = false ∧ c ∉ ['+', '-', '*'] := by
  cases word with
  | cons d ds =>
      obtain rfl := (List.cons.inj h).1
      exact (letter_of_mem_uncheckedWord (hword.subset List.mem_cons_self)).2
  | nil =>
      cases gap with
      | cons d ds =>
          obtain rfl := (List.cons.inj h).1
          have hblank := hgap d List.mem_cons_self
          refine ⟨isDecimal_eq_false_of_isBlank hblank, fun hmem => ?_⟩
          obtain ⟨e, _, he, _, hblank', _⟩ := symbolSign_isSign ⟨d, hmem, [], rfl⟩
          obtain rfl := (List.cons.inj he).1
          rw [hblank] at hblank'
          cases hblank'
      | nil =>
          obtain rfl := (List.cons.inj h).1
          decide

/-- No operation begins in the opening of a block. -/
theorem not_startsOperation_opening {word tail : List Char} (hword : word <:+ uncheckedWord)
    (hgap : ∀ c ∈ gap, isBlank c = true) : ¬ StartsOperation (word ++ (gap ++ '{' :: tail)) := by
  rintro (⟨name, rest, hname, heq, hfollows⟩ | ⟨c, rest, heq, hc⟩ | ⟨c, hc, rest, heq⟩)
  · have hletters : ∀ c ∈ word, isWord c = true := fun c hc =>
      (letter_of_mem_uncheckedWord (hword.subset hc)).1
    obtain ⟨_, rfl⟩ := append_inj_of_stops hletters hname.all_isWord
      (stops_isWord_append hgap ⟨'{', tail, rfl, by decide⟩)
      (hfollows.stops_isWord symbolSign_isSign) heq
    rcases hfollows.cases_of_gap symbolSign_isSign hgap (by decide) with ⟨hopen, _⟩ | hdot | hsign
    · exact absurd hopen (by decide)
    · exact absurd hdot (by decide)
    · obtain ⟨c, hc, _, heq⟩ := hsign
      obtain rfl := (List.cons.inj heq).1
      exact absurd hc (by decide)
  · rw [(not_symbol_of_opening hword hgap heq).1] at hc
    cases hc
  · exact (not_symbol_of_opening hword hgap heq).2 hc

theorem drop_opening {tail : List Char} (hk : k < (uncheckedWord ++ (gap ++ ['{'])).length) :
    (uncheckedWord ++ (gap ++ '{' :: tail)).drop k =
      uncheckedWord.drop k ++ (gap.drop (k - uncheckedWord.length) ++ '{' :: tail) := by
  have hbrace : k - uncheckedWord.length - gap.length = 0 := by
    simp only [List.length_append, List.length_singleton] at hk
    omega
  rw [List.drop_append, List.drop_append, hbrace, List.drop_zero]

/-- The patterns of the table do not mind a closing brace behind the text, and end before it. -/
theorem pattern_ends_before_brace (hop : op ∈ operations) : op.pattern.isProductive = true ∧
    op.pattern.isBlindTo '}' = true ∧ op.pattern.endsOff '}' = true := by
  have hall : operations.all (fun op => op.pattern.isProductive && (op.pattern.isBlindTo '}' &&
      op.pattern.endsOff '}')) = true := by
    decide +kernel
  simpa only [Bool.and_eq_true] using List.all_eq_true.mp hall op hop

/-- The operations that occur in a block are those that occur inside its braces. -/
theorem occursIn_blockText_iff (hop : op ∈ operations) (hgap : ∀ c ∈ gap, isBlank c = true) :
    op.pattern.occursIn (blockText gap inner) = true ↔ op.pattern.occursIn inner = true := by
  obtain ⟨hproductive, hblind, hends⟩ := pattern_ends_before_brace hop
  let opening := uncheckedWord ++ (gap ++ ['{'])
  have htext : blockText gap inner = opening ++ (inner ++ ['}']) := by simp [opening, blockText]
  have hedge : opening.getLast?.any isWord = false := by
    simp only [opening, ← List.append_assoc, List.getLast?_concat]
    decide
  have hmore : ∀ c ∈ ['}'].head?, op.pattern.isBlindTo c = true := fun c hc => by
    rwa [← Option.some.inj hc]
  rw [occursIn_iff hproductive, occursIn_iff hproductive]
  constructor
  · rintro ⟨offset, _, r', hr'⟩
    rcases Nat.lt_or_ge offset opening.length with hlt | hge
    · have hstarts : StartsOperation ((blockText gap inner).drop offset) :=
        startsOperation_of_reaches hop hr'
      rw [blockText, drop_opening hlt] at hstarts
      exact absurd hstarts (not_startsOperation_opening (List.drop_suffix _ _)
        fun c hc => hgap c (List.mem_of_mem_drop hc))
    · obtain ⟨k, rfl⟩ := Nat.exists_eq_add_of_le hge
      rw [htext] at hr'
      obtain ⟨c, piece, _, hbetween⟩ := pattern_beginsWith hop hr'
      have hlt := lt_length_of_between hbetween (List.cons_ne_nil c piece)
      have hk : k ≤ inner.length := by
        simp only [List.length_append, List.length_singleton] at hlt
        omega
      have hpart := @Excerpt.of_start opening inner ['}'] k hedge hk
      have hinside := ahead_ne_nil_of_endsOff hends hr' hpart.ahead
      obtain ⟨r₁, hr₁, _⟩ := hpart.reaches_of_inside hmore hr' (List.length_pos_iff.mpr hinside)
      exact ⟨k, hk, r₁, hr₁⟩
  · rintro ⟨k, hk, r', hr'⟩
    obtain ⟨s', hs', _⟩ := (@Excerpt.of_start opening inner ['}'] k hedge hk).reaches hmore hr'
    rw [htext]
    refine ⟨opening.length + k, ?_, s', hs'⟩
    simp only [List.length_append]
    omega

theorem isSome_firstOperation?_iff : (firstOperation? text).isSome = true ↔
    ∃ op ∈ operations, op.pattern.occursIn text = true := by
  simp [firstOperation?, List.findSome?_isSome_iff, occursIn]

/-! ## Findings on blocks -/

variable {u : SourceUnit} {first : ContractDecl} {others : List ContractDecl} {floor : Source.Version}
  {fallback : String} {f : Finding}

def blockFinding? (u : SourceUnit) (fallback : String) (block : Match) : Option Finding :=
  (firstOperation? (block.text u.text)).map fun (op, _) =>
    let name := (Source.contractSpans u.text u.contracts).ownerOr block.start fallback
    let function := (u.contract? name).bind fun c => Source.functionAt? c u.text block.start
    uncheckedFinding u block op name (function.map (·.name))

def blockReports (u : SourceUnit) (fallback : String) : List (Nat × Finding) :=
  (uncheckedBlock.findAll u.text).filterMap fun block =>
    (blockFinding? u fallback block).map (block.start, ·)

theorem map_blockReports : (blockReports u fallback).map (·.2) = uncheckedFindings u fallback := by
  rw [blockReports, List.map_filterMap]
  simp only [Option.map_map, Function.comp_def, Option.map_id']
  rfl

theorem blockReports_increase : ((blockReports u fallback).map (·.1)).Pairwise (· < ·) := by
  rw [List.pairwise_map]
  refine List.Pairwise.filterMap _ ?_ (findAll_pairwise uncheckedBlock u.text)
  intro a b hab x hx y hy
  obtain ⟨_, _, rfl⟩ := Option.map_eq_some_iff.mp hx
  obtain ⟨_, _, rfl⟩ := Option.map_eq_some_iff.mp hy
  exact hab.1

theorem mem_blockReports_iff : (k, f) ∈ blockReports u fallback ↔
    ∃ m ∈ uncheckedBlock.findAll u.text, m.start = k ∧ blockFinding? u fallback m = some f := by
  rw [blockReports, List.mem_filterMap]
  refine exists_congr fun m => and_congr_right fun _ => ?_
  constructor
  · intro h
    obtain ⟨f', hf', heq⟩ := Option.map_eq_some_iff.mp h
    obtain ⟨rfl, rfl⟩ := Prod.mk.inj heq
    exact ⟨rfl, hf'⟩
  · rintro ⟨rfl, hf⟩
    rw [hf, Option.map_some]

/-- The finding is of medium severity, is about the block that begins at the offset, and names the line
of this offset. -/
def ReportsBlock (u : SourceUnit) (offset : Nat) (f : Finding) : Prop :=
  (∃ gap inner, BlockAt u.text offset gap inner) ∧ f.severity = .medium ∧
    f.lineNumber = some (Source.lineAt u.text offset)

theorem reportsBlock_of_mem (h : (k, f) ∈ blockReports u fallback) : ReportsBlock u k f := by
  obtain ⟨m, hm, rfl, hf⟩ := mem_blockReports_iff.mp h
  obtain ⟨gap, inner, hblock, _⟩ := exists_blockAt_of_matchAt (matchAt_of_mem_findAll hm)
  obtain ⟨⟨op, _⟩, _, rfl⟩ := Option.map_eq_some_iff.mp hf
  exact ⟨⟨gap, inner, hblock⟩, rfl, rfl⟩

/-- A block is reported exactly if the scan does not pass over it and arithmetic occurs in the part up
to its first closing brace. -/
theorem exists_mem_blockReports_iff (hblock : BlockAt u.text k gap inner) :
    (∃ f, (k, f) ∈ blockReports u fallback) ↔ ¬ uncheckedBlock.PassesOver u.text k ∧
      ∃ op ∈ operations, op.pattern.occursIn inner = true := by
  have hseen : ∀ {m : Match}, uncheckedBlock.matchAt u.text k = some m →
      ((∃ f, blockFinding? u fallback m = some f) ↔
        ∃ op ∈ operations, op.pattern.occursIn inner = true) := by
    intro m hm
    obtain ⟨gap', inner', hblock', _, htext⟩ := exists_blockAt_of_matchAt hm
    obtain ⟨rfl, rfl⟩ := hblock.unique hblock'
    rw [← Option.isSome_iff_exists, blockFinding?, Option.isSome_map, isSome_firstOperation?_iff, htext]
    exact exists_congr fun op => and_congr_right fun hop => occursIn_blockText_iff hop hblock.blank
  constructor
  · rintro ⟨f, hf⟩
    obtain ⟨m, hm, rfl, hfound⟩ := mem_blockReports_iff.mp hf
    obtain ⟨hat, _, hfree⟩ := mem_findAll_iff.mp hm
    exact ⟨hfree, (hseen hat).mp ⟨f, hfound⟩⟩
  · rintro ⟨hfree, hoperation⟩
    obtain ⟨m, hat⟩ := Option.isSome_iff_exists.mp hblock.isSome_matchAt
    obtain ⟨f, hf⟩ := (hseen hat).mpr hoperation
    obtain rfl := start_of_matchAt hat
    exact ⟨f, mem_blockReports_iff.mpr
      ⟨m, mem_findAll_iff.mpr ⟨hat, hblock.lt_length, hfree⟩, rfl, hf⟩⟩

theorem analyze_eq_uncheckedFindings (hcontracts : u.contracts = first :: others)
    (hfloor : Source.versionFloor u.pragma = .ok (some floor))
    (hchecked : floor.isBefore Source.Version.checkedArithmetic = false) :
    analyze u = .ok (uncheckedFindings u first.name) := by
  have hlacks : Source.lacksOverflowChecks u.pragma = .ok false := by
    rw [Source.lacksOverflowChecks, hfloor]
    exact congrArg Except.ok hchecked
  simp only [analyze, hcontracts, hlacks]

/-- Under a pragma with overflow checks, an unchecked block is reported exactly if no earlier opening
stands open before it and arithmetic occurs between its opening and the first closing brace behind. What
stands behind this brace does not count, though it may belong to the block. -/
theorem unchecked_block_reported_iff (hcontracts : u.contracts = first :: others)
    (hfloor : Source.versionFloor u.pragma = .ok (some floor))
    (hchecked : floor.isBefore Source.Version.checkedArithmetic = false)
    (hgap : ∀ c ∈ gap, isBlank c = true)
    (htext : u.text = before ++ (uncheckedWord ++ (gap ++ '{' :: (inside ++ '}' :: after)))) :
    analyze u = .ok ((blockReports u first.name).map (·.2)) ∧
    ((blockReports u first.name).map (·.1)).Pairwise (· < ·) ∧
    (∀ report ∈ blockReports u first.name, ReportsBlock u report.1 report.2) ∧
    ((∃ f, (before.length, f) ∈ blockReports u first.name) ↔ ¬ StandsOpen before ∧
      ∃ op ∈ operations, op.pattern.occursIn (inside.takeWhile (· ≠ '}')) = true) ∧
    (¬ uncheckedWord <:+: before → ¬ StandsOpen before) := by
  have hblock := blockAt_of_eq hgap htext
  have hpasses : uncheckedBlock.PassesOver u.text before.length ↔ StandsOpen before := by
    rw [htext] at hblock ⊢
    exact passesOver_iff_standsOpen hblock
  refine ⟨?_, blockReports_increase, fun _ => reportsBlock_of_mem, ?_, not_standsOpen_of_notInfix⟩
  · rw [map_blockReports]
    exact analyze_eq_uncheckedFindings hcontracts hfloor hchecked
  · rw [exists_mem_blockReports_iff hblock, hpasses]

/-- The addition behind an inner block is not seen, and the block that holds it is not reported. -/
theorem unchecked_block_reported_iff_nested :
    let inside := " if (a) \x7b b; \x7d x += y; ".toList
    let u : SourceUnit :=
      { source := "unchecked \x7b if (a) \x7b b; \x7d x += y; \x7d", pragma := some "^0.8.0",
        contracts := [{ name := "C" }] }
    analyze u = .ok [] ∧ (∃ op ∈ operations, op.pattern.occursIn inside = true) ∧
      ((∃ f, (0, f) ∈ blockReports u "C") ↔ ¬ StandsOpen [] ∧
        ∃ op ∈ operations, op.pattern.occursIn (inside.takeWhile (· ≠ '}')) = true) ∧
      ¬ ∃ op ∈ operations, op.pattern.occursIn (inside.takeWhile (· ≠ '}')) = true := by
  intro inside u
  obtain ⟨hanalyze, _, _, hreported, _⟩ := @unchecked_block_reported_iff [' '] [] inside [] u _ []
    ⟨0, 8, 0⟩ rfl (by decide +kernel) (by decide) (List.all_eq_true.mp rfl) (by decide +kernel)
  have hnone : blockReports u "C" = [] := List.isEmpty_iff.mp (by decide +kernel)
  refine ⟨?_, by decide +kernel, hreported, by decide +kernel⟩
  rw [hanalyze, hnone]
  rfl

end SolidityAudit.Arithmetic
