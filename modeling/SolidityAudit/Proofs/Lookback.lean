import SolidityAudit.Proofs.LocalDeclaration

/-!
# What the lookback sees

Of the text before an offset, the test for a declaration sees the last characters that are no farther
away than the lookback and belong to the statement in progress. A text that ends with a separator can
be put before another one without a change: a piece without separators that ends at the offset does
not reach into it, wherever the lookback begins.

Compared with a search in the whole statement, the lookback misses the declarations that open farther
away. It also finds one that is not there if it begins inside a word, since it does not see that the
word has begun before: the end of `mint` is then read as the type `int`.
-/

namespace SolidityAudit.Source

variable {front text piece : List Char} {c : Char} {offset : Nat}

/-! ## Texts put in front -/

def statementBefore (text : List Char) (offset : Nat) : List Char :=
  Text.lastStatement ((text.take offset).drop (offset - lookback))

/-- What is looked at ends with exactly the pieces of the text before the offset that are no longer
than the lookback and hold no separator. -/
theorem suffix_statementBefore_iff (hoffset : offset ≤ text.length) {piece : List Char} :
    piece <:+ statementBefore text offset ↔ piece <:+ text.take offset ∧
      piece.length ≤ lookback ∧ ∀ c ∈ piece, Text.endsStatement c = false := by
  have hwindow := List.drop_suffix (offset - lookback) (text.take offset)
  have hlength : ((text.take offset).drop (offset - lookback)).length =
      offset - (offset - lookback) := by
    rw [List.length_drop, List.length_take, Nat.min_eq_left hoffset]
  rw [statementBefore, suffix_lastStatement_iff, ← and_assoc]
  refine and_congr_left fun _ => ?_
  constructor
  · intro h
    have hle := h.length_le
    exact ⟨h.trans hwindow, by omega⟩
  · rintro ⟨h, hle⟩
    have hshort := h.length_le
    rw [List.length_take, Nat.min_eq_left hoffset] at hshort
    exact List.suffix_of_suffix_length_le h hwindow (by omega)

/-- Two texts with the same ends are equal. -/
theorem eq_of_suffix_iff {text' : List Char} (h : ∀ piece, piece <:+ text ↔ piece <:+ text') :
    text = text' :=
  ((h text).mp (List.suffix_refl _)).eq_of_length_le
    ((h text').mpr (List.suffix_refl _)).length_le

theorem suffix_append_iff_of_notMem (hlast : front.getLast? = some c) (hc : c ∉ piece) :
    piece <:+ front ++ text ↔ piece <:+ text := by
  have htext : text <:+ front ++ text := List.suffix_append _ _
  constructor
  · intro h
    rcases List.suffix_or_suffix_of_suffix h htext with hinside | ⟨more, rfl⟩
    · exact hinside
    · obtain ⟨before, hbefore⟩ := h
      rw [← List.append_assoc] at hbefore
      obtain rfl := List.append_cancel_right hbefore
      by_cases hmore : more = []
      · rw [hmore]
        exact List.suffix_refl _
      · rw [List.getLast?_append_of_ne_nil _ hmore] at hlast
        exact absurd (List.mem_append_left _ (List.mem_of_getLast? hlast)) hc
  · intro h
    exact h.trans htext

theorem statementBefore_append (hlast : front.getLast? = some c) (hc : Text.endsStatement c = true)
    (hoffset : offset ≤ text.length) :
    statementBefore (front ++ text) (front.length + offset) = statementBefore text offset := by
  have hlength : front.length + offset ≤ (front ++ text).length := by
    rw [List.length_append]
    omega
  apply eq_of_suffix_iff
  intro piece
  rw [suffix_statementBefore_iff hlength, suffix_statementBefore_iff hoffset,
    List.take_length_add_append]
  refine and_congr_left fun ⟨_, hclean⟩ => suffix_append_iff_of_notMem hlast fun hmem => ?_
  rw [hclean c hmem] at hc
  cases hc

/-- A text that ends with a separator changes nothing in front of another one: at an offset of that
text a declaration opens in the two together exactly if one opens in the latter alone. -/
theorem inDeclaration_append (front text : List Char) (offset : Nat)
    (hfront : front.getLast?.any Text.endsStatement = true) (hoffset : offset ≤ text.length) :
    inDeclaration (front ++ text) (front.length + offset) = inDeclaration text offset ∧
      (inDeclaration (front ++ text) (front.length + offset) = true ↔
        ∃ before keyword gap after, Opening text offset before keyword gap after) := by
  obtain ⟨c, hlast, hc⟩ := (Option.any_eq_true _ _).mp hfront
  have hsame : inDeclaration (front ++ text) (front.length + offset) = inDeclaration text offset :=
    congrArg declarationOpening.occursIn (statementBefore_append hlast hc hoffset)
  refine ⟨hsame, ?_⟩
  rw [hsame]
  exact inDeclaration_iff hoffset

/-- A declaration before the seam is within the lookback and is not seen; one behind it is. -/
theorem inDeclaration_append_seam :
    let front := "uint256 fee; if (open) \x7b".toList
    (front.getLast?.any Text.endsStatement = true ∧
      inDeclaration (front ++ " total = fee;".toList) (front.length + 7) = false) ∧
    inDeclaration (front ++ " uint256 total = fee;".toList) (front.length + 15) = true := by
  intro front
  have hfront : front.getLast?.any Text.endsStatement = true := by decide
  refine ⟨⟨hfront, ?_⟩, ?_⟩
  · rw [(inDeclaration_append front " total = fee;".toList 7 hfront (by decide)).1]
    decide +kernel
  · rw [(inDeclaration_append front " uint256 total = fee;".toList 15 hfront (by decide)).1]
    decide +kernel

/-! ## The whole statement -/

/-- From a place of the text on a declaration opens, with no separator up to the offset. Whether a
word has begun before the place is left open. -/
structure ReadsOpening (text : List Char) (offset place : Nat) : Prop where
  opens : OpensDeclaration ((text.take offset).drop place)
  statement : ∀ c ∈ (text.take offset).drop place, Text.endsStatement c = false

/-- The lookback begins inside a word, and what it leaves of the word is read as a keyword. -/
def CutsKeyword (text : List Char) (offset : Nat) : Prop :=
  ReadsOpening text offset (offset - lookback) ∧ InsideWord text (offset - lookback)

variable {place : Nat}

theorem ReadsOpening.lt (h : ReadsOpening text offset place) : place < offset := by
  by_contra hle
  have hbegins := h.opens.begins
  rw [List.drop_eq_nil_of_le ((List.length_take_le _ _).trans (Nat.le_of_not_lt hle))] at hbegins
  cases hbegins

theorem ReadsOpening.insideWord_iff (h : ReadsOpening text offset place) :
    InsideWord text place ↔ (text.take place).getLast?.any Text.isWord = true := by
  have hlt := h.lt
  have hbegins := h.opens.begins
  rw [List.drop_take, List.head?_take, if_neg (by omega)] at hbegins
  exact and_iff_left hbegins

/-- A search in the statement that begins at `start` finds the declarations that open from there on.
At `start` itself it takes no notice of what stands before. -/
theorem occursIn_statement_iff (start : Nat) :
    declarationOpening.occursIn (Text.lastStatement ((text.take offset).drop start)) = true ↔
      ∃ place, start ≤ place ∧ ReadsOpening text offset place ∧
        (InsideWord text place → place = start) := by
  have htake : ∀ {k}, start + k ≤ offset → text.take (start + k) =
      (text.take offset).take start ++ ((text.take offset).drop start).take k := by
    intro k hle
    rw [← List.take_add, List.take_take, Nat.min_eq_left hle]
  rw [occursIn_lastStatement_iff]
  constructor
  · rintro ⟨before, ahead, hsplit, hedge, hopens, hclean⟩
    have hahead : (text.take offset).drop (start + before.length) = ahead := by
      rw [← List.drop_drop, hsplit, List.drop_left]
    have hreads : ReadsOpening text offset (start + before.length) :=
      ⟨hahead.symm ▸ hopens, hahead.symm ▸ hclean⟩
    refine ⟨_, Nat.le_add_right _ _, hreads, fun hinside => ?_⟩
    by_cases hbefore : before = []
    · rw [hbefore, List.length_nil, Nat.add_zero]
    · rw [hreads.insideWord_iff, htake hreads.lt.le, hsplit, List.take_left,
        List.getLast?_append_of_ne_nil _ hbefore, hedge] at hinside
      cases hinside
  · rintro ⟨_, hle, hreads, hinside⟩
    obtain ⟨k, rfl⟩ := Nat.exists_eq_add_of_le hle
    refine ⟨((text.take offset).drop start).take k, _, (List.take_append_drop k _).symm, ?_,
      List.drop_drop ▸ hreads.opens, List.drop_drop ▸ hreads.statement⟩
    cases k with
    | zero => rfl
    | succ k =>
        have houtside : ¬ InsideWord text (start + (k + 1)) := by
          intro h
          have := hinside h
          omega
        rw [hreads.insideWord_iff, htake hreads.lt.le, Bool.not_eq_true] at houtside
        exact getLast?_isWord_eq_false_of_append houtside

theorem inDeclaration_iff_place : inDeclaration text offset = true ↔
    (∃ place, offset - lookback ≤ place ∧ ReadsOpening text offset place ∧
      ¬ InsideWord text place) ∨ CutsKeyword text offset := by
  rw [inDeclaration, occursIn_statement_iff]
  constructor
  · rintro ⟨place, hle, hreads, hstart⟩
    by_cases hinside : InsideWord text place
    · obtain rfl := hstart hinside
      exact Or.inr ⟨hreads, hinside⟩
    · exact Or.inl ⟨place, hle, hreads, hinside⟩
  · rintro (⟨place, hle, hreads, houtside⟩ | ⟨hreads, _⟩)
    · exact ⟨place, hle, hreads, fun hinside => absurd hinside houtside⟩
    · exact ⟨_, Nat.le_refl _, hreads, fun _ => rfl⟩

/-- A declaration is seen exactly if one opens no farther away than the lookback, or if the lookback
cuts a keyword off a longer word. So unless it does, a declaration that is seen opens in the statement
as a whole. -/
theorem lookback_forgets_or_cuts_keyword (text : List Char) (offset : Nat) :
    (inDeclaration text offset = true ↔
      (∃ place, offset - lookback ≤ place ∧ ReadsOpening text offset place ∧
        ¬ InsideWord text place) ∨ CutsKeyword text offset) ∧
    (inDeclaration text offset = true →
      declarationOpening.occursIn (Text.lastStatement (text.take offset)) = true ∨
        CutsKeyword text offset) := by
  refine ⟨inDeclaration_iff_place, fun h => (inDeclaration_iff_place.mp h).imp_left ?_⟩
  rintro ⟨place, _, hreads, houtside⟩
  exact (occursIn_statement_iff 0).mpr
    ⟨place, Nat.zero_le _, hreads, fun hinside => absurd hinside houtside⟩

/-- The lookback from `total` begins with the last three letters of `mint`. A declaration is seen, and
none opens in the statement. -/
theorem lookback_forgets_or_cuts_keyword_mint :
    let text := "// mint fee, taken before the reserves are updated\n   total = fee;".toList
    (inDeclaration text 54 = true ∧ CutsKeyword text 54) ∧
      declarationOpening.occursIn (Text.lastStatement (text.take 54)) = false := by
  intro text
  have hseen : inDeclaration text 54 = true := by decide +kernel
  have hnone : declarationOpening.occursIn (Text.lastStatement (text.take 54)) = false := by
    decide +kernel
  refine ⟨⟨hseen, ((lookback_forgets_or_cuts_keyword text 54).2 hseen).resolve_left ?_⟩, hnone⟩
  rw [hnone]
  exact Bool.false_ne_true

end SolidityAudit.Source
