import SolidityAudit.Text.Basic

/-!
# Character classes that exclude one another

No blank is a word character or a digit, and what an identifier begins with is a word character and no
digit. The part of a class beyond ASCII is a table of ranges, and two tables exclude one another if
their ranges lie apart. A text is cut in one way where a class stops.
-/

namespace SolidityAudit.Text

variable {c : Char}

/-! ## Tables -/

def rangesApart (table table' : List (Nat × Nat)) : Bool :=
  table.all fun a => table'.all fun b => a.2 < b.1 || b.2 < a.1

theorem inRanges_eq_false_of_rangesApart {table table' : List (Nat × Nat)} {n : Nat}
    (h : rangesApart table table' = true) (hn : inRanges table n = true) :
    inRanges table' n = false := by
  obtain ⟨a, ha, hin⟩ := List.any_eq_true.mp hn
  rw [inRanges, List.any_eq_false]
  intro b hb hin'
  have happart := List.all_eq_true.mp (List.all_eq_true.mp h a ha) b hb
  simp only [Bool.or_eq_true, Bool.and_eq_true, decide_eq_true_eq] at happart hin hin'
  omega

/-! ## ASCII -/

theorem le_toNat_of_isAlphanum (h : c.isAlphanum = true) : 48 ≤ c.toNat := by
  change ((decide (c.val ≥ 'A'.val ∧ c.val ≤ 'Z'.val) ||
    decide (c.val ≥ 'a'.val) && decide (c.val ≤ 'z'.val)) ||
    decide (c.val ≥ 48) && decide (c.val ≤ 57)) = true at h
  simp only [Bool.or_eq_true, decide_eq_true_eq, Bool.and_eq_true, ge_iff_le,
    UInt32.le_iff_toNat_le] at h
  rcases h with (⟨hlow, _⟩ | ⟨hlow, _⟩) | ⟨hlow, _⟩
  · exact Nat.le_trans (by decide) hlow
  · exact Nat.le_trans (by decide) hlow
  · exact hlow

theorem val_lt_of_toNat_lt (h : c.toNat < 128) : c.val < 0x80 := by
  rw [UInt32.lt_iff_toNat_lt]
  exact h

theorem isIdentStart_range (h : isIdentStart c = true) : 65 ≤ c.toNat ∧ c.toNat ≤ 122 := by
  change ((decide (c.val ≥ 'A'.val ∧ c.val ≤ 'Z'.val) ||
    decide (c.val ≥ 'a'.val) && decide (c.val ≤ 'z'.val)) || c == '_') = true at h
  simp only [Bool.or_eq_true, decide_eq_true_eq, beq_iff_eq, Bool.and_eq_true, ge_iff_le,
    UInt32.le_iff_toNat_le] at h
  rcases h with (⟨hlow, hhigh⟩ | ⟨hlow, hhigh⟩) | rfl
  · exact ⟨hlow, Nat.le_trans hhigh (by decide)⟩
  · exact ⟨Nat.le_trans (by decide) hlow, hhigh⟩
  · decide

/-! ## The classes -/

theorem isWord_of_isIdentStart (h : isIdentStart c = true) : isWord c = true := by
  have hrange := isIdentStart_range h
  rw [isWord, inClass, if_pos (val_lt_of_toNat_lt (by omega))]
  rcases Bool.or_eq_true_iff.mp h with halpha | hunderscore
  · change ((c.isAlpha || c.isDigit) || c == '_') = true
    rw [halpha]
    rfl
  · rw [hunderscore, Bool.or_true]

theorem isAnyDigit_eq_false_of_isIdentStart (h : isIdentStart c = true) : isAnyDigit c = false := by
  have hrange := isIdentStart_range h
  rw [isAnyDigit, inClass, if_pos (val_lt_of_toNat_lt (by omega))]
  change (decide (c.val ≥ 48) && decide (c.val ≤ 57)) = false
  rw [Bool.and_eq_false_iff, decide_eq_false_iff_not, decide_eq_false_iff_not,
    UInt32.le_iff_toNat_le]
  right
  intro hle
  have : c.toNat ≤ 57 := hle
  omega

theorem isDecimal_eq_false_of_isIdentStart (h : isIdentStart c = true) :
    isDecimal c = false := by
  have hrange := isIdentStart_range h
  have hascii := val_lt_of_toNat_lt (Nat.lt_of_le_of_lt hrange.2 (by decide))
  have hdigit := isAnyDigit_eq_false_of_isIdentStart h
  rw [isAnyDigit, inClass, if_pos hascii] at hdigit
  rw [isDecimal, inClass, if_pos hascii, hdigit]

theorem toNat_le_of_isBlank (hascii : c.val < 0x80) (h : isBlank c = true) : c.toNat ≤ 32 := by
  rw [isBlank, inClass, if_pos hascii] at h
  simp only [Bool.or_eq_true, beq_iff_eq, Bool.and_eq_true, decide_eq_true_eq] at h
  rcases h with (rfl | ⟨_, hle⟩) | ⟨_, hle⟩
  · decide
  · omega
  · omega

/-- A class without blanks: in ASCII it lies above the blanks, and its table lies apart from theirs. -/
theorem inClass_eq_false_of_isBlank {ascii : Char → Bool} {table : List (Nat × Nat)}
    (hascii : ∀ c, ascii c = true → 48 ≤ c.toNat) (htable : rangesApart Ranges.blank table = true)
    (h : isBlank c = true) : inClass ascii table c = false := by
  by_cases hlt : c.val < 0x80
  · rw [inClass, if_pos hlt, Bool.eq_false_iff]
    intro hc
    have hhigh := hascii c hc
    have hlow := toNat_le_of_isBlank hlt h
    omega
  · rw [isBlank, inClass, if_neg hlt] at h
    rw [inClass, if_neg hlt]
    exact inRanges_eq_false_of_rangesApart htable h

theorem isWord_eq_false_of_isBlank (h : isBlank c = true) : isWord c = false := by
  refine inClass_eq_false_of_isBlank ?_ (by decide +kernel) h
  intro c hword
  rcases Bool.or_eq_true_iff.mp hword with halphanum | hunderscore
  · exact le_toNat_of_isAlphanum halphanum
  · rw [beq_iff_eq.mp hunderscore]
    decide

theorem isDecimal_eq_false_of_isBlank (h : isBlank c = true) : isDecimal c = false := by
  refine inClass_eq_false_of_isBlank ?_ (by decide +kernel) h
  intro c hdigit
  exact le_toNat_of_isAlphanum (Bool.or_eq_true_iff.mpr (Or.inr hdigit))

theorem isBlank_eq_false_of_isWord (h : isWord c = true) : isBlank c = false := by
  rw [Bool.eq_false_iff]
  intro hblank
  rw [isWord_eq_false_of_isBlank hblank] at h
  cases h

theorem isWord_eq_false_of_endsStatement (h : endsStatement c = true) : isWord c = false := by
  simp only [endsStatement, Bool.or_eq_true, beq_iff_eq] at h
  rcases h with (rfl | rfl) | rfl <;> decide

/-! ## Where a class stops -/

def Stops (accepts : Char → Bool) (text : List Char) : Prop :=
  ∃ c rest, text = c :: rest ∧ accepts c = false

/-- A text is cut in one way into accepted characters and a part that begins with another one. -/
theorem append_inj_of_stops {accepts : Char → Bool} {u u' v v' : List Char}
    (hu : ∀ c ∈ u, accepts c = true) (hu' : ∀ c ∈ u', accepts c = true) (hv : Stops accepts v)
    (hv' : Stops accepts v') (h : u ++ v = u' ++ v') : u = u' ∧ v = v' := by
  have htake : ∀ {u v : List Char}, (∀ c ∈ u, accepts c = true) → Stops accepts v →
      (u ++ v).takeWhile accepts = u := by
    rintro u _ hu ⟨c, rest, rfl, hc⟩
    rw [List.takeWhile_append_of_pos hu, List.takeWhile_cons_of_neg (by simp [hc]), List.append_nil]
  have hsame : u = u' := by rw [← htake hu hv, h, htake hu' hv']
  subst hsame
  exact ⟨rfl, List.append_cancel_left h⟩

/-- A text is cut in one way at the first place of a character. -/
theorem append_cons_inj_of_notMem {u u' v v' : List Char} (hu : c ∉ u) (hu' : c ∉ u')
    (h : u ++ c :: v = u' ++ c :: v') : u = u' ∧ v = v' := by
  have haccepts : ∀ {u : List Char}, c ∉ u → ∀ d ∈ u, (d != c) = true := by
    intro u hu d hd
    simpa using fun heq : d = c => hu (heq ▸ hd)
  have hstops : ∀ {v}, Stops (· != c) (c :: v) := ⟨c, _, rfl, by simp⟩
  obtain ⟨hsame, hrest⟩ := append_inj_of_stops (haccepts hu) (haccepts hu') hstops hstops h
  exact ⟨hsame, (List.cons.inj hrest).2⟩

theorem stops_isWord_append {gap rest : List Char} (hgap : ∀ c ∈ gap, isBlank c = true)
    (hrest : Stops isWord rest) : Stops isWord (gap ++ rest) := by
  cases gap with
  | nil => exact hrest
  | cons c gap =>
      exact ⟨c, gap ++ rest, rfl, isWord_eq_false_of_isBlank (hgap c List.mem_cons_self)⟩

end SolidityAudit.Text
