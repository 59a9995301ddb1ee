import Mathlib.Data.List.Infix
import Mathlib.Data.List.Sort
import SolidityAudit.Proofs.Excerpt
import SolidityAudit.Proofs.LocalDeclaration
import SolidityAudit.Proofs.ScanAppend
import SolidityAudit.Proofs.TransactionOrigin

/-!
# When the origin counts as used for authorization

An occurrence of `tx.origin` is judged by its own statement alone: by a comparison beside it and by the
guards that open before it. A guard counts also if its parenthesis is closed again before the
occurrence, so that `if (ok) emit Seen(tx.origin);` is taken for a use. Since nothing outside of the
statement is looked at, the verdicts on a text that is cut behind a separator are those on its two
parts.
-/

namespace SolidityAudit.Authorization
open Pattern

variable {source text : List Char} {occurrence : Span} {offset : Nat}

/-! ## Comparisons -/

def IsComparison (sign : List Char) : Prop := sign = ['=', '='] ∨ sign = ['!', '=']

def ComparedAhead (text : List Char) : Prop :=
  ∃ gap sign rest, (∀ c ∈ gap, Text.isBlank c = true) ∧ IsComparison sign ∧
    text = gap ++ (sign ++ rest)

def ComparedBehind (text : List Char) : Prop :=
  ∃ before sign gap, (∀ c ∈ gap, Text.isBlank c = true) ∧ IsComparison sign ∧
    text = before ++ (sign ++ gap)

theorem exists_pieces_iff {piece : List Char} :
    (∃ u v, (charOf "=!").Describes u ∧ (lit "=").Describes v ∧ piece = u ++ v) ↔
      IsComparison piece := by
  constructor
  · rintro ⟨_, _, ⟨c, hc, rfl⟩, hequals, rfl⟩
    obtain rfl := describes_chars_iff.mp hequals
    have hmem : c ∈ ['=', '!'] := List.contains_iff_mem.mp hc
    rcases List.mem_pair.mp hmem with rfl | rfl
    · exact Or.inl rfl
    · exact Or.inr rfl
  · rintro (rfl | rfl)
    · exact ⟨['='], ['='], ⟨'=', rfl, rfl⟩, describes_chars_iff.mpr rfl, rfl⟩
    · exact ⟨['!'], ['='], ⟨'!', rfl, rfl⟩, describes_chars_iff.mpr rfl, rfl⟩

theorem isSome_comparisonAfter_iff :
    (comparisonAfter.matchAt source offset).isSome = true ↔ ComparedAhead (source.drop offset) := by
  have hannounces : Announces comparisonAfter ComparedAhead := by
    refine (Announces.seq rfl (Announces.seq rfl (announces_of_isPlain rfl))).congr fun text => ?_
    constructor
    · rintro ⟨gap, _, hgap, rfl, u, _, hu, rfl, v, rest, hv, rfl⟩
      exact ⟨gap, u ++ v, rest, describes_many_one_iff.mp hgap,
        exists_pieces_iff.mp ⟨u, v, hu, hv, rfl⟩, by simp⟩
    · rintro ⟨gap, sign, rest, hgap, hsign, rfl⟩
      obtain ⟨u, v, hu, hv, rfl⟩ := exists_pieces_iff.mpr hsign
      exact ⟨gap, _, describes_many_one_iff.mpr hgap, rfl, u, v ++ rest, hu, by simp, v, rest, hv, rfl⟩
  exact (isSome_matchAt_iff rfl).trans (hannounces _)

theorem announces_textEnd : Announces textEnd fun text => text = [] ∨ text = ['\n'] := by
  intro r
  constructor
  · rintro ⟨_, hend, _⟩
    unfold Reading.atTextEnd at hend
    split at hend
    · next hahead => exact Or.inl hahead
    · next c hahead =>
        rw [beq_iff_eq.mp hend] at hahead
        exact Or.inr hahead
    · cases hend
  · rintro (hahead | hahead)
    · exact ⟨r, by rw [Reading.atTextEnd, hahead], rfl⟩
    · exact ⟨r, by rw [Reading.atTextEnd, hahead]; rfl, rfl⟩

theorem occursIn_comparisonBefore_iff :
    comparisonBefore.occursIn text = true ↔ ComparedBehind text := by
  have hannounces : Announces comparisonBefore fun tail =>
      ∃ sign gap, (∀ c ∈ gap, Text.isBlank c = true) ∧ IsComparison sign ∧ tail = sign ++ gap := by
    refine (Announces.seq rfl (Announces.seq rfl (Announces.seq rfl announces_textEnd))).congr
      fun tail => ?_
    constructor
    · rintro ⟨u, _, hu, rfl, v, _, hv, rfl, gap, rest, hgap, rfl, hrest⟩
      have hblank := describes_many_one_iff.mp hgap
      refine ⟨u ++ v, gap ++ rest, ?_, exists_pieces_iff.mp ⟨u, v, hu, hv, rfl⟩, by simp⟩
      rw [List.forall_mem_append]
      rcases hrest with rfl | rfl
      · exact ⟨hblank, by simp⟩
      · exact ⟨hblank, List.all_eq_true.mp rfl⟩
    · rintro ⟨sign, gap, hgap, hsign, rfl⟩
      obtain ⟨u, v, hu, hv, rfl⟩ := exists_pieces_iff.mpr hsign
      exact ⟨u, v ++ gap, hu, by simp, v, gap, hv, rfl, gap, [], describes_many_one_iff.mpr hgap,
        by simp, Or.inl rfl⟩
  rw [occursIn_iff rfl]
  constructor
  · rintro ⟨k, _, hk⟩
    obtain ⟨sign, gap, hgap, hsign, htail⟩ := (hannounces _).mp hk
    refine ⟨text.take k, sign, gap, hgap, hsign, ?_⟩
    rw [← htail]
    exact (List.take_append_drop k text).symm
  · rintro ⟨before, sign, gap, hgap, hsign, rfl⟩
    refine ⟨before.length, by simp, (hannounces _).mpr ⟨sign, gap, hgap, hsign, ?_⟩⟩
    exact List.drop_left

/-- A comparison before an occurrence is part of its statement. -/
theorem comparedBehind_lastStatement_iff :
    ComparedBehind (Text.lastStatement text) ↔ ComparedBehind text := by
  constructor
  · rintro ⟨before, sign, gap, hgap, hsign, hlast⟩
    have hsuffix : sign ++ gap <:+ Text.lastStatement text := ⟨before, hlast.symm⟩
    obtain ⟨front, hfront⟩ := (Source.suffix_lastStatement_iff.mp hsuffix).1
    exact ⟨front, sign, gap, hgap, hsign, hfront.symm⟩
  · rintro ⟨before, sign, gap, hgap, hsign, rfl⟩
    have hclean : ∀ c ∈ sign ++ gap, Text.endsStatement c = false := by
      rw [List.forall_mem_append]
      constructor
      · rcases hsign with rfl | rfl <;> exact List.forall_mem_cons.mpr ⟨rfl, by simp; rfl⟩
      · intro c hc
        rw [Bool.eq_false_iff]
        intro hends
        have hblank := hgap c hc
        simp only [Text.endsStatement, Bool.or_eq_true, beq_iff_eq] at hends
        rcases hends with (rfl | rfl) | rfl <;> revert hblank <;> decide
    obtain ⟨front, hfront⟩ := Source.suffix_lastStatement_iff.mpr ⟨⟨before, rfl⟩, hclean⟩
    exact ⟨front, sign, gap, hgap, hsign, hfront.symm⟩

/-! ## Guards -/

/-- In the text the parenthesis of a guard opens, and `inner` stands behind it. -/
def OpensGuard (text inner : List Char) : Prop :=
  ∃ before gap, ∃ word ∈ ["require", "assert", "if"], before.getLast?.any Text.isWord = false ∧
    (∀ c ∈ gap, Text.isBlank c = true) ∧ text = before ++ (word.toList ++ (gap ++ '(' :: inner))

/-- Whether a text closes the parenthesis that was opened before it, where `depth` others are open
inside of this one. -/
def closesParenthesis : Nat → List Char → Bool
  | _, [] => false
  | depth, c :: rest =>
    if c = '(' then closesParenthesis (depth + 1) rest
    else if c = ')' then
      match depth with
      | 0 => true
      | depth + 1 => closesParenthesis depth rest
    else closesParenthesis depth rest

def InOpenGuard (text : List Char) : Prop :=
  ∃ inner, OpensGuard text inner ∧ closesParenthesis 0 inner = false

def BehindFinishedGuard (text : List Char) : Prop :=
  ∃ inner, OpensGuard text inner ∧ closesParenthesis 0 inner = true

theorem exists_reaches_guardOpening_iff {r : Reading} :
    (∃ r', guardOpening.Reaches r r') ↔ ∃ gap inner, ∃ word ∈ ["require", "assert", "if"],
      r.previous.any Text.isWord = false ∧ (∀ c ∈ gap, Text.isBlank c = true) ∧
        r.ahead = word.toList ++ (gap ++ '(' :: inner) := by
  have hannounces : Announces (chain [litOf ["require", "assert", "if"], blanks, lit "("])
      fun text => ∃ gap inner, ∃ word ∈ ["require", "assert", "if"],
        (∀ c ∈ gap, Text.isBlank c = true) ∧ text = word.toList ++ (gap ++ '(' :: inner) := by
    refine (Announces.seq rfl (Announces.seq rfl (announces_of_isPlain rfl))).congr fun text => ?_
    constructor
    · rintro ⟨_, _, hword, rfl, gap, _, hgap, rfl, _, inner, hparen, rfl⟩
      obtain ⟨word, hmem, rfl⟩ := describes_litOf_iff.mp hword
      obtain rfl := describes_chars_iff.mp hparen
      exact ⟨gap, inner, word, hmem, describes_many_one_iff.mp hgap, rfl⟩
    · rintro ⟨gap, inner, word, hmem, hgap, rfl⟩
      exact ⟨word.toList, _, describes_litOf_iff.mpr ⟨word, hmem, rfl⟩, rfl, gap, _,
        describes_many_one_iff.mpr hgap, rfl, ['('], inner, describes_chars_iff.mpr rfl, rfl⟩
  have hbegins : ∀ word ∈ ["require", "assert", "if"], word.toList.head?.any Text.isWord = true := by
    simp only [List.forall_mem_cons, List.not_mem_nil, false_imp_iff, implies_true, and_true]
    decide
  constructor
  · rintro ⟨r', _, ⟨hedge, rfl⟩, hrest⟩
    obtain ⟨gap, inner, word, hword, hgap, hahead⟩ := (hannounces _).mp ⟨r', hrest⟩
    exact ⟨gap, inner, word, hword,
      (Reading.atWordEdge_iff_of_begins hahead (hbegins word hword)).mp hedge, hgap, hahead⟩
  · rintro ⟨gap, inner, word, hword, hprevious, hgap, hahead⟩
    obtain ⟨r', hrest⟩ := (hannounces r).mpr ⟨gap, inner, word, hword, hgap, hahead⟩
    exact ⟨r', r, ⟨(Reading.atWordEdge_iff_of_begins hahead (hbegins word hword)).mpr hprevious, rfl⟩,
      hrest⟩

theorem occursIn_guardOpening_iff :
    guardOpening.occursIn text = true ↔ InOpenGuard text ∨ BehindFinishedGuard text := by
  have hopens : guardOpening.occursIn text = true ↔ ∃ inner, OpensGuard text inner := by
    rw [occursIn_iff rfl]
    simp only [exists_reaches_guardOpening_iff, Reading.start]
    constructor
    · rintro ⟨k, _, gap, inner, word, hword, hprevious, hgap, hahead⟩
      refine ⟨inner, text.take k, gap, word, hword, hprevious, hgap, ?_⟩
      rw [← hahead, List.take_append_drop]
    · rintro ⟨inner, before, gap, word, hword, hprevious, hgap, rfl⟩
      refine ⟨before.length, by simp, gap, inner, word, hword, ?_, hgap, List.drop_left⟩
      rwa [List.take_left]
  rw [hopens]
  constructor
  · rintro ⟨inner, hinner⟩
    cases hclosed : closesParenthesis 0 inner with
    | false => exact Or.inl ⟨inner, hinner, hclosed⟩
    | true => exact Or.inr ⟨inner, hinner, hclosed⟩
  · rintro (⟨inner, hinner, _⟩ | ⟨inner, hinner, _⟩)
    · exact ⟨inner, hinner⟩
    · exact ⟨inner, hinner⟩

/-- What makes an occurrence a use: a comparison beside it, or a guard before it in its statement. -/
theorem isAuthorizationUse_iff : isAuthorizationUse source occurrence = true ↔
    ComparedAhead (source.drop occurrence.stop) ∨ ComparedBehind (source.take occurrence.start) ∨
      InOpenGuard (Text.lastStatement (source.take occurrence.start)) ∨
        BehindFinishedGuard (Text.lastStatement (source.take occurrence.start)) := by
  rw [isAuthorizationUse, Bool.or_eq_true, Bool.or_eq_true, isSome_comparisonAfter_iff,
    occursIn_comparisonBefore_iff, comparedBehind_lastStatement_iff, occursIn_guardOpening_iff, or_assoc]

/-- An occurrence that is not compared is a use exactly if a guard is open in its statement, or has been
closed there again. So where all guards are closed it is passed over only if there was none. -/
theorem uncompared_use_iff_guard_opens
    (hahead : ¬ ComparedAhead (source.drop occurrence.stop))
    (hbehind : ¬ ComparedBehind (source.take occurrence.start)) :
    let statement := Text.lastStatement (source.take occurrence.start)
    (InOpenGuard statement → isAuthorizationUse source occurrence = true) ∧
    (¬ InOpenGuard statement →
      (isAuthorizationUse source occurrence = false ↔ ¬ BehindFinishedGuard statement)) := by
  intro statement
  have huse : isAuthorizationUse source occurrence = true ↔
      InOpenGuard statement ∨ BehindFinishedGuard statement := by
    rw [isAuthorizationUse_iff, or_iff_right hahead, or_iff_right hbehind]
  constructor
  · intro hopen
    exact huse.mpr (Or.inl hopen)
  · intro hclosed
    rw [← Bool.not_eq_true, huse, or_iff_right hclosed]

/-- The guard of the statement is closed before the occurrence, which is taken for a use all the same. -/
theorem uncompared_use_iff_guard_opens_closed :
    let source := "if (cond) emit E(tx.origin);".toList
    let occurrence : Span := ⟨17, 26⟩
    let statement := Text.lastStatement (source.take occurrence.start)
    occurrence ∈ txOrigins source ∧ ¬ ComparedAhead (source.drop occurrence.stop) ∧
      ¬ ComparedBehind (source.take occurrence.start) ∧ ¬ InOpenGuard statement ∧
      BehindFinishedGuard statement ∧ isAuthorizationUse source occurrence = true := by
  intro source occurrence statement
  have hahead : ¬ ComparedAhead (source.drop occurrence.stop) := by
    rw [← isSome_comparisonAfter_iff]
    decide +kernel
  have hbehind : ¬ ComparedBehind (source.take occurrence.start) := by
    rw [← occursIn_comparisonBefore_iff]
    decide +kernel
  have hfinished : BehindFinishedGuard statement :=
    ⟨"cond) emit E(".toList, ⟨[], [' '], "if", by simp, rfl, List.all_eq_true.mp rfl, by decide⟩,
      by decide⟩
  have hclosed : ¬ InOpenGuard statement := by
    rintro ⟨inner, ⟨before, gap, word, hword, _, hgap, htext⟩, hopen⟩
    have htails : ∀ tail ∈ statement.tails, ∀ w ∈ ["require", "assert", "if"],
        w.toList.isPrefixOf tail = true → w = "if" ∧ tail = statement := by decide
    have hsuffix : word.toList ++ (gap ++ '(' :: inner) <:+ statement := ⟨before, htext.symm⟩
    have hstands : word.toList.isPrefixOf (word.toList ++ (gap ++ '(' :: inner)) = true :=
      List.isPrefixOf_iff_prefix.mpr (List.prefix_append _ _)
    obtain ⟨rfl, hwhole⟩ := htails _ ((List.mem_tails _ _).mpr hsuffix) word hword hstands
    have hrest : gap ++ '(' :: inner = [' '] ++ '(' :: "cond) emit E(".toList :=
      List.append_cancel_left hwhole
    obtain ⟨_, hinner⟩ := Text.append_inj_of_stops hgap (List.all_eq_true.mp rfl)
      ⟨'(', inner, rfl, by decide⟩ ⟨'(', _, rfl, by decide⟩ hrest
    rw [(List.cons.inj hinner).2] at hopen
    revert hopen
    decide
  obtain ⟨_, huse⟩ := uncompared_use_iff_guard_opens hahead hbehind
  have hverdict : isAuthorizationUse source occurrence = true := by
    rw [← Bool.not_eq_false, huse hclosed, not_not]
    exact hfinished
  exact ⟨by decide +kernel, hahead, hbehind, hclosed, hfinished, hverdict⟩

/-! ## Occurrences in two texts -/

variable {a b : List Char} {c : Char}

theorem stop_unique_of_reaches_txOrigin {r r₁ r₂ : Reading} (h₁ : txOrigin.Reaches r r₁)
    (h₂ : txOrigin.Reaches r r₂) : r₁.offset = r₂.offset := by
  obtain ⟨left, right, hleft, hright, hbetween⟩ := exists_phrase_of_reaches_txOrigin h₁
  obtain ⟨left', right', hleft', hright', hbetween'⟩ := exists_phrase_of_reaches_txOrigin h₂
  have hahead := hbetween.ahead.symm.trans hbetween'.ahead
  simp only [List.append_assoc, List.cons_append] at hahead
  obtain ⟨rfl, hdot⟩ := Text.append_inj_of_stops hleft hleft' ⟨'.', _, rfl, by decide⟩
    ⟨'.', _, rfl, by decide⟩ (List.append_cancel_left hahead)
  obtain ⟨rfl, _⟩ := Text.append_inj_of_stops hright hright' ⟨'o', _, rfl, by decide⟩
    ⟨'o', _, rfl, by decide⟩ (List.cons.inj hdot).2
  rw [hbetween.offset, hbetween'.offset]

theorem mem_txOrigins_iff_leadsTo : occurrence ∈ txOrigins source ↔
    txOrigin.LeadsTo source occurrence.start occurrence.stop := by
  rw [mem_txOrigins_iff]
  constructor
  · rintro ⟨m, hm, rfl⟩
    obtain ⟨r', hr', hspan⟩ := exists_reaches_of_matchAt hm
    exact ⟨r', hr', by rw [hspan]⟩
  · rintro ⟨r', hr', hstop⟩
    obtain ⟨m, hm⟩ := Option.isSome_iff_exists.mp ((isSome_matchAt_iff rfl).mpr ⟨r', hr'⟩)
    obtain ⟨r₁, hr₁, hspan⟩ := exists_reaches_of_matchAt hm
    refine ⟨m, hm, ?_⟩
    rw [hspan, stop_unique_of_reaches_txOrigin hr₁ hr', hstop]

theorem bounds_of_mem_txOrigins (h : occurrence ∈ txOrigins source) :
    occurrence.start < source.length ∧ occurrence.stop ≤ source.length := by
  obtain ⟨r', hr', hstop⟩ := mem_txOrigins_iff_leadsTo.mp h
  obtain ⟨d, piece, _, hbetween⟩ := txOrigin_beginsWith hr'
  have hlt := lt_length_of_between hbetween (List.cons_ne_nil d piece)
  have hahead : source.drop occurrence.start = d :: piece ++ r'.ahead := hbetween.ahead
  have hoffset : r'.offset = occurrence.start + (d :: piece).length := hbetween.offset
  have hlength := congrArg List.length hahead
  rw [List.length_drop, List.length_append] at hlength
  omega

/-- Neither the search for the origin nor that for a comparison behind it goes beyond a separator. -/
theorem avoids_of_endsStatement (hc : Text.endsStatement c = true) :
    (txOrigin.isBlindTo c = true ∧ txOrigin.avoids c = true) ∧
      comparisonAfter.isBlindTo c = true ∧ comparisonAfter.avoids c = true := by
  simp only [Text.endsStatement, Bool.or_eq_true, beq_iff_eq] at hc
  rcases hc with (rfl | rfl) | rfl <;> decide

theorem getLast?_any_isWord_of_endsStatement (hc : Text.endsStatement c = true) :
    (a ++ [c]).getLast?.any Text.isWord = false := by
  rw [List.getLast?_concat, Option.any_some]
  exact Text.isWord_eq_false_of_endsStatement hc

theorem mem_txOrigins_append_cons_iff (hc : Text.endsStatement c = true) :
    occurrence ∈ txOrigins (a ++ c :: b) ↔ occurrence ∈ txOrigins a ∨
      ∃ later ∈ txOrigins b, later.shift (a.length + 1) = occurrence := by
  obtain ⟨⟨hblind, havoids⟩, _⟩ := avoids_of_endsStatement hc
  have hlast := @getLast?_any_isWord_of_endsStatement a c hc
  have htext : a ++ c :: b = (a ++ [c]) ++ b := by simp
  have hlength : (a ++ [c]).length = a.length + 1 := by simp
  constructor
  · intro h
    have hbound := (bounds_of_mem_txOrigins h).1
    rw [mem_txOrigins_iff_leadsTo] at h
    by_cases hle : occurrence.start ≤ a.length
    · exact Or.inl (mem_txOrigins_iff_leadsTo.mpr ((leadsTo_append_cons_iff hblind havoids hle).mp h))
    · obtain ⟨k, hk⟩ := Nat.exists_eq_add_of_le (Nat.lt_of_not_le hle)
      rw [htext, List.length_append, hlength] at hbound
      have hk' : occurrence.start = (a ++ [c]).length + k := by omega
      rw [htext, hk', leadsTo_append_right_iff hlast (by omega)] at h
      obtain ⟨stop, hstop, heq⟩ := h
      refine Or.inr ⟨⟨k, stop⟩, mem_txOrigins_iff_leadsTo.mpr hstop, ?_⟩
      rw [Span.shift, ← hlength, ← hk', ← heq]
  · rintro (h | ⟨later, h, rfl⟩)
    · have hbound := (bounds_of_mem_txOrigins h).1
      rw [mem_txOrigins_iff_leadsTo] at h ⊢
      exact (leadsTo_append_cons_iff hblind havoids (Nat.le_of_lt hbound)).mpr h
    · have hbound := (bounds_of_mem_txOrigins h).1
      rw [mem_txOrigins_iff_leadsTo] at h ⊢
      rw [htext, Span.shift, ← hlength, leadsTo_append_right_iff hlast (Nat.le_of_lt hbound)]
      exact ⟨_, h, rfl⟩

/-- The occurrences in a text are those before a separator and those behind it. -/
theorem txOrigins_append_cons (hc : Text.endsStatement c = true) :
    txOrigins (a ++ c :: b) = txOrigins a ++ (txOrigins b).map (Span.shift (a.length + 1)) := by
  have hantisymm : Std.Antisymm fun x y : Span => x.start < y.start :=
    ⟨fun _ _ h h' => absurd h (Nat.lt_asymm h')⟩
  have hirrefl : Std.Irrefl fun x y : Span => x.start < y.start := ⟨fun _ => Nat.lt_irrefl _⟩
  refine (txOrigins_pairwise _).eq_of_mem_iff ?_ fun occurrence => ?_
  · rw [List.pairwise_append, List.pairwise_map]
    refine ⟨txOrigins_pairwise a, (txOrigins_pairwise b).imp fun hlt => Nat.add_lt_add_left hlt _, ?_⟩
    intro x hx y hy
    obtain ⟨later, _, rfl⟩ := List.mem_map.mp hy
    have hbound := (bounds_of_mem_txOrigins hx).1
    change x.start < a.length + 1 + later.start
    omega
  · rw [mem_txOrigins_append_cons_iff hc, List.mem_append, List.mem_map]

/-! ## Verdicts on two texts -/

theorem lastStatement_append_cons (hc : Text.endsStatement c = true) :
    Text.lastStatement (a ++ c :: b) = Text.lastStatement b := by
  have hstop : ∀ l : List Char, (l ++ c :: a.reverse).takeWhile (fun d => !Text.endsStatement d) =
      l.takeWhile fun d => !Text.endsStatement d := by
    intro l
    induction l with
    | nil => simp [hc]
    | cons d l ih => simp only [List.cons_append, List.takeWhile_cons, ih]
  rw [Text.lastStatement, Text.lastStatement, List.reverse_append, List.reverse_cons,
    List.append_assoc, List.singleton_append, hstop]

theorem isAuthorizationUse_append_cons (hc : Text.endsStatement c = true)
    (h : occurrence ∈ txOrigins a) :
    isAuthorizationUse (a ++ c :: b) occurrence = isAuthorizationUse a occurrence := by
  obtain ⟨_, hblind, havoids⟩ := avoids_of_endsStatement hc
  obtain ⟨hstart, hstop⟩ := bounds_of_mem_txOrigins h
  have hafter : (comparisonAfter.matchAt (a ++ c :: b) occurrence.stop).isSome =
      (comparisonAfter.matchAt a occurrence.stop).isSome := by
    rw [Bool.eq_iff_iff, isSome_matchAt_iff_leadsTo rfl, isSome_matchAt_iff_leadsTo rfl]
    simp only [leadsTo_append_cons_iff hblind havoids hstop]
  rw [isAuthorizationUse, isAuthorizationUse, hafter,
    List.take_append_of_le_length (Nat.le_of_lt hstart)]

theorem isAuthorizationUse_shift (hc : Text.endsStatement c = true) (h : occurrence ∈ txOrigins b) :
    isAuthorizationUse (a ++ c :: b) (occurrence.shift (a.length + 1)) =
      isAuthorizationUse b occurrence := by
  have hlast := @getLast?_any_isWord_of_endsStatement a c hc
  have htext : a ++ c :: b = (a ++ [c]) ++ b := by simp
  have hlength : (a ++ [c]).length = a.length + 1 := by simp
  obtain ⟨hstart, hstop⟩ := bounds_of_mem_txOrigins h
  have hafter : (comparisonAfter.matchAt (a ++ c :: b) (a.length + 1 + occurrence.stop)).isSome =
      (comparisonAfter.matchAt b occurrence.stop).isSome := by
    rw [Bool.eq_iff_iff, isSome_matchAt_iff_leadsTo rfl, isSome_matchAt_iff_leadsTo rfl, htext,
      ← hlength]
    simp only [leadsTo_append_right_iff hlast hstop]
    constructor
    · rintro ⟨_, stop, hstop, _⟩
      exact ⟨stop, hstop⟩
    · rintro ⟨stop, hstop⟩
      exact ⟨_, stop, hstop, rfl⟩
  have htake : (a ++ c :: b).take (a.length + 1 + occurrence.start) =
      a ++ c :: b.take occurrence.start := by
    rw [htext, ← hlength, List.take_length_add_append, List.append_assoc, List.singleton_append]
  rw [isAuthorizationUse, isAuthorizationUse]
  simp only [Span.shift]
  rw [hafter, htake, lastStatement_append_cons hc]

def originVerdicts (source : List Char) : List (Span × Bool) :=
  (txOrigins source).map fun occurrence => (occurrence, isAuthorizationUse source occurrence)

theorem originVerdicts_append_cons (hc : Text.endsStatement c = true) :
    originVerdicts (a ++ c :: b) = originVerdicts a ++
      (originVerdicts b).map fun verdict => (verdict.1.shift (a.length + 1), verdict.2) := by
  rw [originVerdicts, txOrigins_append_cons hc, List.map_append, List.map_map, originVerdicts,
    originVerdicts, List.map_map]
  congr 1
  · apply List.map_congr_left
    intro occurrence h
    rw [isAuthorizationUse_append_cons hc h]
  · apply List.map_congr_left
    intro occurrence h
    simp only [Function.comp_apply, isAuthorizationUse_shift hc h]

/-- Where the first of two texts ends with a separator, the verdicts on both together are those on the
one and then those on the other, and neither text changes a verdict on the other. -/
theorem originVerdicts_append {first second : List Char}
    (hlast : first.getLast?.any Text.endsStatement = true) :
    originVerdicts (first ++ second) = originVerdicts first ++
      (originVerdicts second).map (fun verdict => (verdict.1.shift first.length, verdict.2)) ∧
    (∀ occurrence ∈ txOrigins first,
      isAuthorizationUse (first ++ second) occurrence = isAuthorizationUse first occurrence) ∧
    ∀ occurrence ∈ txOrigins second,
      isAuthorizationUse (first ++ second) (occurrence.shift first.length) =
        isAuthorizationUse second occurrence := by
  obtain ⟨c, hc, hends⟩ := Option.any_eq_true _ _ |>.mp hlast
  obtain ⟨front, rfl⟩ := List.getLast?_eq_some_iff.mp hc
  have hlength : (front ++ [c]).length = front.length + 1 := by simp
  have hverdicts : originVerdicts (front ++ [c]) = originVerdicts front := by
    rw [originVerdicts_append_cons hends]
    exact List.append_nil _
  have horigins : txOrigins (front ++ [c]) = txOrigins front := by
    rw [txOrigins_append_cons hends]
    exact List.append_nil _
  rw [List.append_assoc, List.singleton_append, hverdicts, horigins, hlength]
  refine ⟨originVerdicts_append_cons hends, ?_, fun _ h => isAuthorizationUse_shift hends h⟩
  intro occurrence h
  rw [isAuthorizationUse_append_cons hends h, isAuthorizationUse_append_cons hends h]

/-- A guard in the first text is of no effect on the second. -/
theorem originVerdicts_append_guard :
    let first := "require(tx.origin == a);".toList
    let second := " b = tx.origin; if (tx.origin != c) d;".toList
    first.getLast?.any Text.endsStatement = true ∧
      originVerdicts (first ++ second) = [(⟨8, 17⟩, true), (⟨29, 38⟩, false), (⟨44, 53⟩, true)] := by
  intro first second
  have hlast : first.getLast?.any Text.endsStatement = true := by decide
  have hfirst : originVerdicts first = [(⟨8, 17⟩, true)] := by decide +kernel
  have hsecond : originVerdicts second = [(⟨5, 14⟩, false), (⟨20, 29⟩, true)] := by decide +kernel
  refine ⟨hlast, ?_⟩
  rw [(originVerdicts_append hlast).1, hfirst, hsecond]
  rfl

end SolidityAudit.Authorization
