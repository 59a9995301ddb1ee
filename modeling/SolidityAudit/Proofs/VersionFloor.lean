import SolidityAudit.Proofs.CharClass
import SolidityAudit.Proofs.ScanAppend
import SolidityAudit.Proofs.Version

/-!
# The first version of a pragma

A version is read as far as its digits go, so the first numerals of a pragma are read back in full,
and the versions behind them are those of the rest of the pragma. The floor is therefore the first
version that is written, whatever follows it, as long as no number that follows is oversized.
-/

namespace SolidityAudit

/-! ## Numerals -/

theorem Text.isDecimal_of_isDigit {c : Char} (h : c.isDigit = true) : Text.isDecimal c = true := by
  have hrange : 48 ≤ c.toNat ∧ c.toNat ≤ 57 := by
    change (decide (c.val ≥ 48) && decide (c.val ≤ 57)) = true at h
    simp only [Bool.and_eq_true, decide_eq_true_eq, ge_iff_le, UInt32.le_iff_toNat_le] at h
    exact h
  rw [Text.isDecimal, Text.inClass, if_pos (Text.val_lt_of_toNat_lt (by omega))]
  exact h

namespace Source
open Pattern
open Numeral (maxDigits)

variable {major minor rest : List Char} {patch : Option (List Char)}

structure IsNumeral (digits : List Char) : Prop where
  ne_nil : digits ≠ []
  decimal : ∀ c ∈ digits, Text.isDecimal c = true

theorem isNumeral_toDigits (n : Nat) : IsNumeral (Nat.toDigits 10 n) where
  ne_nil := Nat.toDigits_ne_nil
  decimal c hc := Text.isDecimal_of_isDigit
    (Nat.isDigit_of_mem_toDigits (by decide) (Nat.le_refl 10) hc)

/-- The digits of a number are read back as this number. -/
theorem number_toDigits (n : Nat) : number (Nat.toDigits 10 n) = n := by
  have hfold : ∀ (digits : List Char) (k : Nat), (∀ c ∈ digits, c.isDigit = true) →
      digits.foldl (fun n c => 10 * n + Text.decimalValue c) k = Nat.ofDigitChars 10 digits k := by
    intro digits
    induction digits with
    | nil => exact fun _ _ => rfl
    | cons c digits ih =>
        intro k h
        obtain ⟨hc, hdigits⟩ := List.forall_mem_cons.mp h
        have hvalue : Text.decimalValue c = c.toNat - '0'.toNat := by
          rw [Text.decimalValue, if_pos hc]
        rw [List.foldl_cons, ih _ hdigits, hvalue, Nat.ofDigitChars_cons]
  rw [number, hfold _ _ fun c hc => Nat.isDigit_of_mem_toDigits (by decide) (Nat.le_refl 10) hc]
  exact Nat.ofDigitChars_toDigits (by decide) (Nat.le_refl 10)

theorem IsNumeral.dot_notMem {digits : List Char} (h : IsNumeral digits) : '.' ∉ digits := by
  intro hdot
  exact absurd (h.decimal '.' hdot) (by decide)

/-! ## A version in a text -/

def versionText (major minor : List Char) (patch : Option (List Char)) : List Char :=
  major ++ '.' :: (minor ++ patch.elim [] ('.' :: ·))

structure IsVersion (major minor : List Char) (patch : Option (List Char)) : Prop where
  major : IsNumeral major
  minor : IsNumeral minor
  patch : ∀ digits ∈ patch, IsNumeral digits

/-- What follows a version does not go on with it: there is no further digit, and no patch where the
version has none. -/
structure EndsVersion (patch : Option (List Char)) (rest : List Char) : Prop where
  digit : rest.head?.any Text.isDecimal = false
  patch : patch = none → ∀ d more, rest = '.' :: d :: more → Text.isDecimal d = false

def numeral (label : String) : Pattern := group label (some1 (one Text.isDecimal))

def patchPattern : Pattern := (lit ".").seq (numeral "patch")

theorem versionPattern_eq : versionPattern =
    (numeral "major").seq ((lit ".").seq ((numeral "minor").seq (optional patchPattern))) := rfl

section Run

variable {α : Type} {fuel offset start : Nat} {previous : Option Char} {r : Reading}
  {groups : List (String × Span)} {next : Reading → Option α} {b : α}

theorem run_numeral {label : String} {digits : List Char} (hdigits : IsNumeral digits)
    (hrest : rest.head?.any Text.isDecimal = false) (hfuel : digits.length ≤ fuel)
    (hnext : ∀ last, next ⟨offset + digits.length, last, rest,
      (label, ⟨offset, offset + digits.length⟩) :: groups⟩ = some b) :
    (numeral label).run fuel ⟨offset, previous, digits ++ rest, groups⟩ next = some b := by
  obtain ⟨c, digits, rfl⟩ := List.exists_cons_of_ne_nil hdigits.ne_nil
  obtain ⟨hc, hmore⟩ := List.forall_mem_cons.mp hdigits.decimal
  have hlength : offset + 1 + digits.length = offset + (c :: digits).length := by
    rw [List.length_cons]
    omega
  have hfirst : (one Text.isDecimal).run fuel ⟨offset, previous, c :: (digits ++ rest), groups⟩ =
      fun k : Reading → Option α => k ⟨offset + 1, some c, digits ++ rest, groups⟩ := by
    funext k
    simp only [run, hc, if_true]
  change (one Text.isDecimal).run fuel ⟨offset, previous, c :: (digits ++ rest), groups⟩ (fun r =>
    runMany ((one Text.isDecimal).run fuel) fuel r fun r => next (r.remember label offset)) = some b
  rw [hfirst]
  refine runMany_one_of_stops hmore hrest (Nat.le_of_succ_le hfuel) fun last => ?_
  rw [hlength]
  exact hnext last

theorem run_seq {p q : Pattern} :
    (p.seq q).run fuel r next = p.run fuel r fun r' => q.run fuel r' next := rfl

theorem run_dot : (lit ".").run fuel ⟨offset, previous, '.' :: rest, groups⟩ next =
    next ⟨offset + 1, some '.', rest, groups⟩ := rfl

theorem run_optional_of_some {p : Pattern} (h : p.run fuel r next = some b) :
    (optional p).run fuel r next = some b := by
  change (p.run fuel r next <|> next r) = some b
  rw [h]
  rfl

theorem run_optional_of_none {p : Pattern} (h : p.run fuel r next = none) :
    (optional p).run fuel r next = next r := by
  change (p.run fuel r next <|> next r) = next r
  rw [h]
  rfl

/-- The patch is matched where there is one, and else nothing. -/
theorem exists_run_patch (hpatch : ∀ digits ∈ patch, IsNumeral digits)
    (hrest : EndsVersion patch rest) (hfuel : (patch.elim [] ('.' :: ·)).length ≤ fuel) :
    ∃ found, ∀ previous, (optional patchPattern).run fuel
        ⟨offset, previous, patch.elim [] ('.' :: ·) ++ rest, groups⟩
        (fun r => some (Match.mk ⟨start, r.offset⟩ r.groups)) =
      some ⟨⟨start, offset + (patch.elim [] ('.' :: ·)).length⟩, found⟩ := by
  cases patch with
  | some digits =>
      refine ⟨("patch", ⟨offset + 1, offset + 1 + digits.length⟩) :: groups, fun previous => ?_⟩
      apply run_optional_of_some
      rw [patchPattern, run_seq, Option.elim_some, List.cons_append, run_dot]
      refine run_numeral (hpatch digits rfl) hrest.digit (Nat.le_of_succ_le hfuel) fun _ => ?_
      have hlength : offset + 1 + digits.length = offset + ('.' :: digits).length := by
        rw [List.length_cons]
        omega
      rw [hlength]
  | none =>
      refine ⟨groups, fun previous => run_optional_of_none ?_⟩
      rw [Option.eq_none_iff_forall_not_mem]
      intro m hm
      obtain ⟨r', ⟨r₁, hdot, _, ⟨_, ⟨d, more, hahead, hd, _⟩, _⟩, _⟩, _⟩ := exists_reaches_of_run hm
      have hbehind : rest = '.' :: r₁.ahead := (between_of_reaches_chars hdot).ahead
      rw [hahead] at hbehind
      rw [hrest.patch rfl d more hbehind] at hd
      cases hd

/-- A version is matched to its end. -/
theorem exists_matchHere_version (h : IsVersion major minor patch) (hrest : EndsVersion patch rest)
    (hfuel : (versionText major minor patch).length ≤ fuel) :
    ∃ m, versionPattern.matchHere fuel offset previous (versionText major minor patch ++ rest) =
      some m ∧ m.stop = offset + (versionText major minor patch).length := by
  have hlength : (versionText major minor patch).length =
      major.length + 1 + minor.length + (patch.elim [] ('.' :: ·)).length := by
    simp only [versionText, List.length_append, List.length_cons]
    omega
  have hdigit : (patch.elim [] ('.' :: ·) ++ rest).head?.any Text.isDecimal = false := by
    cases patch with
    | none => exact hrest.digit
    | some digits => rfl
  let stop := offset + major.length + 1 + minor.length
  obtain ⟨found, hfound⟩ := @exists_run_patch _ _ fuel stop offset
    [("minor", ⟨offset + major.length + 1, stop⟩), ("major", ⟨offset, offset + major.length⟩)]
    h.patch hrest (by omega)
  refine ⟨⟨⟨offset, stop + (patch.elim [] ('.' :: ·)).length⟩, found⟩, ?_, ?_⟩
  · rw [versionText, List.append_assoc, List.cons_append, List.append_assoc, matchHere,
      versionPattern_eq, run_seq]
    refine run_numeral h.major rfl (by omega) fun _ => ?_
    rw [run_seq, run_dot, run_seq]
    exact run_numeral h.minor hdigit (by omega) hfound
  · change stop + _ = _
    omega

end Run

theorem versionPattern_beginsWith : BeginsWith Text.isDecimal versionPattern :=
  .seq (.group (.seq (.one fun _ h => h)))

theorem splitOn_versionText (h : IsVersion major minor patch) :
    (versionText major minor patch).splitOn '.' = major :: minor :: patch.toList := by
  rw [versionText, List.splitOn_append_cons_self_of_not_mem h.major.dot_notMem]
  cases patch with
  | none =>
      rw [Option.elim_none, List.append_nil, List.splitOn_eq_singleton h.minor.dot_notMem,
        Option.toList_none]
  | some digits =>
      rw [Option.elim_some, List.splitOn_append_cons_self_of_not_mem h.minor.dot_notMem,
        List.splitOn_eq_singleton (h.patch digits rfl).dot_notMem, Option.toList_some]

variable {front : List Char}

/-- The first version of a text is matched first, and the versions behind it are those of the rest. -/
theorem exists_findAll_version (h : IsVersion major minor patch)
    (hfront : front.any Text.isDecimal = false) (hrest : EndsVersion patch rest) :
    ∃ m, m.text (front ++ (versionText major minor patch ++ rest)) = versionText major minor patch ∧
      versionPattern.findAll (front ++ (versionText major minor patch ++ rest)) =
        m :: (versionPattern.findAll rest).map
          (Match.shift (front ++ versionText major minor patch).length) := by
  generalize htext : versionText major minor patch = written
  have hne : written ≠ [] := by simp [← htext, versionText]
  have hnone : ∀ k < front.length, versionPattern.matchAt (front ++ (written ++ rest)) k = none := by
    intro k hk
    rw [Option.eq_none_iff_forall_not_mem]
    intro m hm
    obtain ⟨r', hr', _⟩ := exists_reaches_of_matchAt hm
    obtain ⟨c, piece, hc, hbetween⟩ := versionPattern_beginsWith hr'
    have hchar : (front ++ (written ++ rest))[k]? = some c :=
      hbetween.getElem?_eq (k := 0) rfl (by simp)
    rw [List.getElem?_append_left hk] at hchar
    exact List.any_eq_false.mp hfront c (List.mem_of_getElem? hchar) hc
  obtain ⟨m, hm, hstop⟩ := @exists_matchHere_version _ _ _ _ (front ++ (written ++ rest)).length
    front.length front.getLast? h hrest (by simp [htext]; omega)
  rw [htext] at hm hstop
  have hmatch : versionPattern.matchAt (front ++ (written ++ rest)) front.length = some m := by
    simpa [matchAt] using hm
  refine ⟨m, ?_, findAll_of_first_match rfl rfl hnone hmatch (by simpa using hstop) hne⟩
  have hstart := start_of_matchAt hmatch
  change Text.slice _ m.start m.stop = written
  rw [hstart, hstop, Text.slice, List.drop_left, Nat.add_sub_cancel_left, List.take_left]

/-- The numbers of a pragma are those of its first version and those of the rest. -/
theorem versionNumbers_append (h : IsVersion major minor patch)
    (hfront : front.any Text.isDecimal = false) (hrest : EndsVersion patch rest) :
    versionNumbers (front ++ (versionText major minor patch ++ rest)) =
      (major :: minor :: patch.toList) ++ versionNumbers rest := by
  obtain ⟨m, htext, hall⟩ := exists_findAll_version h hfront hrest
  rw [versionNumbers, hall, List.flatMap_cons, htext, splitOn_versionText h, List.flatMap_map,
    versionNumbers]
  congr 2
  funext m'
  rw [← List.append_assoc]
  exact congrArg _ (Span.text_shift _ rest m'.span)

/-- The last number of an upper bound that ends the pragma is taken in full, however long it is. -/
theorem mem_versionNumbers_of_end {digits : List Char} (hdigits : ∀ c ∈ digits, Text.isDecimal c) :
    '0' :: digits ∈ versionNumbers (">=0.8.0 <0.0".toList ++ digits) := by
  have hnumeral : ∀ {more : List Char}, (∀ c ∈ more, Text.isDecimal c) → IsNumeral ('0' :: more) :=
    fun hmore => ⟨List.cons_ne_nil _ _, List.forall_mem_cons.mpr ⟨rfl, hmore⟩⟩
  have htext : ">=0.8.0 <0.0".toList ++ digits =
      ">=".toList ++ (versionText ['0'] ['8'] (some ['0']) ++
        (" <".toList ++ (versionText ['0'] ('0' :: digits) none ++ []))) := by
    simp [versionText]
  have hlower : IsVersion ['0'] ['8'] (some ['0']) :=
    ⟨isNumeral_toDigits 0, isNumeral_toDigits 8, fun _ h => Option.some.inj h ▸ isNumeral_toDigits 0⟩
  rw [htext, versionNumbers_append hlower rfl ⟨rfl, by simp⟩,
    versionNumbers_append ⟨hnumeral (by simp), hnumeral hdigits, by simp⟩ rfl ⟨rfl, by simp⟩]
  simp

/-! ## Reading -/

theorem readNumber_of_le {digits : List Char} (h : digits.length ≤ maxDigits) :
    readNumber digits = .ok (number digits) := by
  rw [readNumber, if_neg (Nat.not_lt.mpr h)]

theorem readVersion_of_text {text : List Char} {m : Match} (h : IsVersion major minor patch)
    (hm : m ∈ versionPattern.findAll text) (htext : m.text text = versionText major minor patch)
    (hsize : ∀ digits ∈ major :: minor :: patch.toList, digits.length ≤ maxDigits) :
    readVersion text m = .ok ⟨number major, number minor, number (patch.getD [])⟩ := by
  obtain ⟨major', minor', patch', hmajor, hminor, hpatch, hsplit⟩ := exists_groups_of_version hm
  rw [htext, splitOn_versionText h] at hsplit
  simp only [List.cons.injEq] at hsplit
  obtain ⟨rfl, rfl, hlist⟩ := hsplit
  obtain rfl : patch = patch' := by simpa using congrArg List.head? hlist
  obtain ⟨hsize₁, hsize₂, hsize₃⟩ : major.length ≤ maxDigits ∧ minor.length ≤ maxDigits ∧
      (patch.getD []).length ≤ maxDigits := by
    refine ⟨hsize _ (by simp), hsize _ (by simp), ?_⟩
    cases patch with
    | none => exact Nat.zero_le _
    | some digits => exact hsize _ (by simp)
  rw [readVersion, hmajor, hminor, hpatch, Option.getD_some, Option.getD_some,
    readNumber_of_le hsize₁, readNumber_of_le hsize₂, readNumber_of_le hsize₃]
  rfl

theorem readVersion_shift (before text : List Char) (m : Match) :
    readVersion (before ++ text) (m.shift before.length) = readVersion text m := by
  simp only [readVersion, Match.group?_shift]

/-- The versions of a pragma are its first version and those of the rest. -/
theorem versions_append (h : IsVersion major minor patch)
    (hfront : front.any Text.isDecimal = false) (hrest : EndsVersion patch rest)
    (hsize : ∀ digits ∈ major :: minor :: patch.toList, digits.length ≤ maxDigits) :
    versions (front ++ (versionText major minor patch ++ rest)) = (versions rest).map
      (⟨number major, number minor, number (patch.getD [])⟩ :: ·) := by
  obtain ⟨m, htext, hall⟩ := exists_findAll_version h hfront hrest
  have hread := readVersion_of_text h (hall ▸ List.mem_cons_self) htext hsize
  have hshift : (readVersion (front ++ (versionText major minor patch ++ rest)) ∘
      Match.shift (front ++ versionText major minor patch).length) = readVersion rest := by
    funext m'
    rw [← List.append_assoc]
    exact readVersion_shift _ rest m'
  rw [versions, hall, List.mapM_cons, hread, List.mapM_map, hshift]
  change ((versions rest).bind _) = _
  cases versions rest <;> rfl

/-! ## The floor -/

/-- A version is before the first with checked arithmetic exactly if its two leading numbers are. -/
theorem isBefore_checkedArithmetic (v : Version) :
    v.isBefore Version.checkedArithmetic = decide (v.major = 0 ∧ v.minor < 8) := by
  rw [Bool.eq_iff_iff]
  simp only [Version.isBefore, Bool.or_eq_true, Bool.and_eq_true, decide_eq_true_iff, beq_iff_eq]
  change v.major < 0 ∨ v.major = 0 ∧ (v.minor < 8 ∨ v.minor = 8 ∧ v.patch < 0) ↔ _
  omega

/-- The first version of a pragma is its floor, and the verdict is about it, unless a number behind
it is oversized. -/
theorem versionFloor_of_text {pragma : String} (h : IsVersion major minor patch)
    (hpragma : pragma.toList = front ++ (versionText major minor patch ++ rest))
    (hfront : front.any Text.isDecimal = false) (hrest : EndsVersion patch rest)
    (hsize : ∀ digits ∈ major :: minor :: patch.toList, digits.length ≤ maxDigits)
    (hnumbers : ∀ digits ∈ versionNumbers rest, digits.length ≤ maxDigits) :
    versionFloor (some pragma) =
        .ok (some ⟨number major, number minor, number (patch.getD [])⟩) ∧
      lacksOverflowChecks (some pragma) = .ok (decide (number major = 0 ∧ number minor < 8)) := by
  have hfloor : versionFloor (some pragma) =
      .ok (some ⟨number major, number minor, number (patch.getD [])⟩) := by
    rw [versionFloor, hpragma, versions_append h hfront hrest hsize]
    cases hversions : versions rest with
    | ok later => rfl
    | error e =>
        obtain ⟨digits, hdigits, hlong⟩ := exists_error_versions_iff.mp ⟨e, hversions⟩
        exact absurd (hnumbers digits hdigits) (Nat.not_le.mpr hlong)
  refine ⟨hfloor, ?_⟩
  rw [lacksOverflowChecks, hfloor]
  exact congrArg Except.ok (isBefore_checkedArithmetic _)

/-- The first version that a pragma writes is its floor, whatever stands around it, as long as no
number that follows is oversized, and arithmetic is unchecked exactly for versions below 0.8. The
same holds for a version without a patch, if what follows is no patch. -/
theorem versionFloor_reads_back (a b c : Nat) (front back : String)
    (ha : (Nat.toDigits 10 a).length ≤ maxDigits) (hb : (Nat.toDigits 10 b).length ≤ maxDigits)
    (hc : (Nat.toDigits 10 c).length ≤ maxDigits)
    (hfront : front.toList.any Text.isDecimal = false)
    (hback : back.toList.head?.any Text.isDecimal = false)
    (hnumbers : ∀ digits ∈ versionNumbers back.toList, digits.length ≤ maxDigits) :
    (let pragma := s!"{front}{a}.{b}.{c}{back}"
     versionFloor (some pragma) = .ok (some ⟨a, b, c⟩) ∧
      lacksOverflowChecks (some pragma) = .ok (decide (a = 0 ∧ b < 8))) ∧
    ((∀ d more, back.toList = '.' :: d :: more → Text.isDecimal d = false) →
      let pragma := s!"{front}{a}.{b}{back}"
      versionFloor (some pragma) = .ok (some ⟨a, b, 0⟩) ∧
      lacksOverflowChecks (some pragma) = .ok (decide (a = 0 ∧ b < 8))) := by
  constructor
  · intro pragma
    have hversion : IsVersion (Nat.toDigits 10 a) (Nat.toDigits 10 b) (some (Nat.toDigits 10 c)) :=
      ⟨isNumeral_toDigits a, isNumeral_toDigits b,
        fun _ h => Option.some.inj h ▸ isNumeral_toDigits c⟩
    have hpragma : pragma.toList = front.toList ++ (versionText (Nat.toDigits 10 a)
        (Nat.toDigits 10 b) (some (Nat.toDigits 10 c)) ++ back.toList) := by
      simp [pragma, versionText, ToString.toString]
    have hfloor := versionFloor_of_text hversion hpragma hfront ⟨hback, by simp⟩
      (by simp [ha, hb, hc]) hnumbers
    rwa [Option.getD_some, number_toDigits, number_toDigits, number_toDigits] at hfloor
  · intro hpatch pragma
    have hversion : IsVersion (Nat.toDigits 10 a) (Nat.toDigits 10 b) none :=
      ⟨isNumeral_toDigits a, isNumeral_toDigits b, fun _ h => nomatch h⟩
    have hpragma : pragma.toList = front.toList ++ (versionText (Nat.toDigits 10 a)
        (Nat.toDigits 10 b) none ++ back.toList) := by
      simp [pragma, versionText, ToString.toString]
    have hfloor := versionFloor_of_text hversion hpragma hfront ⟨hback, fun _ => hpatch⟩
      (by simp [ha, hb]) hnumbers
    rwa [Option.getD_none, number_toDigits, number_toDigits] at hfloor

/-- The upper bound of a range does not change its floor. -/
theorem versionFloor_reads_back_range :
    (versionFloor (some ">=0.6.12 <0.8.0.1") = .ok (some ⟨0, 6, 12⟩) ∧
      lacksOverflowChecks (some ">=0.6.12 <0.8.0.1") = .ok true) ∧
    (versionFloor (some ">=0.6 <0.8.0.1") = .ok (some ⟨0, 6, 0⟩) ∧
      lacksOverflowChecks (some ">=0.6 <0.8.0.1") = .ok true) := by
  have hnumbers : ∀ digits ∈ versionNumbers " <0.8.0.1".toList, digits.length ≤ maxDigits := by
    have hshort : (versionNumbers " <0.8.0.1".toList).all (·.length ≤ maxDigits) = true := by
      decide +kernel
    intro digits hdigits
    exact of_decide_eq_true (List.all_eq_true.mp hshort digits hdigits)
  obtain ⟨hfull, hshort⟩ := versionFloor_reads_back 0 6 12 ">=" " <0.8.0.1" (by decide) (by decide)
    (by decide) rfl rfl hnumbers
  exact ⟨hfull, hshort (by simp)⟩

end Source
end SolidityAudit
