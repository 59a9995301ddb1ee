import SolidityAudit.Proofs.Pattern
import SolidityAudit.Source.Version

/-!
# Oversized numbers in a pragma

The numbers of a version are remembered under labels while it is matched. They are the parts of the
matched text between its dots, so that the versions of a pragma can be read exactly if none of these
parts has too many digits, whether or not it belongs to the first version.
-/

namespace SolidityAudit.Source
open Pattern
open Numeral (maxDigits)

def versionNumbers (pragma : List Char) : List (List Char) :=
  (versionPattern.findAll pragma).flatMap fun m => (m.text pragma).splitOn '.'

variable {text : List Char} {m : Match}

theorem exists_digits_of_reaches_group {label : String} {r r' : Reading}
    (hr : r.ahead = text.drop r.offset)
    (h : (group label (some1 (one Text.isDecimal))).Reaches r r') :
    ∃ digits, '.' ∉ digits ∧ Between digits r r' ∧
      r'.groups = (label, ⟨r.offset, r'.offset⟩) :: r.groups ∧
      (Span.mk r.offset r'.offset).text text = digits := by
  obtain ⟨last, hlast, rfl⟩ := h
  obtain ⟨digits, hdigits, hbetween⟩ := exists_between_of_reaches_some1 hlast
  have hgroups := groups_eq_of_reaches rfl hlast
  refine ⟨digits, ?_, ⟨hbetween.ahead, hbetween.offset⟩, ?_, hbetween.slice_eq hr⟩
  · intro hdot
    exact absurd (hdigits '.' hdot) (by decide)
  · rw [Reading.remember, hgroups]

theorem between_of_reaches_dot {r r' : Reading} (h : (lit ".").Reaches r r') :
    Between ['.'] r r' ∧ r'.groups = r.groups :=
  ⟨between_of_reaches_chars h, groups_eq_of_reaches rfl h⟩

/-- The parts of a matched version between its dots are the numbers that were remembered. -/
theorem exists_groups_of_version (h : m ∈ versionPattern.findAll text) :
    ∃ major minor patch, m.group? text "major" = some major ∧
      m.group? text "minor" = some minor ∧ m.group? text "patch" = patch ∧
      (m.text text).splitOn '.' = major :: minor :: patch.toList := by
  obtain ⟨r', ⟨r₁, hmajor, r₂, hdot, r₃, hminor, hpatch⟩, hstop, hgroups⟩ :=
    exists_reaches_of_mem_findAll h
  obtain ⟨major, hmajorDot, hb₁, hg₁, ht₁⟩ := exists_digits_of_reaches_group rfl hmajor
  obtain ⟨hb₂, hg₂⟩ := between_of_reaches_dot hdot
  have hr₂ := hb₂.drop_eq (hb₁.drop_eq rfl)
  obtain ⟨minor, hminorDot, hb₃, hg₃, ht₃⟩ := exists_digits_of_reaches_group hr₂ hminor
  have htext : ∀ piece, Between piece (.start text m.start) r' → m.text text = piece := by
    intro piece hpiece
    have hslice : m.text text = Text.slice text m.start r'.offset := by rw [← hstop]; rfl
    rw [hslice]
    exact hpiece.slice_eq rfl
  rcases hpatch with ⟨r₄, hdot', hpatch⟩ | hnone
  · obtain ⟨hb₄, hg₄⟩ := between_of_reaches_dot hdot'
    have hr₄ := hb₄.drop_eq (hb₃.drop_eq hr₂)
    obtain ⟨patch, hpatchDot, hb₅, hg₅, ht₅⟩ := exists_digits_of_reaches_group hr₄ hpatch
    rw [hg₅, hg₄, hg₃, hg₂, hg₁] at hgroups
    refine ⟨major, minor, some patch, ?_, ?_, ?_, ?_⟩
    · simp [Match.group?, hgroups, List.lookup_cons, ht₁]
    · simp [Match.group?, hgroups, List.lookup_cons, ht₃]
    · simp [Match.group?, hgroups, ht₅]
    · rw [htext _ (hb₁.trans (hb₂.trans (hb₃.trans (hb₄.trans hb₅)))), List.singleton_append,
        List.singleton_append, List.splitOn_append_cons_self_of_not_mem hmajorDot,
        List.splitOn_append_cons_self_of_not_mem hminorDot, List.splitOn_eq_singleton hpatchDot,
        Option.toList_some]
  · obtain rfl : r' = r₃ := hnone
    rw [hg₃, hg₂, hg₁] at hgroups
    refine ⟨major, minor, none, ?_, ?_, ?_, ?_⟩
    · simp [Match.group?, hgroups, List.lookup_cons, ht₁]
    · simp [Match.group?, hgroups, ht₃]
    · simp [Match.group?, hgroups, List.lookup_cons, Reading.start]
    · rw [htext _ (hb₁.trans (hb₂.trans hb₃)), List.singleton_append,
        List.splitOn_append_cons_self_of_not_mem hmajorDot, List.splitOn_eq_singleton hminorDot,
        Option.toList_none]

/-! ## Failure -/

section
variable {ε α β : Type}

/-- Where the second step fails under a condition that does not depend on the first result, either
step fails the whole. -/
theorem exists_error_bind_iff {x : Except ε α} {f : α → Except ε β} {P : Prop}
    (h : ∀ a, (∃ e, f a = .error e) ↔ P) :
    (∃ e, (x >>= f) = .error e) ↔ (∃ e, x = .error e) ∨ P := by
  cases x with
  | error e => exact ⟨fun _ => .inl ⟨e, rfl⟩, fun _ => ⟨e, rfl⟩⟩
  | ok a =>
    have hok : ¬ ∃ e, (Except.ok a : Except ε α) = .error e := fun ⟨_, he⟩ => nomatch he
    rw [or_iff_right hok]
    exact h a

theorem not_exists_error_pure {a : α} : (∃ e, (pure a : Except ε α) = .error e) ↔ False :=
  ⟨fun ⟨_, he⟩ => (nomatch he), False.elim⟩

theorem exists_error_mapM_iff {f : α → Except ε β} {xs : List α} :
    (∃ e, xs.mapM f = .error e) ↔ ∃ x ∈ xs, ∃ e, f x = .error e := by
  induction xs with
  | nil => simpa using not_exists_error_pure
  | cons x xs ih =>
    rw [List.mapM_cons, exists_error_bind_iff (P := ∃ x ∈ xs, ∃ e, f x = .error e)]
    · simp only [List.mem_cons, exists_eq_or_imp]
    · intro _
      rw [exists_error_bind_iff fun _ => not_exists_error_pure, or_false, ih]

end

theorem exists_error_readNumber_iff {digits : List Char} :
    (∃ e, readNumber digits = .error e) ↔ maxDigits < digits.length := by
  by_cases h : maxDigits < digits.length
  · simp [readNumber, h]
  · simp [readNumber, h]

theorem exists_error_readVersion_iff (h : m ∈ versionPattern.findAll text) :
    (∃ e, readVersion text m = .error e) ↔
      ∃ digits ∈ (m.text text).splitOn '.', maxDigits < digits.length := by
  obtain ⟨major, minor, patch, hmajor, hminor, hpatch, hsplit⟩ := exists_groups_of_version h
  rw [readVersion, hmajor, hminor, hpatch, hsplit,
    exists_error_bind_iff fun _ => exists_error_bind_iff fun _ =>
      exists_error_bind_iff fun _ => not_exists_error_pure]
  simp only [exists_error_readNumber_iff, Option.getD_some, or_false]
  cases patch with
  | none => simp
  | some patch => simp

theorem exists_error_versions_iff :
    (∃ e, versions text = .error e) ↔
      ∃ digits ∈ versionNumbers text, maxDigits < digits.length := by
  rw [versions, exists_error_mapM_iff]
  constructor
  · rintro ⟨m, hm, he⟩
    obtain ⟨digits, hdigits, hlength⟩ := (exists_error_readVersion_iff hm).1 he
    exact ⟨digits, List.mem_flatMap.2 ⟨m, hm, hdigits⟩, hlength⟩
  · rintro ⟨digits, hdigits, hlength⟩
    obtain ⟨m, hm, hpart⟩ := List.mem_flatMap.1 hdigits
    exact ⟨m, hm, (exists_error_readVersion_iff hm).2 ⟨digits, hpart, hlength⟩⟩

/-- It cannot be told whether arithmetic is checked exactly if a number in the pragma is
oversized. -/
theorem exists_error_lacksOverflowChecks_iff {pragma : Option String} :
    (∃ e, lacksOverflowChecks pragma = .error e) ↔
      ∃ p, pragma = some p ∧ ∃ digits ∈ versionNumbers p.toList, maxDigits < digits.length := by
  have hfloor : (∃ e, lacksOverflowChecks pragma = .error e) ↔
      ∃ e, versionFloor pragma = .error e := by
    rw [lacksOverflowChecks, exists_error_bind_iff (P := False), or_false]
    intro floor
    cases floor with
    | none => exact not_exists_error_pure
    | some floor => exact not_exists_error_pure
  rw [hfloor]
  cases pragma with
  | none => simp [versionFloor]
  | some p =>
    rw [versionFloor, exists_error_bind_iff fun _ => not_exists_error_pure, or_false,
      exists_error_versions_iff]
    simp

end SolidityAudit.Source
