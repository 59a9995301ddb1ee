import Mathlib.Algebra.Order.Ring.Nat
import SolidityAudit.Report.RiskScore

/-!
# The risk score follows the findings

Every sum on the way to the score is rounded, so what a finding adds depends on what was added before
it. The score still behaves as an exact one would: rounding never turns the order of two numbers
around and leaves alone what is rounded already, so a sum does not decrease with one more finding,
wherever it stands in the order, and a graver finding at the head weighs at least as much as the one
it moves behind. The order itself is the order of the severities alone.
-/

namespace SolidityAudit

namespace Binary64

variable {m n d : Nat}

theorem div_le_roundDiv (n d : Nat) : n / d ≤ roundDiv n d := by
  unfold roundDiv
  dsimp only
  split <;> omega

theorem roundDiv_le_div_add_one (n d : Nat) : roundDiv n d ≤ n / d + 1 := by
  unfold roundDiv
  dsimp only
  split <;> omega

theorem roundDiv_mul_of_dvd (hd : 0 < d) (h : d ∣ n) : roundDiv n d * d = n := by
  have hmod : n % d = 0 := Nat.mod_eq_zero_of_dvd h
  have hdiv : roundDiv n d = n / d := by simp [roundDiv, hmod, Nat.ne_of_lt hd]
  rw [hdiv, Nat.div_mul_cancel h]

theorem roundDiv_mono (h : m ≤ n) : roundDiv m d ≤ roundDiv n d := by
  have hdiv : m / d ≤ n / d := Nat.div_le_div_right h
  by_cases hlt : m / d < n / d
  · have hm := roundDiv_le_div_add_one m d
    have hn := div_le_roundDiv n d
    omega
  · have heq : m / d = n / d := by omega
    have hmod : m % d ≤ n % d := by
      have hm := Nat.div_add_mod m d
      have hn := Nat.div_add_mod n d
      rw [heq] at hm
      omega
    unfold roundDiv
    rw [heq]
    simp only [gt_iff_lt, Bool.or_eq_true, decide_eq_true_eq, Bool.and_eq_true, beq_iff_eq]
    split_ifs <;> omega

end Binary64

theorem Severity.rank_injective {s t : Severity} (h : s.rank = t.rank) : s = t := by
  revert h
  cases s <;> cases t <;> decide

namespace RiskScore
open Binary64

/-! ## Numbers of 53 bits -/

variable {m n : Nat}

def IsExact (n : Nat) : Prop := 2 ^ (n.log2 - 52) ∣ n

theorem toBits53_eq (n : Nat) :
    toBits53 n = roundDiv n (2 ^ (n.log2 - 52)) * 2 ^ (n.log2 - 52) := rfl

theorem IsExact.toBits53_eq (h : IsExact n) : toBits53 n = n :=
  roundDiv_mul_of_dvd (Nat.two_pow_pos _) h

theorem isExact_of_log2_le {k : Nat} (hlog : n.log2 ≤ k + 52) (h : 2 ^ k ∣ n) : IsExact n :=
  (Nat.pow_dvd_pow 2 (by omega)).trans h

theorem toBits53_le_two_pow (n : Nat) : toBits53 n ≤ 2 ^ (n.log2 + 1) := by
  have hpos : 0 < 2 ^ (n.log2 - 52) := Nat.two_pow_pos _
  have hdvd : 2 ^ (n.log2 - 52) ∣ 2 ^ (n.log2 + 1) := Nat.pow_dvd_pow 2 (by omega)
  calc toBits53 n
      ≤ roundDiv (2 ^ (n.log2 + 1)) (2 ^ (n.log2 - 52)) * 2 ^ (n.log2 - 52) :=
        Nat.mul_le_mul_right _ (roundDiv_mono (Nat.le_of_lt Nat.lt_log2_self))
    _ = 2 ^ (n.log2 + 1) := roundDiv_mul_of_dvd hpos hdvd

theorem two_pow_le_toBits53 (hn : n ≠ 0) : 2 ^ n.log2 ≤ toBits53 n := by
  have hpos : 0 < 2 ^ (n.log2 - 52) := Nat.two_pow_pos _
  have hdvd : 2 ^ (n.log2 - 52) ∣ 2 ^ n.log2 := Nat.pow_dvd_pow 2 (by omega)
  calc 2 ^ n.log2
      = roundDiv (2 ^ n.log2) (2 ^ (n.log2 - 52)) * 2 ^ (n.log2 - 52) :=
        (roundDiv_mul_of_dvd hpos hdvd).symm
    _ ≤ toBits53 n := Nat.mul_le_mul_right _ (roundDiv_mono (Nat.log2_self_le hn))

theorem log2_le_log2_of_le (h : m ≤ n) : m.log2 ≤ n.log2 := by
  by_cases hm : m = 0
  · simp [hm]
  · exact (Nat.le_log2 (by omega)).mpr ((Nat.log2_self_le hm).trans h)

/-- Numbers with the same first bit are rounded to multiples of the same number. Otherwise a power of
two lies between them, and rounding crosses none. -/
theorem toBits53_mono (h : m ≤ n) : toBits53 m ≤ toBits53 n := by
  have hlog := log2_le_log2_of_le h
  by_cases heq : m.log2 = n.log2
  · rw [toBits53_eq, toBits53_eq, heq]
    exact Nat.mul_le_mul_right _ (roundDiv_mono h)
  · have hn : n ≠ 0 := by
      rintro rfl
      rw [Nat.le_zero.mp h] at heq
      exact heq rfl
    calc toBits53 m
        ≤ 2 ^ (m.log2 + 1) := toBits53_le_two_pow m
      _ ≤ 2 ^ n.log2 := Nat.pow_le_pow_right (by decide) (by omega)
      _ ≤ toBits53 n := two_pow_le_toBits53 hn

theorem isExact_toBits53 (n : Nat) : IsExact (toBits53 n) := by
  have hle := toBits53_le_two_pow n
  by_cases heq : toBits53 n = 2 ^ (n.log2 + 1)
  · rw [IsExact, heq, Nat.log2_two_pow]
    exact Nat.pow_dvd_pow 2 (by omega)
  · have hlog : (toBits53 n).log2 ≤ n.log2 := by
      by_cases hzero : toBits53 n = 0
      · simp [hzero]
      · have hlt := (Nat.log2_lt hzero).mpr (Nat.lt_of_le_of_ne hle heq)
        omega
    exact isExact_of_log2_le (k := n.log2 - 52) (by omega) ⟨_, Nat.mul_comm _ _⟩

/-! ## What the other findings add -/

variable {s : Severity} {total total' : Nat}

theorem addShare_mono (s : Severity) (h : total ≤ total') : addShare total s ≤ addShare total' s :=
  toBits53_mono (Nat.add_le_add_right h _)

theorem le_addShare (s : Severity) (h : IsExact total) : total ≤ addShare total s := by
  calc total
      = toBits53 total := h.toBits53_eq.symm
    _ ≤ addShare total s := toBits53_mono (Nat.le_add_right _ _)

theorem foldl_addShare_mono (others : List Severity) (h : total ≤ total') :
    others.foldl addShare total ≤ others.foldl addShare total' := by
  induction others generalizing total total' with
  | nil => exact h
  | cons s others ih => exact ih (addShare_mono s h)

theorem isExact_foldl_addShare (others : List Severity) (h : IsExact total) :
    IsExact (others.foldl addShare total) := by
  induction others generalizing total with
  | nil => exact h
  | cons s others ih => exact ih (isExact_toBits53 _)

/-- The total at the place of the new finding is rounded already, so one more share does not decrease
it, and neither do the shares that follow. -/
theorem foldl_addShare_insert (s : Severity) (graver lesser : List Severity) (h : IsExact total) :
    (graver ++ lesser).foldl addShare total ≤ (graver ++ s :: lesser).foldl addShare total := by
  rw [List.foldl_append, List.foldl_append, List.foldl_cons]
  exact foldl_addShare_mono lesser (le_addShare s (isExact_foldl_addShare graver h))

/-! ## The score of a sorted list -/

theorem isExact_zero : IsExact 0 := Nat.dvd_zero _

theorem isExact_weight (s : Severity) : IsExact (weight s) := by
  cases s <;> exact isExact_of_log2_le (k := 57) (by decide) (Nat.dvd_mul_left _ _)

theorem weight_le_of_rank_le {s t : Severity} (h : s.rank ≤ t.rank) : weight s ≤ weight t := by
  revert h
  cases s <;> cases t <;> decide

theorem weight_le (s : Severity) : weight s ≤ 10 * unit := by
  cases s <;> decide

def tenthsWith (worst : Severity) (added : Nat) : Nat :=
  roundDiv (10 * min (10 * unit) (toBits53 (weight worst + added))) unit

theorem unit_mul_tenthsWith_zero (worst : Severity) :
    unit * tenthsWith worst 0 = 10 * weight worst := by
  have hdvd : unit ∣ 10 * weight worst := by cases worst <;> decide
  rw [tenthsWith, Nat.add_zero, (isExact_weight worst).toBits53_eq, Nat.min_eq_right (weight_le worst),
    Nat.mul_comm]
  exact roundDiv_mul_of_dvd (by decide) hdvd

theorem tenthsWith_mono {worst worst' : Severity} {added added' : Nat}
    (hworst : worst.rank ≤ worst'.rank) (hadded : added ≤ added') :
    tenthsWith worst added ≤ tenthsWith worst' added' := by
  have hsum : toBits53 (weight worst + added) ≤ toBits53 (weight worst' + added') :=
    toBits53_mono (Nat.add_le_add (weight_le_of_rank_le hworst) hadded)
  exact roundDiv_mono (by omega)

theorem tenthsWith_le (worst : Severity) (added : Nat) : tenthsWith worst added ≤ 100 := by
  calc tenthsWith worst added
      ≤ roundDiv (10 * (10 * unit)) unit := roundDiv_mono (by omega)
    _ = 100 := by decide

def Descending (severities : List Severity) : Prop :=
  severities.Pairwise fun a b => b.rank ≤ a.rank

theorem tenthsOfSorted_le (severities : List Severity) : tenthsOfSorted severities ≤ 100 := by
  cases severities with
  | nil => exact Nat.zero_le _
  | cons worst others => exact tenthsWith_le worst _

theorem weight_le_tenthsOfSorted {severities : List Severity} (hsorted : Descending severities)
    (hs : s ∈ severities) : 10 * weight s ≤ unit * tenthsOfSorted severities := by
  cases severities with
  | nil => cases hs
  | cons worst others =>
      have hrank : s.rank ≤ worst.rank := by
        rcases List.mem_cons.mp hs with rfl | hs
        · exact Nat.le_refl _
        · exact (List.pairwise_cons.mp hsorted).1 s hs
      rw [← unit_mul_tenthsWith_zero]
      exact Nat.mul_le_mul_left _ (tenthsWith_mono hrank (Nat.zero_le _))

theorem tenthsOfSorted_insert {graver lesser : List Severity}
    (hsorted : Descending (graver ++ s :: lesser)) :
    tenthsOfSorted (graver ++ lesser) ≤ tenthsOfSorted (graver ++ s :: lesser) := by
  cases graver with
  | cons worst graver =>
      exact tenthsWith_mono (Nat.le_refl _) (foldl_addShare_insert s graver lesser isExact_zero)
  | nil =>
      cases lesser with
      | nil => exact Nat.zero_le _
      | cons worst lesser =>
          -- the gravest finding so far moves among those that add their share
          have hrank : worst.rank ≤ s.rank := (List.pairwise_cons.mp hsorted).1 worst (by simp)
          exact tenthsWith_mono hrank (foldl_addShare_insert worst [] lesser isExact_zero)

/-! ## Findings in any order -/

variable {severities severities' : List Severity}

theorem gravestFirst_trans (a b c : Severity) (hab : decide (b.rank ≤ a.rank) = true)
    (hbc : decide (c.rank ≤ b.rank) = true) : decide (c.rank ≤ a.rank) = true := by
  simp only [decide_eq_true_eq] at hab hbc ⊢
  omega

theorem gravestFirst_total (a b : Severity) :
    (decide (b.rank ≤ a.rank) || decide (a.rank ≤ b.rank)) = true := by
  simp only [Bool.or_eq_true, decide_eq_true_eq]
  omega

theorem descending_bySeverity (severities : List Severity) : Descending (bySeverity severities) :=
  (List.pairwise_mergeSort gravestFirst_trans gravestFirst_total severities).imp of_decide_eq_true

theorem bySeverity_eq_of_perm (h : severities.Perm severities') :
    bySeverity severities = bySeverity severities' := by
  have hperm : (bySeverity severities).Perm (bySeverity severities') :=
    (List.mergeSort_perm _ _).trans (h.trans (List.mergeSort_perm _ _).symm)
  refine List.Perm.eq_of_pairwise ?_ (descending_bySeverity severities)
    (descending_bySeverity severities') hperm
  intro a b _ _ hab hba
  exact Severity.rank_injective (Nat.le_antisymm hba hab)

theorem tenths_eq_of_perm {findings others : List Finding} (h : others.Perm findings) :
    tenths others = tenths findings := by
  rw [tenths, bySeverity_eq_of_perm (h.map _), tenths]

theorem tenths_le_cons (f : Finding) (findings : List Finding) :
    tenths findings ≤ tenths (f :: findings) := by
  obtain ⟨graver, lesser, hwith, hwithout, _⟩ := List.mergeSort_cons gravestFirst_trans
    gravestFirst_total f.severity (findings.map (·.severity))
  have hsorted := descending_bySeverity (f.severity :: findings.map (·.severity))
  rw [bySeverity, hwith] at hsorted
  rw [tenths, tenths, List.map_cons, bySeverity, bySeverity, hwith, hwithout]
  exact tenthsOfSorted_insert hsorted

theorem weight_le_tenths {findings : List Finding} {f : Finding} (hf : f ∈ findings) :
    10 * weight f.severity ≤ unit * tenths findings :=
  weight_le_tenthsOfSorted (descending_bySeverity _)
    ((List.mergeSort_perm _ _).mem_iff.mpr (List.mem_map_of_mem hf))

/-- The score goes from 0.0 for no finding to 10.0, which every critical finding brings about. It is at
least what its worst finding scores alone, whatever the order of the findings, and one more finding
anywhere among them does not decrease it. -/
theorem tenths_follow_findings (findings : List Finding) :
    tenths findings ≤ 100 ∧
    ((∃ f ∈ findings, f.severity = .critical) → tenths findings = 100) ∧
    (∀ f ∈ findings, 10 * weight f.severity ≤ unit * tenths findings) ∧
    (∀ others : List Finding, others.Perm findings → tenths others = tenths findings) ∧
    (∀ before after f, tenths (before ++ after) ≤ tenths (before ++ f :: after)) ∧
    tenths [] = 0 ∧ ∀ f, unit * tenths [f] = 10 * weight f.severity := by
  refine ⟨tenthsOfSorted_le _, ?_, fun f hf => weight_le_tenths hf, fun others h =>
    tenths_eq_of_perm h, ?_, ?_, ?_⟩
  · rintro ⟨f, hf, hcritical⟩
    have hweight := weight_le_tenths hf
    rw [hcritical] at hweight
    have hfull : 10 * weight .critical = unit * 100 := by decide
    rw [hfull] at hweight
    exact Nat.le_antisymm (tenthsOfSorted_le _) (Nat.le_of_mul_le_mul_left hweight (by decide))
  · intro before after f
    calc tenths (before ++ after)
        ≤ tenths (f :: (before ++ after)) := tenths_le_cons f _
      _ = tenths (before ++ f :: after) := (tenths_eq_of_perm List.perm_middle).symm
  · rw [tenths, List.map_nil, bySeverity, List.mergeSort_nil]
    rfl
  · intro f
    rw [tenths, List.map_singleton, bySeverity, List.mergeSort_singleton]
    exact unit_mul_tenthsWith_zero f.severity

/-- A second finding of high severity and one for information nudge the score of 7.5. -/
example : tenthsOfSorted [.high, .high, .info] = 79 := by decide

/-- Three findings of which the second is critical, in two orders. -/
theorem tenths_follow_findings_critical :
    let finding (s : Severity) : Finding :=
      { severity := s, title := "", description := "", vulnerability := .reentrancy,
        contractName := "" }
    let findings := [finding .info, finding .critical, finding .high]
    (∃ f ∈ findings, f.severity = .critical) ∧ tenths findings = 100 ∧
      findings.reverse.Perm findings ∧ tenths findings.reverse = 100 ∧
      10 * weight .high ≤ unit * tenths findings := by
  intro finding findings
  have hcritical : ∃ f ∈ findings, f.severity = .critical := ⟨finding .critical, by simp [findings], rfl⟩
  have hperm : findings.reverse.Perm findings := List.reverse_perm findings
  obtain ⟨_, hfull, hworst, hany, _⟩ := tenths_follow_findings findings
  exact ⟨hcritical, hfull hcritical, hperm, (hany _ hperm).trans (hfull hcritical),
    hworst (finding .high) (by simp [findings])⟩

end RiskScore
end SolidityAudit
