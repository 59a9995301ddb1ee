import SolidityAudit.Report.Basic

/-!
# The findings that a report shows

A report chooses among the findings of its outcomes in three stages: repetitions go, then what is not
grave enough, then what lies beyond the limit. The first two stages never lose the last finding of the
highest severity; the third one does, since it looks at the order of the findings alone.
-/

namespace SolidityAudit

theorem Severity.tag_injective {s t : Severity} (h : s.tag = t.tag) : s = t := by
  revert h
  cases s <;> cases t <;> decide

theorem Severity.rank_le_critical (s : Severity) : s.rank ≤ Severity.critical.rank := by
  cases s <;> decide

namespace Finding

theorem severity_eq_of_identityKey_eq {f g : Finding} (h : f.identityKey = g.identityKey) :
    f.severity = g.severity :=
  Severity.tag_injective (congrArg IdentityKey.severity h)

/-! ## Repetitions -/

theorem deduplicateFrom_sublist (seen : List IdentityKey) (findings : List Finding) :
    (deduplicateFrom seen findings).Sublist findings := by
  induction findings generalizing seen with
  | nil => exact List.Sublist.slnil
  | cons f rest ih =>
      unfold deduplicateFrom
      split
      · exact (ih seen).cons f
      · exact (ih (f.identityKey :: seen)).cons_cons f

/-- A finding whose key was not seen before is kept, or another one with its key is. -/
theorem exists_mem_deduplicateFrom {seen : List IdentityKey} {findings : List Finding}
    {f : Finding} (hf : f ∈ findings) (hseen : f.identityKey ∉ seen) :
    ∃ g ∈ deduplicateFrom seen findings, g.identityKey = f.identityKey := by
  induction findings generalizing seen with
  | nil => cases hf
  | cons head rest ih =>
      unfold deduplicateFrom
      split
      · next hhead =>
          rcases List.mem_cons.mp hf with rfl | hrest
          · exact absurd (List.contains_iff_mem.mp hhead) hseen
          · exact ih hrest hseen
      · by_cases hkey : head.identityKey = f.identityKey
        · exact ⟨head, List.mem_cons_self, hkey⟩
        · rcases List.mem_cons.mp hf with rfl | hrest
          · exact absurd rfl hkey
          · have hseen' : f.identityKey ∉ head.identityKey :: seen := by
              simp [hseen, Ne.symm hkey]
            obtain ⟨g, hg, hgkey⟩ := ih hrest hseen'
            exact ⟨g, List.mem_cons_of_mem head hg, hgkey⟩

theorem exists_severity_deduplicate_iff (s : Severity) (findings : List Finding) :
    (∃ f ∈ deduplicate findings, f.severity = s) ↔ ∃ f ∈ findings, f.severity = s := by
  constructor
  · rintro ⟨f, hf, hs⟩
    exact ⟨f, (deduplicateFrom_sublist [] findings).subset hf, hs⟩
  · rintro ⟨f, hf, hs⟩
    obtain ⟨g, hg, hkey⟩ := exists_mem_deduplicateFrom hf List.not_mem_nil
    exact ⟨g, hg, (severity_eq_of_identityKey_eq hkey).trans hs⟩

/-! ## Severity -/

theorem exists_critical_atLeast_iff (s : Severity) (findings : List Finding) :
    (∃ f ∈ atLeast s findings, f.severity = .critical) ↔ ∃ f ∈ findings, f.severity = .critical := by
  constructor
  · rintro ⟨f, hf, hcritical⟩
    exact ⟨f, (List.mem_filter.mp hf).1, hcritical⟩
  · rintro ⟨f, hf, hcritical⟩
    refine ⟨f, List.mem_filter.mpr ⟨hf, ?_⟩, hcritical⟩
    rw [hcritical]
    exact decide_eq_true s.rank_le_critical

/-! ## The limit -/

/-- The place of the first critical finding; the number of findings if there is none. -/
def criticalIndex (findings : List Finding) : Nat :=
  findings.findIdx fun f => f.severity == .critical

theorem criticalIndex_lt_length_iff (findings : List Finding) :
    criticalIndex findings < findings.length ↔ ∃ f ∈ findings, f.severity = .critical := by
  simp [criticalIndex, List.findIdx_lt_length]

theorem exists_critical_take_iff (findings : List Finding) (n : Nat) :
    (∃ f ∈ findings.take n, f.severity = .critical) ↔
      (∃ f ∈ findings, f.severity = .critical) ∧ criticalIndex findings < n := by
  rw [← criticalIndex_lt_length_iff, ← criticalIndex_lt_length_iff]
  simp only [criticalIndex, List.findIdx_take, List.length_take]
  omega

/-- A limit keeps a critical finding exactly if it reaches beyond the first one. -/
theorem exists_critical_limit_iff (max : Option Nat) (findings : List Finding) :
    (∃ f ∈ limit (max.map Int.ofNat) findings, f.severity = .critical) ↔
      (∃ f ∈ findings, f.severity = .critical) ∧
        ∀ n, max = some n → criticalIndex findings < n := by
  cases max with
  | none => simp [limit]
  | some n =>
      have hlimit : limit ((some n).map Int.ofNat) findings = findings.take n := by
        simp [limit]
      rw [hlimit, exists_critical_take_iff]
      simp

end Finding

namespace Report

/-- The findings of the outcomes from which the limit takes the first ones. -/
def candidates (config : ScanConfig) (outcomes : List Outcome) : List Finding :=
  let found := outcomes.flatMap (·.findings)
  Finding.atLeast config.minSeverity
    (if config.deduplicate then Finding.deduplicate found else found)

theorem chooseFindings_eq_limit_candidates (config : ScanConfig) (outcomes : List Outcome) :
    chooseFindings config outcomes =
      Finding.limit (config.maxFindings.map Int.ofNat) (candidates config outcomes) := rfl

theorem exists_critical_candidates_iff (config : ScanConfig) (outcomes : List Outcome) :
    (∃ f ∈ candidates config outcomes, f.severity = .critical) ↔
      ∃ f ∈ outcomes.flatMap (·.findings), f.severity = .critical := by
  unfold candidates
  dsimp only
  rw [Finding.exists_critical_atLeast_iff]
  split
  · exact Finding.exists_severity_deduplicate_iff .critical _
  · rfl

/-- A report shows a critical finding exactly if the detectors found one and the limit reaches beyond
the first critical one among those that are left to choose from. -/
theorem hasCritical_build_iff (u : SourceUnit) (outcomes : List Outcome) (config : ScanConfig) :
    (build u outcomes config).hasCritical = true ↔
      (∃ f ∈ outcomes.flatMap (·.findings), f.severity = .critical) ∧
        ∀ n, config.maxFindings = some n →
          Finding.criticalIndex (candidates config outcomes) < n := by
  have hshown : (build u outcomes config).hasCritical = true ↔
      ∃ f ∈ chooseFindings config outcomes, f.severity = .critical := by
    simp [hasCritical, build, ofFindings]
  rw [hshown, chooseFindings_eq_limit_candidates, Finding.exists_critical_limit_iff,
    exists_critical_candidates_iff]

end Report
end SolidityAudit
