import Mathlib.Data.List.Basic
import Mathlib.Data.Nat.Find
import SolidityAudit.Proofs.ChosenFindings
import SolidityAudit.Proofs.Writable

/-!
# The places of the reported findings

The findings of a report are followed back to their places among all findings of the outcomes. Without
a limit a place is reported exactly if its finding is grave enough and, where repetitions go, no place
before it has the same identity key. A limit keeps the first of these places.
-/

namespace SolidityAudit

namespace Finding

def isFirst (found : List Finding) (p : Finding × Nat) : Bool :=
  !(found.take p.2).any fun g => g.identityKey == p.1.identityKey

theorem isFirst_iff {found : List Finding} {f : Finding} {i : Nat} :
    isFirst found (f, i) = true ↔
      ∀ j < i, ∀ g, found[j]? = some g → g.identityKey ≠ f.identityKey := by
  have htake : isFirst found (f, i) = true ↔
      ∀ g ∈ found.take i, g.identityKey ≠ f.identityKey := by
    simp [isFirst]
  rw [htake]
  constructor
  · intro h j hj g hg
    have hmem : (found.take i)[j]? = some g := by rw [List.getElem?_take_of_lt hj, hg]
    exact h g (List.mem_of_getElem? hmem)
  · intro h g hg
    obtain ⟨j, hj⟩ := List.mem_iff_getElem?.mp hg
    rw [List.getElem?_take] at hj
    split at hj
    · next hlt => exact h j hlt g hj
    · cases hj

theorem isFirst_cons (f : Finding) (rest : List Finding) (p : Finding × Nat) :
    isFirst (f :: rest) (p.1, p.2 + 1) =
      (f.identityKey != p.1.identityKey && isFirst rest p) := by
  simp [isFirst, bne]

/-- Of the keys seen before only those of the findings matter. -/
theorem deduplicateFrom_congr {seen seen' : List IdentityKey} {found : List Finding}
    (h : ∀ f ∈ found, f.identityKey ∈ seen ↔ f.identityKey ∈ seen') :
    deduplicateFrom seen found = deduplicateFrom seen' found := by
  induction found generalizing seen seen' with
  | nil => rfl
  | cons f rest ih =>
      obtain ⟨hf, hrest⟩ := List.forall_mem_cons.mp h
      have hcontains : seen.contains f.identityKey = seen'.contains f.identityKey := by
        rw [Bool.eq_iff_iff, List.contains_iff_mem, List.contains_iff_mem, hf]
      have hcons : ∀ g ∈ rest, g.identityKey ∈ f.identityKey :: seen ↔
          g.identityKey ∈ f.identityKey :: seen' := by
        intro g hg
        rw [List.mem_cons, List.mem_cons, hrest g hg]
      simp only [deduplicateFrom, hcontains, ih hrest, ih hcons]

/-- Deduplication keeps the places whose key is neither seen before nor at an earlier place. -/
theorem deduplicateFrom_eq_filter_zipIdx (seen : List IdentityKey) (found : List Finding) :
    deduplicateFrom seen found =
      (found.zipIdx.filter fun p =>
        !seen.contains p.1.identityKey && isFirst found p).map (·.1) := by
  induction found generalizing seen with
  | nil => rfl
  | cons f rest ih =>
      have htail : ((rest.zipIdx 1).filter fun p =>
            !seen.contains p.1.identityKey && isFirst (f :: rest) p).map (·.1) =
          deduplicateFrom (f.identityKey :: seen) rest := by
        rw [ih, List.zipIdx_succ, List.filter_map, List.map_map]
        congr 1
        apply List.filter_congr
        rintro ⟨g, i⟩ _
        have hcons := isFirst_cons f rest (g, i)
        simp only [Function.comp_apply, hcons, List.contains_cons, Bool.not_or, bne]
        rw [Bool.beq_comm, ← Bool.and_assoc, Bool.and_comm (!seen.contains _)]
      have hhead : isFirst (f :: rest) (f, 0) = true := rfl
      rw [List.zipIdx_cons, List.filter_cons, Nat.zero_add, hhead, Bool.and_true, deduplicateFrom]
      cases hseen : seen.contains f.identityKey with
      | true =>
          have hsame : ∀ g ∈ rest, g.identityKey ∈ seen ↔ g.identityKey ∈ f.identityKey :: seen := by
            intro g _
            have hmem := List.contains_iff_mem.mp hseen
            grind
          simpa using (deduplicateFrom_congr hsame).trans htail.symm
      | false => simpa using htail.symm

end Finding

namespace Report

def shown (config : ScanConfig) (found : List Finding) : List (Finding × Nat) :=
  found.zipIdx.filter fun p => decide (config.minSeverity.rank ≤ p.1.severity.rank) &&
    (!config.deduplicate || Finding.isFirst found p)

theorem candidates_eq_map_shown (config : ScanConfig) (outcomes : List Outcome) :
    candidates config outcomes = (shown config (outcomes.flatMap (·.findings))).map (·.1) := by
  generalize hfound : outcomes.flatMap (·.findings) = found
  have hgrave : ∀ ps : List (Finding × Nat), Finding.atLeast config.minSeverity (ps.map (·.1)) =
      (ps.filter fun p => config.minSeverity.rank ≤ p.1.severity.rank).map (·.1) := by
    intro ps
    rw [Finding.atLeast, List.filter_map]
    rfl
  unfold candidates shown
  simp only [hfound]
  cases config.deduplicate with
  | true =>
      have hunique : Finding.deduplicate found =
          (found.zipIdx.filter (Finding.isFirst found)).map (·.1) := by
        rw [Finding.deduplicate, Finding.deduplicateFrom_eq_filter_zipIdx]
        simp
      rw [if_pos rfl, hunique, hgrave, List.filter_filter]
      simp
  | false =>
      have hall : found = found.zipIdx.map (·.1) := by simp
      rw [if_neg Bool.false_ne_true]
      conv_lhs => rw [hall, hgrave]
      simp

theorem mem_shown_iff {config : ScanConfig} {found : List Finding} {f : Finding} {i : Nat} :
    (f, i) ∈ shown config found ↔
      found[i]? = some f ∧ config.minSeverity.rank ≤ f.severity.rank ∧
        (config.deduplicate = true →
          ∀ j < i, ∀ g, found[j]? = some g → g.identityKey ≠ f.identityKey) := by
  rw [shown, List.mem_filter, List.mem_zipIdx_iff_getElem?, ← Finding.isFirst_iff]
  cases config.deduplicate <;> simp

theorem shown_places_increase (config : ScanConfig) (found : List Finding) :
    (shown config found).Pairwise fun p q => p.2 < q.2 := by
  have hall : (found.zipIdx.map (·.2)).Pairwise (· < ·) := by
    rw [List.zipIdx_map_snd]
    exact List.pairwise_lt_range'
  exact (List.pairwise_map.mp hall).sublist List.filter_sublist

/-- The first place with the identity key of a grave finding is shown. -/
theorem exists_shown_of_key {config : ScanConfig} {found : List Finding} {f : Finding} {i : Nat}
    (hf : found[i]? = some f) (hgrave : config.minSeverity.rank ≤ f.severity.rank) :
    ∃ j ≤ i, ∃ g, (g, j) ∈ shown config found ∧ g.identityKey = f.identityKey := by
  have hfirst : ∃ j, ∃ g : Finding, found[j]? = some g ∧ g.identityKey = f.identityKey :=
    ⟨i, f, hf, rfl⟩
  classical
  obtain ⟨g, hg, hkey⟩ := Nat.find_spec hfirst
  refine ⟨Nat.find hfirst, Nat.find_min' hfirst ⟨f, hf, rfl⟩, g, ?_, hkey⟩
  rw [mem_shown_iff]
  refine ⟨hg, by rwa [Finding.severity_eq_of_identityKey_eq hkey], ?_⟩
  intro _ j hj g' hg' hkey'
  exact Nat.find_min hfirst hj ⟨g', hg', hkey'.trans hkey⟩

/-- Which of the findings `found` are reported under a configuration, and from which places. -/
structure Selection (config : ScanConfig) (found reported : List Finding) (places : List Nat) :
    Prop where
  subsequence : reported.Sublist found
  increasing : places.Pairwise (· < ·)
  taken : places.map (found[·]?) = reported.map some
  grave : ∀ f ∈ reported, config.minSeverity.rank ≤ f.severity.rank
  distinct : config.deduplicate = true →
    reported.Pairwise fun f g => f.identityKey ≠ g.identityKey
  within : ∀ n, config.maxFindings = some n → reported.length ≤ n
  complete : config.maxFindings = none → ∀ i f, found[i]? = some f →
    config.minSeverity.rank ≤ f.severity.rank →
      i ∈ places ∨ config.deduplicate = true ∧
        ∃ j ∈ places, j < i ∧ ∃ g, found[j]? = some g ∧ g.identityKey = f.identityKey

def reportedPlaces (config : ScanConfig) (found : List Finding) : List (Finding × Nat) :=
  match config.maxFindings with
  | none => shown config found
  | some n => (shown config found).take n

theorem reportedPlaces_sublist (config : ScanConfig) (found : List Finding) :
    (reportedPlaces config found).Sublist (shown config found) := by
  unfold reportedPlaces
  split
  · exact List.Sublist.refl _
  · exact List.take_sublist _ _

theorem build_findings_eq_map_reportedPlaces (u : SourceUnit) (outcomes : List Outcome)
    (config : ScanConfig) :
    (build u outcomes config).findings =
      (reportedPlaces config (outcomes.flatMap (·.findings))).map (·.1) := by
  have hchosen : (build u outcomes config).findings = chooseFindings config outcomes := rfl
  rw [hchosen, chooseFindings_eq_limit_candidates, candidates_eq_map_shown]
  unfold reportedPlaces
  cases config.maxFindings with
  | none => rfl
  | some n => simp [Finding.limit]

theorem selection_reportedPlaces (config : ScanConfig) (found : List Finding) :
    Selection config found ((reportedPlaces config found).map (·.1))
      ((reportedPlaces config found).map (·.2)) := by
  have hsub := reportedPlaces_sublist config found
  have hmem : ∀ p ∈ reportedPlaces config found, found[p.2]? = some p.1 ∧
      config.minSeverity.rank ≤ p.1.severity.rank ∧ (config.deduplicate = true →
        ∀ j < p.2, ∀ g, found[j]? = some g → g.identityKey ≠ p.1.identityKey) :=
    fun p hp => mem_shown_iff.mp (hsub.subset hp)
  have hincreasing := (shown_places_increase config found).sublist hsub
  constructor
  case subsequence =>
    have hshown : (shown config found).Sublist found.zipIdx := List.filter_sublist
    simpa using (hsub.trans hshown).map Prod.fst
  case increasing => exact List.pairwise_map.mpr hincreasing
  case taken =>
    rw [List.map_map, List.map_map]
    apply List.map_congr_left
    intro p hp
    exact (hmem p hp).1
  case grave =>
    intro f hf
    obtain ⟨p, hp, rfl⟩ := List.mem_map.mp hf
    exact (hmem p hp).2.1
  case distinct =>
    intro hunique
    rw [List.pairwise_map]
    apply hincreasing.imp_of_mem
    intro p q hp hq hlt
    exact (hmem q hq).2.2 hunique p.2 hlt p.1 (hmem p hp).1
  case within =>
    intro n hn
    rw [reportedPlaces, hn, List.length_map]
    exact List.length_take_le n _
  case complete =>
    intro hnone i f hf hgrave
    have hall : reportedPlaces config found = shown config found := by rw [reportedPlaces, hnone]
    rw [hall]
    by_cases hshown : (f, i) ∈ shown config found
    · exact Or.inl (List.mem_map_of_mem hshown)
    · obtain ⟨j, hj, g, hg, hkey⟩ := exists_shown_of_key hf hgrave
      have hne : j ≠ i := by
        rintro rfl
        obtain rfl : g = f := Option.some.inj ((mem_shown_iff.mp hg).1.symm.trans hf)
        exact hshown hg
      have hunique : config.deduplicate = true := by
        by_contra hall
        exact hshown (mem_shown_iff.mpr ⟨hf, hgrave, fun h => absurd h hall⟩)
      exact Or.inr ⟨hunique, j, List.mem_map_of_mem hg, by omega, g, (mem_shown_iff.mp hg).1, hkey⟩

/-- A report shows findings of its outcomes in their order, each grave enough and none twice where
repetitions go; without a limit it loses only repetitions of what it shows from an earlier place; and
a limit keeps the first findings of the report without one. The report is given exactly if the evidence
that is asked for can be written. -/
theorem build_selects (u : SourceUnit) (outcomes : List Outcome) (config : ScanConfig) :
    (∃ places, Selection config (outcomes.flatMap (·.findings))
      (build u outcomes config).findings places) ∧
    (∀ n, (build u outcomes { config with maxFindings := some n }).findings =
      (build u outcomes { config with maxFindings := none }).findings.take n) ∧
    tryBuild u outcomes config =
      Finding.writing (keyed config outcomes) (build u outcomes config) := by
  refine ⟨?_, ?_, tryBuild_eq u outcomes config⟩
  · rw [build_findings_eq_map_reportedPlaces]
    exact ⟨_, selection_reportedPlaces config _⟩
  · intro n
    rw [build_findings_eq_map_reportedPlaces, build_findings_eq_map_reportedPlaces, ← List.map_take]
    rfl

end Report
end SolidityAudit
