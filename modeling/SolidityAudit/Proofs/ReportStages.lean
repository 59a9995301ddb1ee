import SolidityAudit.Proofs.ReportedFindings
import SolidityAudit.Proofs.Writable

/-!
# The order of the stages of a report

Repetitions go and then what is not grave enough. Findings with one identity key have one severity, so
the two stages can change places: a finding that is not grave enough hides no grave one. A finding that
repeats another can also be dropped early, by whoever passes the findings on, since what was dropped
leaves its key behind.

Where some evidence cannot be written, dropping repetitions fails. It fails in whatever part of the
findings it is done first, but not if the findings in question have gone before for their severity.
-/

namespace SolidityAudit

namespace Finding

variable {seen seen' : List IdentityKey} {f : Finding} {keep : Finding → Bool}

/-! ## One step of the scan -/

theorem deduplicateFrom_cons_of_mem (h : f.identityKey ∈ seen) (rest : List Finding) :
    deduplicateFrom seen (f :: rest) = deduplicateFrom seen rest :=
  if_pos (List.contains_iff_mem.mpr h)

theorem deduplicateFrom_cons_of_notMem (h : f.identityKey ∉ seen) (rest : List Finding) :
    deduplicateFrom seen (f :: rest) = f :: deduplicateFrom (f.identityKey :: seen) rest :=
  if_neg (mt List.contains_iff_mem.mp h)

/-! ## Selections and repetitions -/

/-- A selection that looks at identity keys only can be made before repetitions go. -/
theorem filter_deduplicateFrom (hkeep : ∀ f g, f.identityKey = g.identityKey → keep f = keep g)
    (seen : List IdentityKey) (found : List Finding) :
    (deduplicateFrom seen found).filter keep = deduplicateFrom seen (found.filter keep) := by
  induction found generalizing seen with
  | nil => rfl
  | cons f rest ih =>
      by_cases hseen : f.identityKey ∈ seen
      · rw [deduplicateFrom_cons_of_mem hseen, ih]
        by_cases hf : keep f = true
        · rw [List.filter_cons_of_pos hf, deduplicateFrom_cons_of_mem hseen]
        · rw [List.filter_cons_of_neg hf]
      · rw [deduplicateFrom_cons_of_notMem hseen]
        by_cases hf : keep f = true
        · rw [List.filter_cons_of_pos hf, List.filter_cons_of_pos hf, ih,
            deduplicateFrom_cons_of_notMem hseen]
        · -- The key of `f` was seen by one scan only, and no finding that is left has it.
          rw [List.filter_cons_of_neg hf, List.filter_cons_of_neg hf, ih]
          apply deduplicateFrom_congr
          intro g hg
          have hne : g.identityKey ≠ f.identityKey := by
            intro heq
            have hgkeep := (List.mem_filter.mp hg).2
            rw [hkeep g f heq] at hgkeep
            exact hf hgkeep
          rw [List.mem_cons, or_iff_right hne]

theorem atLeast_deduplicate (s : Severity) (found : List Finding) :
    atLeast s (deduplicate found) = deduplicate (atLeast s found) := by
  apply filter_deduplicateFrom
  intro f g hkey
  rw [severity_eq_of_identityKey_eq hkey]

/-! ## Repetitions that go early -/

/-- Findings whose repetitions went before, with fewer keys seen, are left with the same ones. -/
theorem deduplicateFrom_deduplicateFrom (h : seen' ⊆ seen) (found : List Finding) :
    deduplicateFrom seen (deduplicateFrom seen' found) = deduplicateFrom seen found := by
  induction found generalizing seen seen' with
  | nil => rfl
  | cons f rest ih =>
      by_cases hearly : f.identityKey ∈ seen'
      · rw [deduplicateFrom_cons_of_mem hearly, deduplicateFrom_cons_of_mem (h hearly), ih h]
      · rw [deduplicateFrom_cons_of_notMem hearly]
        by_cases hseen : f.identityKey ∈ seen
        · rw [deduplicateFrom_cons_of_mem hseen, deduplicateFrom_cons_of_mem hseen]
          exact ih (List.cons_subset.mpr ⟨hseen, h⟩)
        · rw [deduplicateFrom_cons_of_notMem hseen, deduplicateFrom_cons_of_notMem hseen]
          rw [ih (List.cons_subset_cons _ h)]

/-- The scan of a list goes on into the next one with the keys of the first. -/
theorem deduplicateFrom_append (seen : List IdentityKey) (xs ys : List Finding) :
    deduplicateFrom seen (xs ++ ys) =
      deduplicateFrom seen xs ++ deduplicateFrom (xs.map identityKey ++ seen) ys := by
  induction xs generalizing seen with
  | nil => rfl
  | cons f rest ih =>
      rw [List.cons_append]
      by_cases hseen : f.identityKey ∈ seen
      · rw [deduplicateFrom_cons_of_mem hseen, deduplicateFrom_cons_of_mem hseen, ih]
        congr 1
        apply deduplicateFrom_congr
        intro g _
        simp only [List.map_cons, List.cons_append, List.mem_cons, List.mem_append]
        constructor
        · exact Or.inr
        · rintro (heq | hmem)
          · exact Or.inr (heq ▸ hseen)
          · exact hmem
      · rw [deduplicateFrom_cons_of_notMem hseen, deduplicateFrom_cons_of_notMem hseen, ih,
          List.cons_append]
        congr 2
        apply deduplicateFrom_congr
        intro g _
        simp only [List.map_cons, List.cons_append, List.mem_cons, List.mem_append]
        exact or_left_comm

theorem mem_map_identityKey_deduplicate_iff {key : IdentityKey} {found : List Finding} :
    key ∈ (deduplicate found).map identityKey ↔ key ∈ found.map identityKey := by
  constructor
  · intro h
    exact ((deduplicateFrom_sublist [] found).map identityKey).subset h
  · intro h
    obtain ⟨f, hf, rfl⟩ := List.mem_map.mp h
    obtain ⟨g, hg, hkey⟩ := exists_mem_deduplicateFrom hf List.not_mem_nil
    exact List.mem_map.mpr ⟨g, hg, hkey⟩

/-- Where a list is followed by another one, its repetitions may go before. -/
theorem deduplicateFrom_deduplicate_append (seen : List IdentityKey) (xs ys : List Finding) :
    deduplicateFrom seen (deduplicate xs ++ ys) = deduplicateFrom seen (xs ++ ys) := by
  rw [deduplicateFrom_append, deduplicateFrom_append, deduplicate,
    deduplicateFrom_deduplicateFrom (List.nil_subset seen)]
  congr 1
  apply deduplicateFrom_congr
  intro g _
  rw [List.mem_append, List.mem_append]
  exact or_congr_left mem_map_identityKey_deduplicate_iff

end Finding

/-! ## Repetitions that a detector drops itself -/

namespace Outcome

def dropRepetitions (dropped : Outcome → Bool) (o : Outcome) : Outcome :=
  if dropped o then { o with findings := Finding.deduplicate o.findings } else o

variable (dropped : Outcome → Bool) (o : Outcome)

theorem detectorName_dropRepetitions : (o.dropRepetitions dropped).detectorName = o.detectorName := by
  unfold dropRepetitions
  split <;> rfl

theorem status_dropRepetitions : (o.dropRepetitions dropped).status = o.status := by
  unfold dropRepetitions
  split <;> rfl

theorem error_dropRepetitions : (o.dropRepetitions dropped).error = o.error := by
  unfold dropRepetitions
  split <;> rfl

/-- The findings of the outcomes, some of which have dropped their repetitions. -/
theorem deduplicateFrom_flatMap_dropRepetitions (seen : List IdentityKey)
    (outcomes : List Outcome) :
    Finding.deduplicateFrom seen ((outcomes.map (dropRepetitions dropped)).flatMap (·.findings)) =
      Finding.deduplicateFrom seen (outcomes.flatMap (·.findings)) := by
  induction outcomes generalizing seen with
  | nil => rfl
  | cons o rest ih =>
      have hfirst : ∀ ys, Finding.deduplicateFrom seen ((o.dropRepetitions dropped).findings ++ ys) =
          Finding.deduplicateFrom seen (o.findings ++ ys) := by
        intro ys
        unfold dropRepetitions
        split
        · exact Finding.deduplicateFrom_deduplicate_append seen o.findings ys
        · rfl
      rw [List.map_cons, List.flatMap_cons, List.flatMap_cons, hfirst, Finding.deduplicateFrom_append,
        ih, ← Finding.deduplicateFrom_append]

end Outcome

namespace Report

theorem failures_map {change : Outcome → Outcome} (hstatus : ∀ o, (change o).status = o.status)
    (outcomes : List Outcome) : failures (outcomes.map change) = (failures outcomes).map change := by
  unfold failures
  rw [List.filter_map]
  simp only [Function.comp_def, hstatus]

theorem statusOf_map {change : Outcome → Outcome} (hstatus : ∀ o, (change o).status = o.status)
    (outcomes : List Outcome) : statusOf (outcomes.map change) = statusOf outcomes := by
  unfold statusOf
  simp only [failures_map hstatus, List.isEmpty_map, List.length_map]

theorem build_map_dropRepetitions (dropped : Outcome → Bool) (u : SourceUnit)
    (outcomes : List Outcome) {config : ScanConfig} (hconfig : config.deduplicate = true) :
    build u (outcomes.map (·.dropRepetitions dropped)) config =
      { build u outcomes config with outcomes := outcomes.map (·.dropRepetitions dropped) } := by
  have hstatus := fun o => Outcome.status_dropRepetitions dropped o
  have hchosen : chooseFindings config (outcomes.map (·.dropRepetitions dropped)) =
      chooseFindings config outcomes := by
    simp only [chooseFindings, Finding.deduplicate, hconfig, if_true,
      Outcome.deduplicateFrom_flatMap_dropRepetitions]
  have hnote : ∀ o, noteOn (o.dropRepetitions dropped) = noteOn o := by
    intro o
    rw [noteOn, noteOn, Outcome.detectorName_dropRepetitions, Outcome.error_dropRepetitions]
  simp only [build, ofFindings, hchosen, failures_map hstatus, statusOf_map hstatus, List.map_map,
    Function.comp_def, Outcome.detectorName_dropRepetitions, hnote]

end Report

/-! ## Evidence that cannot be written -/

namespace Finding

theorem tryDeduplicate_append (found more : List Finding) :
    tryDeduplicate (found ++ more) =
      tryDeduplicate found >>= fun unique => tryDeduplicate (unique ++ more) := by
  have hvalue : deduplicate (deduplicate found ++ more) = deduplicate (found ++ more) :=
    deduplicateFrom_deduplicate_append [] found more
  rw [tryDeduplicate_eq, tryDeduplicate_eq,
    writing_bind (fun unique => tryDeduplicate (unique ++ more)) (tryDeduplicate_eq _), hvalue,
    writing_eq_writing_iff]
  have hunique : ∀ f ∈ deduplicate found, f ∈ found :=
    fun f hf => (deduplicateFrom_sublist [] found).subset hf
  constructor
  · intro h f hf
    rcases List.mem_append.mp hf with hf | hf
    · exact h f (List.mem_append_left more hf)
    · rcases List.mem_append.mp hf with hf | hf
      · exact h f (List.mem_append_left more (hunique f hf))
      · exact h f (List.mem_append_right found hf)
  · intro h f hf
    rcases List.mem_append.mp hf with hf | hf
    · exact h f (List.mem_append_left _ hf)
    · exact h f (List.mem_append_right found (List.mem_append_right _ hf))

theorem tryDeduplicate_idempotent (found : List Finding) :
    tryDeduplicate found >>= tryDeduplicate = tryDeduplicate found := by
  have happend := tryDeduplicate_append found []
  simpa only [List.append_nil] using happend.symm

/-- What is not grave enough may go before the repetitions or behind them, unless evidence that cannot
be written goes with it and all that stays can be written. -/
theorem writing_atLeast_iff {β : Type} (g : List Finding → β) (s : Severity) (found : List Finding) :
    writing found (g (atLeast s (deduplicate found))) =
        writing (atLeast s found) (g (deduplicate (atLeast s found))) ↔
      ((∀ f ∈ atLeast s found, f.isWritable = true) → ∀ f ∈ found, f.isWritable = true) := by
  rw [atLeast_deduplicate, writing_eq_writing_iff]
  constructor
  · exact Iff.mpr
  · intro h
    exact ⟨fun hall f hf => hall f (List.mem_of_mem_filter hf), h⟩

end Finding

namespace Outcome

variable (dropped : Outcome → Bool)

def tryDropRepetitions (o : Outcome) : Except WriteError Outcome := do
  if dropped o then return { o with findings := ← Finding.tryDeduplicate o.findings }
  else return o

theorem tryDropRepetitions_eq (o : Outcome) :
    o.tryDropRepetitions dropped =
      Finding.writing (if dropped o then o.findings else []) (o.dropRepetitions dropped) := by
  unfold tryDropRepetitions dropRepetitions
  split
  · rw [Finding.tryDeduplicate_eq]
    exact Finding.map_writing _
  · rfl

theorem mapM_tryDropRepetitions_eq (outcomes : List Outcome) :
    outcomes.mapM (·.tryDropRepetitions dropped) =
      Finding.writing (outcomes.flatMap fun o => if dropped o then o.findings else [])
        (outcomes.map (·.dropRepetitions dropped)) := by
  induction outcomes with
  | nil => rfl
  | cons o rest ih =>
      rw [List.mapM_cons, tryDropRepetitions_eq, ih]
      exact Finding.writing_bind _ (Finding.map_writing _)

/-- No evidence is out of sight if some detectors drop their repetitions: a finding stands in what is
looked at early or in what is left. -/
theorem writable_iff_of_dropRepetitions (outcomes : List Outcome) :
    (∀ f ∈ (outcomes.flatMap fun o => if dropped o then o.findings else []) ++
        (outcomes.map (·.dropRepetitions dropped)).flatMap (·.findings), f.isWritable = true) ↔
      ∀ f ∈ outcomes.flatMap (·.findings), f.isWritable = true := by
  have hleft : ∀ o : Outcome, (o.dropRepetitions dropped).findings ⊆ o.findings := by
    intro o
    unfold dropRepetitions
    split
    · exact (Finding.deduplicateFrom_sublist [] o.findings).subset
    · exact List.Subset.refl _
  constructor
  · intro h f hf
    obtain ⟨o, ho, hfo⟩ := List.mem_flatMap.mp hf
    apply h f
    by_cases hdropped : dropped o = true
    · exact List.mem_append_left _ (List.mem_flatMap.mpr ⟨o, ho, by rwa [if_pos hdropped]⟩)
    · apply List.mem_append_right
      have hkept : o.dropRepetitions dropped = o := if_neg hdropped
      exact List.mem_flatMap.mpr ⟨o, List.mem_map.mpr ⟨o, ho, hkept⟩, hfo⟩
  · intro h f hf
    rcases List.mem_append.mp hf with hf | hf
    · obtain ⟨o, ho, hfo⟩ := List.mem_flatMap.mp hf
      apply h f
      split at hfo
      · exact List.mem_flatMap.mpr ⟨o, ho, hfo⟩
      · cases hfo
    · obtain ⟨_, ho', hfo⟩ := List.mem_flatMap.mp hf
      obtain ⟨o, ho, rfl⟩ := List.mem_map.mp ho'
      exact h f (List.mem_flatMap.mpr ⟨o, ho, hleft o hfo⟩)

end Outcome

namespace Report

/-- The severity and the repetitions can be looked at in either order exactly if, where some evidence
cannot be written, some of it is grave enough to stay; so they can where all evidence can be written.
Repetitions can always go early in any part of the findings. So where repetitions go, a report shows the
same findings if what is not grave enough goes first, under that condition; and it is always the same
report, but for the outcomes recorded in it, if some of the detectors drop their repetitions
themselves. -/
theorem tryBuild_stages_interchange (s : Severity) (found more : List Finding) (u : SourceUnit)
    (outcomes : List Outcome) (config : ScanConfig) (dropped : Outcome → Bool) :
    let unique : ScanConfig := { config with deduplicate := true }
    let all := outcomes.flatMap (·.findings)
    ((Finding.tryDeduplicate found).map (Finding.atLeast s) =
        Finding.tryDeduplicate (Finding.atLeast s found) ↔
      ((∀ f ∈ Finding.atLeast s found, f.isWritable = true) →
        ∀ f ∈ found, f.isWritable = true)) ∧
    Finding.tryDeduplicate found >>= Finding.tryDeduplicate = Finding.tryDeduplicate found ∧
    Finding.tryDeduplicate (found ++ more) =
      (Finding.tryDeduplicate found >>= fun first => Finding.tryDeduplicate (first ++ more)) ∧
    ((tryBuild u outcomes unique).map (·.findings) =
        (Finding.tryDeduplicate (Finding.atLeast config.minSeverity all)).map
          (Finding.limit (config.maxFindings.map Int.ofNat)) ↔
      ((∀ f ∈ Finding.atLeast config.minSeverity all, f.isWritable = true) →
        ∀ f ∈ all, f.isWritable = true)) ∧
    (outcomes.mapM (·.tryDropRepetitions dropped) >>= fun os => tryBuild u os unique) =
      (tryBuild u outcomes unique).map fun r =>
        { r with outcomes := outcomes.map (·.dropRepetitions dropped) } := by
  intro unique all
  refine ⟨?_, Finding.tryDeduplicate_idempotent found, Finding.tryDeduplicate_append found more,
    ?_, ?_⟩
  · rw [Finding.tryDeduplicate_eq, Finding.tryDeduplicate_eq, Finding.map_writing]
    exact Finding.writing_atLeast_iff id s found
  · rw [tryBuild_eq, Finding.tryDeduplicate_eq, Finding.map_writing, Finding.map_writing]
    exact Finding.writing_atLeast_iff (Finding.limit (config.maxFindings.map Int.ofNat))
      config.minSeverity all
  · rw [Outcome.mapM_tryDropRepetitions_eq,
      Finding.writing_bind (fun os => tryBuild u os unique) (tryBuild_eq u _ unique), tryBuild_eq,
      Finding.map_writing, build_map_dropRepetitions dropped u outcomes rfl]
    exact Finding.writing_eq_writing_iff.mpr (Outcome.writable_iff_of_dropRepetitions dropped outcomes)

/-- A finding of low severity with a number of 4301 digits in its evidence: if repetitions go first,
there is no result, and if the severity is looked at first, nothing is left. A detector that finds one
thing twice: if it drops the repetition itself, the report records one finding of it and not two. -/
theorem stages_differ_on_oversized_evidence :
    let plain : Finding := {
      severity := .low, title := "", description := "", vulnerability := .reentrancy
      contractName := "C" }
    let twice : Outcome := {
      detectorName := "d", vulnerability := "reentrancy", status := .success
      findings := [plain, plain] }
    let recorded : Report → List Nat := fun r => r.outcomes.map (·.findings.length)
    (Finding.tryDeduplicate [.oversized]).map (Finding.atLeast .high) = .error .oversizedNumber ∧
      Finding.tryDeduplicate (Finding.atLeast .high [.oversized]) = .ok [] ∧
      (tryBuild {} [twice] {}).map recorded = .ok [2] ∧
      ([twice].mapM (·.tryDropRepetitions fun _ => true) >>= fun os => tryBuild {} os {}).map
        recorded = .ok [1] := by
  intro plain twice recorded
  have hdropped : twice.dropRepetitions (fun _ => true) = { twice with findings := [plain] } := by
    simp [Outcome.dropRepetitions, twice, Finding.deduplicate, Finding.deduplicateFrom]
  refine ⟨?_, rfl, ?_, ?_⟩
  · rw [Finding.tryDeduplicate_eq, Finding.map_writing, Finding.writing_eq_error_iff]
    exact ⟨.oversized, List.mem_singleton_self _, Finding.isWritable_oversized⟩
  · rw [tryBuild_eq, Finding.map_writing]
    rfl
  · rw [Outcome.mapM_tryDropRepetitions_eq,
      Finding.writing_bind (fun os => tryBuild {} os {}) (tryBuild_eq _ _ _), Finding.map_writing,
      List.map_singleton, hdropped]
    rfl

end Report
end SolidityAudit
