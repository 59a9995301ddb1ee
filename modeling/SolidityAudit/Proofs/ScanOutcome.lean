import SolidityAudit.Proofs.Attribution
import SolidityAudit.Proofs.ExactSummary
import SolidityAudit.Proofs.FailureIsolation
import SolidityAudit.Proofs.Pool
import SolidityAudit.Proofs.ReportedFindings

/-!
# How a scan ends

A scan first decides whether it takes the unit at all. It refuses a unit that could not be read and
one whose source is too large; no detector has a part in this, so the refusal is the same whatever
is registered. A unit that it takes leads to a report, since the failures of detectors are kept in
their outcomes, unless repetitions are dropped and some evidence has a number that cannot be written.
An empty registry stands for the standard one.
-/

namespace SolidityAudit

/-- The unit that a scan takes, or why it takes none. -/
def ScanConfig.accept (config : ScanConfig) : Checked SourceUnit → Except ScanRefusal SourceUnit
  | .ok u =>
    if config.maxSourceBytes < u.byteSize then .error (.tooLarge u.byteSize config.maxSourceBytes)
    else .ok u
  | .refused faults => .error (.malformed faults)

namespace ScanConfig

variable {config : ScanConfig} {unit : Checked SourceUnit}

theorem accept_eq_malformed_iff {faults : List Fault} :
    config.accept unit = .error (.malformed faults) ↔ unit = .refused faults := by
  cases unit with
  | ok u =>
      simp only [accept, reduceCtorEq, iff_false]
      split <;> simp
  | refused faults' => simp [accept]

theorem accept_eq_tooLarge_iff {size limit : Nat} :
    config.accept unit = .error (.tooLarge size limit) ↔
      ∃ u, unit = .ok u ∧ size = u.byteSize ∧ limit = config.maxSourceBytes ∧ limit < size := by
  cases unit with
  | ok u =>
      simp only [accept, Checked.ok.injEq, exists_eq_left']
      split
      · next hlarge =>
          simp only [Except.error.injEq, ScanRefusal.tooLarge.injEq]
          constructor
          · rintro ⟨rfl, rfl⟩
            exact ⟨rfl, rfl, hlarge⟩
          · rintro ⟨rfl, rfl, _⟩
            exact ⟨rfl, rfl⟩
      · next hfits =>
          simp only [reduceCtorEq, false_iff]
          rintro ⟨rfl, rfl, hlarge⟩
          exact hfits hlarge
  | refused faults => simp [accept]

theorem accept_eq_ok_iff {u : SourceUnit} :
    config.accept unit = .ok u ↔ unit = .ok u ∧ u.byteSize ≤ config.maxSourceBytes := by
  cases unit with
  | ok v =>
      simp only [accept, Checked.ok.injEq]
      split
      · next hlarge =>
          simp only [reduceCtorEq, false_iff]
          rintro ⟨rfl, hfits⟩
          omega
      · next hfits =>
          simp only [Except.ok.injEq]
          constructor
          · rintro rfl
            exact ⟨rfl, Nat.not_lt.mp hfits⟩
          · exact And.left
  | refused faults => simp [accept]

theorem accept_ne_unwritable {reason : WriteError} :
    config.accept unit ≠ .error (.unwritable reason) := by
  cases unit with
  | ok u =>
      simp only [accept]
      split <;> simp
  | refused faults => simp [accept]

end ScanConfig

/-- What a report tells on a unit after the selected detectors ran: an outcome for each of them in
order, the findings that the configuration leaves of theirs, their exact summary, and who failed. -/
structure Report.Recounts (u : SourceUnit) (selected : List Detector) (config : ScanConfig)
    (r : Report) : Prop where
  outcomes : List.Forall₂ (Detector.Yields u) selected r.outcomes
  findings : ∃ places, Selection config (r.outcomes.flatMap (·.findings)) r.findings places
  summary : r.summary.ExactFor r.findings
  failures : r.TellsFailures u selected

theorem Report.build_recounts (r : Registry) (u : SourceUnit) (config : ScanConfig) :
    (build u (r.outcomes u config.detectors) config).Recounts u (r.select config.detectors)
      config where
  outcomes := (r.eq_outcomes_iff u config.detectors _).mp rfl
  findings := by
    rw [build_findings_eq_map_reportedPlaces]
    exact ⟨_, selection_reportedPlaces config _⟩
  summary := Summary.ofFindings_exactFor _ _
  failures := build_tellsFailures u (r.select config.detectors) config

namespace Registry

/-- A scan refuses what is not accepted, before it looks at the detectors, and reports on the
rest. -/
theorem scan_eq_map_accept (r : Registry) (workers : Int) (config : ScanConfig)
    (unit : Checked SourceUnit) :
    r.scan workers config unit = (config.accept unit).map fun u =>
      Report.build u (r.outcomes u config.detectors) config := by
  cases unit with
  | ok u =>
      simp only [scan, scanUnit, ScanConfig.accept, scanOutcomes_eq_map_run]
      split <;> rfl
  | refused faults => rfl

theorem scan_eq_ok_iff {r : Registry} {workers : Int} {config : ScanConfig}
    {unit : Checked SourceUnit} {report : Report} :
    r.scan workers config unit = .ok report ↔ ∃ u, config.accept unit = .ok u ∧
      report = Report.build u (r.outcomes u config.detectors) config := by
  rw [scan_eq_map_accept]
  cases config.accept unit <;> simp [Except.map, eq_comm]

theorem mem_keyed_outcomes_iff {r : Registry} {u : SourceUnit} {config : ScanConfig} {f : Finding} :
    f ∈ Report.keyed config (r.outcomes u config.detectors) ↔ config.deduplicate = true ∧
      ∃ d ∈ r.detectors.filter (selects config.detectors), ∃ found,
        d.analyze u = .ok found ∧ f ∈ found := by
  have hrun : ∀ d : Detector, f ∈ (d.run u).findings ↔
      ∃ found, d.analyze u = .ok found ∧ f ∈ found := by
    intro d
    rw [Detector.run_findings, Detector.returned]
    cases d.analyze u <;> simp
  simp only [Report.mem_keyed_iff, outcomes, select_eq_filter, List.mem_map, exists_exists_and_eq_and,
    hrun]

variable {r : Registry} {workers : Int} {config : ScanConfig} {unit : Checked SourceUnit}

theorem exists_keyed_outcomes_iff {u : SourceUnit} {p : Finding → Prop} :
    (∃ f ∈ Report.keyed config (r.outcomes u config.detectors), p f) ↔ config.deduplicate = true ∧
      ∃ d ∈ r.detectors.filter (selects config.detectors), ∃ found,
        d.analyze u = .ok found ∧ ∃ f ∈ found, p f := by
  constructor
  · rintro ⟨f, hf, hp⟩
    obtain ⟨hunique, d, hd, found, hrun, hmem⟩ := mem_keyed_outcomes_iff.mp hf
    exact ⟨hunique, d, hd, found, hrun, f, hmem, hp⟩
  · rintro ⟨hunique, d, hd, found, hrun, f, hmem, hp⟩
    exact ⟨f, mem_keyed_outcomes_iff.mpr ⟨hunique, d, hd, found, hrun, hmem⟩, hp⟩

theorem forall_keyed_outcomes_iff {u : SourceUnit} {p : Finding → Prop} :
    (∀ f ∈ Report.keyed config (r.outcomes u config.detectors), p f) ↔
      (config.deduplicate = true → ∀ d ∈ r.detectors.filter (selects config.detectors), ∀ found,
        d.analyze u = .ok found → ∀ f ∈ found, p f) := by
  constructor
  · intro h hunique d hd found hrun f hmem
    exact h f (mem_keyed_outcomes_iff.mpr ⟨hunique, d, hd, found, hrun, hmem⟩)
  · intro h f hf
    obtain ⟨hunique, d, hd, found, hrun, hmem⟩ := mem_keyed_outcomes_iff.mp hf
    exact h hunique d hd found hrun f hmem

theorem tryScan_of_refused {refusal : ScanRefusal} (h : config.accept unit = .error refusal) :
    r.tryScan workers config unit = .error refusal := by
  cases unit with
  | ok u =>
      simp only [ScanConfig.accept] at h
      split at h
      · next hlarge =>
          cases h
          exact if_pos hlarge
      · cases h
  | refused faults =>
      cases h
      rfl

theorem tryScan_of_accepted {u : SourceUnit} (h : config.accept unit = .ok u) :
    r.tryScan workers config unit =
      (Finding.writing (Report.keyed config (r.outcomes u config.detectors))
        (Report.build u (r.outcomes u config.detectors) config)).mapError .unwritable := by
  obtain ⟨rfl, hsize⟩ := ScanConfig.accept_eq_ok_iff.mp h
  rw [tryScan_eq_tryBuild r workers config u hsize, Report.tryBuild_eq]
  rfl

theorem tryScan_eq_ok_iff {report : Report} : r.tryScan workers config unit = .ok report ↔
    ∃ u, config.accept unit = .ok u ∧
      (∀ f ∈ Report.keyed config (r.outcomes u config.detectors), f.isWritable = true) ∧
      Report.build u (r.outcomes u config.detectors) config = report := by
  cases haccept : config.accept unit with
  | error refusal => simp [tryScan_of_refused haccept]
  | ok u => simp [tryScan_of_accepted haccept, Finding.mapError_writing_eq_ok_iff]

/-- What is refused is refused before any detector runs. -/
theorem tryScan_eq_refusal_iff {refusal : ScanRefusal} (h : ∀ reason, refusal ≠ .unwritable reason) :
    r.tryScan workers config unit = .error refusal ↔ config.accept unit = .error refusal := by
  cases haccept : config.accept unit with
  | error refusal' => simp [tryScan_of_refused haccept]
  | ok u => simp [tryScan_of_accepted haccept, Finding.mapError_writing_eq_error_iff, (h _).symm]

theorem tryScan_eq_unwritable_iff {reason : WriteError} :
    r.tryScan workers config unit = .error (.unwritable reason) ↔
      ∃ u, config.accept unit = .ok u ∧
        ∃ f ∈ Report.keyed config (r.outcomes u config.detectors), f.isWritable = false := by
  cases reason
  cases haccept : config.accept unit with
  | error refusal =>
      have hrefusal : refusal ≠ .unwritable .oversizedNumber := by
        rintro rfl
        exact ScanConfig.accept_ne_unwritable haccept
      simp [tryScan_of_refused haccept, hrefusal]
  | ok u => simp [tryScan_of_accepted haccept, Finding.mapError_writing_eq_error_iff]

theorem tryScan_eq_build_or_unwritable {u : SourceUnit} (h : config.accept unit = .ok u) :
    r.tryScan workers config unit =
        .ok (Report.build u (r.outcomes u config.detectors) config) ∨
      ∃ reason, r.tryScan workers config unit = .error (.unwritable reason) := by
  rw [tryScan_of_accepted h]
  cases hwriting : Finding.writing _ (Report.build u _ config) with
  | error reason => exact Or.inr ⟨reason, rfl⟩
  | ok report =>
      rw [← (Finding.writing_eq_ok_iff.mp hwriting).2]
      exact Or.inl rfl

/-- What the detectors of the standard registry find in a unit that was read can be written. -/
theorem standard_tryScan_eq_ok {u : SourceUnit} (hu : u.LinesFromOne)
    (hsize : u.byteSize ≤ config.maxSourceBytes) :
    standard.tryScan workers config (.ok u) =
      .ok (Report.build u (standard.outcomes u config.detectors) config) := by
  refine tryScan_eq_ok_iff.mpr ⟨u, ScanConfig.accept_eq_ok_iff.mpr ⟨rfl, hsize⟩, ?_, rfl⟩
  rw [forall_keyed_outcomes_iff]
  intro _ d hd found hrun f hmem
  exact (standard_findings_sound hu (List.mem_of_mem_filter hd) hrun hmem).writable

/-- A scan of a unit, or of a value that is to be read as one, ends in one of four ways. It refuses a
value with its faults exactly if the value does not pass the check of a unit. It refuses the unit with
its size in bytes and the limit exactly if the one exceeds the other. Neither refusal depends on the
detectors. It fails exactly if repetitions are to be dropped and a selected detector gave evidence that
cannot be written. In all other cases it gives a report that recounts what the selected detectors did.
The detectors are those of the standard registry if none are registered. -/
theorem analyze_ends_in_one_way (r : Registry) (workers : Int) (config : ScanConfig)
    (input : ScanInput) :
    let unit := input.load
    let selected := r.orStandard.detectors.filter (selects config.detectors)
    let result := r.analyze workers config input
    (∀ faults, result = .error (.malformed faults) ↔ unit = .refused faults) ∧
    (∀ size limit, result = .error (.tooLarge size limit) ↔
      ∃ u, unit = .ok u ∧ size = u.source.toUTF8.size ∧ limit = config.maxSourceBytes ∧
        limit < size) ∧
    (∀ refusal, result = .error refusal → (∀ reason, refusal ≠ .unwritable reason) →
      ∀ r' workers', Registry.analyze r' workers' config input = .error refusal) ∧
    (∀ reason, result = .error (.unwritable reason) ↔
      ∃ u, unit = .ok u ∧ u.source.toUTF8.size ≤ config.maxSourceBytes ∧
        config.deduplicate = true ∧ ∃ d ∈ selected, ∃ found, d.analyze u = .ok found ∧
          ∃ f ∈ found, f.isWritable = false) ∧
    ((∃ report, result = .ok report) ↔
      ∃ u, unit = .ok u ∧ u.source.toUTF8.size ≤ config.maxSourceBytes ∧
        (config.deduplicate = true → ∀ d ∈ selected, ∀ found, d.analyze u = .ok found →
          ∀ f ∈ found, f.isWritable = true)) ∧
    ∀ report, result = .ok report → ∃ u, unit = .ok u ∧ report.Recounts u selected config := by
  intro unit selected result
  refine ⟨?_, ?_, ?_, ?_, ?_, ?_⟩
  · intro faults
    exact (tryScan_eq_refusal_iff (by simp)).trans ScanConfig.accept_eq_malformed_iff
  · intro size limit
    exact (tryScan_eq_refusal_iff (by simp)).trans ScanConfig.accept_eq_tooLarge_iff
  · intro refusal hrefusal hearly r' workers'
    exact (tryScan_eq_refusal_iff hearly).mpr ((tryScan_eq_refusal_iff hearly).mp hrefusal)
  · intro reason
    apply tryScan_eq_unwritable_iff.trans
    apply exists_congr
    intro u
    rw [ScanConfig.accept_eq_ok_iff, exists_keyed_outcomes_iff, and_assoc]
    rfl
  · constructor
    · rintro ⟨report, hreport⟩
      obtain ⟨u, haccept, hwritable, _⟩ := tryScan_eq_ok_iff.mp hreport
      obtain ⟨hunit, hsize⟩ := ScanConfig.accept_eq_ok_iff.mp haccept
      exact ⟨u, hunit, hsize, forall_keyed_outcomes_iff.mp hwritable⟩
    · rintro ⟨u, hunit, hsize, hwritable⟩
      have haccept := ScanConfig.accept_eq_ok_iff.mpr ⟨hunit, hsize⟩
      exact ⟨_, tryScan_eq_ok_iff.mpr ⟨u, haccept, forall_keyed_outcomes_iff.mpr hwritable, rfl⟩⟩
  · intro report hreport
    obtain ⟨u, haccept, _, rfl⟩ := tryScan_eq_ok_iff.mp hreport
    refine ⟨u, (ScanConfig.accept_eq_ok_iff.mp haccept).1, ?_⟩
    have hrecounts := Report.build_recounts r.orStandard u config
    rwa [select_eq_filter] at hrecounts

/-- A source of one character and two bytes. With a limit of one byte it is refused; with two the
only detector runs, and its failure is told in the report. -/
theorem analyze_ends_in_one_way_two_bytes :
    let broken : Detector := {
      name := "broken", description := "", vulnerability := .reentrancy, kindName := "Broken"
      analyze := fun _ => .error (.raised "ValueError" "") }
    let r : Registry := ⟨[broken]⟩
    let input : ScanInput := .payload (.object [("source", .str "é")])
    r.analyze 4 { maxSourceBytes := 1 } input = .error (.tooLarge 2 1) ∧
      (Registry.mk []).analyze 0 { maxSourceBytes := 1 } input = .error (.tooLarge 2 1) ∧
      ∃ report, r.analyze 4 { maxSourceBytes := 2 } input = .ok report ∧
        report.status = .failed ∧ report.notes = ["broken: ValueError"] := by
  intro broken r input
  obtain ⟨_, hlarge, hsame, _⟩ := r.analyze_ends_in_one_way 4 { maxSourceBytes := 1 } input
  obtain ⟨_, _, _, _, hfits, hrecounts⟩ :=
    r.analyze_ends_in_one_way 4 { maxSourceBytes := 2 } input
  have hload : input.load = .ok { source := "é" } := rfl
  have hsize : "é".toUTF8.size = 2 := rfl
  have hrefused := (hlarge 2 1).mpr ⟨_, hload, hsize.symm, rfl, by decide⟩
  have hfails : ∀ d ∈ r.orStandard.detectors.filter (selects none), ∀ found,
      d.analyze { source := "é" } ≠ .ok found := by
    simp [r, orStandard, broken, selects]
  obtain ⟨report, hreport⟩ := hfits.mpr ⟨_, hload, by rw [hsize],
    fun _ d hd found hrun => absurd hrun (hfails d hd found)⟩
  obtain ⟨u, hu, hrecount⟩ := hrecounts report hreport
  obtain rfl : ({ source := "é" } : SourceUnit) = u := Checked.ok.inj (hload.symm.trans hu)
  refine ⟨hrefused, hsame _ hrefused (by simp) ⟨[]⟩ 0, report, hreport, ?_, hrecount.failures.notes⟩
  exact hrecount.failures.failed.mpr
    ⟨by simp [r, orStandard, selects], by simp [r, orStandard, broken, Detector.failure?, selects]⟩

/-- An empty registry is not taken as given: six detectors run. A detector whose evidence holds a number
of 4301 digits leaves no report. -/
theorem analyze_departs_from_registry :
    let d : Detector := {
      name := "d", description := "", vulnerability := .reentrancy, kindName := "D"
      analyze := fun _ => .ok [Finding.oversized] }
    (∃ report, (Registry.mk []).analyze 4 {} (.unit {}) = .ok report ∧ report.outcomes.length = 6) ∧
      (Registry.mk [d]).analyze 4 {} (.unit {}) = .error (.unwritable .oversizedNumber) := by
  intro d
  refine ⟨⟨_, standard_tryScan_eq_ok (by simp [SourceUnit.LinesFromOne]) (by decide), rfl⟩, ?_⟩
  have haccept : ({} : ScanConfig).accept (.ok {}) = .ok {} := rfl
  refine tryScan_eq_unwritable_iff.mpr ⟨{}, haccept, exists_keyed_outcomes_iff.mpr ?_⟩
  exact ⟨rfl, d, by simp [orStandard, selects], _, rfl, .oversized, List.mem_singleton_self _,
    Finding.isWritable_oversized⟩

end Registry
end SolidityAudit
