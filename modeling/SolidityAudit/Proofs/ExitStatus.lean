import SolidityAudit.Command.Run
import SolidityAudit.Proofs.ChosenFindings
import SolidityAudit.Proofs.ScanOutcome
import SolidityAudit.Proofs.Version

/-!
# The exit status of a scan

A scan that is asked to fail on critical findings looks at the findings of its report, not at all
findings of its detectors. Repetitions and the least severity do not matter for this, but the limit
does: it keeps the first findings in the order of the detectors, so that a critical finding behind
less grave ones is not seen. Before it looks, the report is shown and saved. If the terminal or the
file system refuses this, or a location cannot be written, the scan ends there with status 1.
`scan_exitCode_eq_two_iff` is the exact condition.
-/

namespace SolidityAudit

theorem Settings.deduplicate_of_defaultConfig {settings : Settings} {defaults : ScanConfig}
    (h : settings.defaultConfig = .ok defaults) : defaults.deduplicate = true := by
  unfold defaultConfig at h
  dsimp only at h
  split at h
  · cases h
    rfl
  · cases h

namespace Command

variable {s : Surroundings} {settings : Settings} {args : List String} {o : ScanOptions}
  {text : String} {defaults : ScanConfig} {u : SourceUnit}

/-- The arguments ask for a scan with the options `o` of a file that holds `text`. -/
structure Requests (s : Surroundings) (args : List String) (o : ScanOptions) (text : String) :
    Prop where
  options : ∃ r, Reading.ofArguments? ScanOptions.specs false args = some r ∧
    r.has "--help" = false ∧ ScanOptions.ofReading? r = some o
  output : (o.output.map s.isFolder).getD false = false
  file : s.file? o.input = some text

theorem Requests.scan_eq (h : Requests s args o text) (settings : Settings) :
    scan s settings args = scanText settings o text := by
  obtain ⟨r, hr, hhelp, ho⟩ := h.options
  simp [scan, hr, hhelp, ho, h.output, h.file]

theorem scanText_eq_reported (hdefaults : settings.defaultConfig = .ok defaults)
    (hload : SourceUnit.loadText text.toList = .ok u)
    (hsize : u.byteSize ≤ defaults.maxSourceBytes) :
    scanText settings o text = .reported o (Report.build u
      (Registry.standard.outcomes u (configOf defaults o).detectors) (configOf defaults o)) := by
  have hpayload : SourceUnit.loadPayload (.str text) = .ok u := hload
  have hscan : Registry.standard.analyze settings.maxWorkers (configOf defaults o)
      (.payload (.str text)) = .ok (Report.build u
        (Registry.standard.outcomes u (configOf defaults o).detectors) (configOf defaults o)) := by
    rw [Registry.analyze, ScanInput.load, hpayload]
    exact Registry.standard_tryScan_eq_ok (SourceUnit.linesFromOne_of_loadPayload hpayload) hsize
  simp only [scanText, hdefaults, hscan]

theorem candidates_configOf (hdefaults : settings.defaultConfig = .ok defaults)
    (outcomes : List Outcome) :
    Report.candidates (configOf defaults o) outcomes =
      Finding.atLeast o.minSeverity (Finding.deduplicate (outcomes.flatMap (·.findings))) := by
  simp only [Report.candidates, configOf, Settings.deduplicate_of_defaultConfig hdefaults, if_true]

/-! ## Showing and saving -/

theorem Plan.exitCode_perform {carriesOut : Act → Bool} {p : Plan}
    (h : ∀ act ∈ p.acts, carriesOut act = true) : (p.perform carriesOut).exitCode = p.exitCode := by
  rw [perform, if_pos (List.all_eq_true.mpr h)]

theorem Plan.exitCode_perform_of_refused {carriesOut : Act → Bool} {p : Plan}
    (h : ¬ ∀ act ∈ p.acts, carriesOut act = true) : (p.perform carriesOut).exitCode = 1 := by
  rw [perform, if_neg (mt List.all_eq_true.mp h)]

theorem exists_error_findingRow_iff {stamps : RunStamps} {f : Finding} :
    (∃ e, findingRow stamps f = .error e) ↔
      ∃ n, f.lineNumber = some n ∧ Numeral.isWritable n = false := by
  have hlocation : (∃ e, f.tryLocation = .error e) ↔
      ∃ n, f.lineNumber = some n ∧ Numeral.isWritable n = false := by
    unfold Finding.tryLocation
    cases f.lineNumber with
    | none => simp
    | some n =>
        cases hn : Numeral.isWritable n with
        | true => simp [hn]
        | false => exact iff_of_true ⟨.oversizedNumber, by simp [hn]⟩ ⟨n, rfl, hn⟩
  rw [findingRow, Source.exists_error_bind_iff fun _ => Source.not_exists_error_pure, hlocation,
    or_false]

/-- A report can be presented: every act that this takes is carried out, and where a table of the
findings is shown, the lines in it can be written. -/
structure Presentable (s : Surroundings) (stamps : RunStamps) (o : ScanOptions) (r : Report) :
    Prop where
  acts : ∀ act ∈ (present stamps o r).acts, s.carriesOut act = true
  lines : o.format = .summary → ∀ f ∈ r.findings, ∀ n, f.lineNumber = some n →
    Numeral.isWritable n = true

variable {stamps : RunStamps} {r : Report}

theorem exitCode_present_of_lines (h : o.format = .summary → ∀ f ∈ r.findings, ∀ n,
    f.lineNumber = some n → Numeral.isWritable n = true) :
    (present stamps o r).exitCode = if o.failOnCritical && r.hasCritical then 2 else 0 := by
  cases hformat : o.format with
  | json => simp only [present, hformat]
  | summary =>
      cases hrows : r.findings.mapM (findingRow stamps) with
      | ok rows => simp only [present, hformat, hrows]
      | error e =>
          obtain ⟨f, hf, hrow⟩ := Source.exists_error_mapM_iff.mp ⟨e, hrows⟩
          obtain ⟨n, hn, hoversized⟩ := exists_error_findingRow_iff.mp hrow
          rw [h hformat f hf n hn] at hoversized
          cases hoversized

theorem exitCode_present_of_oversized (hformat : o.format = .summary) {f : Finding}
    (hf : f ∈ r.findings) {n : Nat} (hn : f.lineNumber = some n)
    (hoversized : Numeral.isWritable n = false) : (present stamps o r).exitCode = 1 := by
  have hrow : ∃ e, findingRow stamps f = .error e :=
    exists_error_findingRow_iff.mpr ⟨n, hn, hoversized⟩
  obtain ⟨e, hrows⟩ := Source.exists_error_mapM_iff.mpr ⟨f, hf, hrow⟩
  simp only [present, hformat, hrows]

theorem Presentable.exitCode_effect (h : Presentable s stamps o r) :
    ((Answer.reported o r).effect s stamps).exitCode =
      if o.failOnCritical && r.hasCritical then 2 else 0 :=
  (Plan.exitCode_perform h.acts).trans (exitCode_present_of_lines h.lines)

theorem exitCode_effect_of_not_presentable (h : ¬ Presentable s stamps o r) :
    ((Answer.reported o r).effect s stamps).exitCode = 1 := by
  by_cases hacts : ∀ act ∈ (present stamps o r).acts, s.carriesOut act = true
  · have hlines := mt (Presentable.mk hacts) h
    push Not at hlines
    obtain ⟨hformat, f, hf, n, hn, hoversized⟩ := hlines
    apply (Plan.exitCode_perform hacts).trans
    exact exitCode_present_of_oversized hformat hf hn (Bool.eq_false_iff.mpr hoversized)
  · exact Plan.exitCode_perform_of_refused hacts

/-! ## Critical findings -/

/-- A scan that fails on critical findings reports on the unit. It exits with status 2 exactly if the
report can be presented, the selected detectors found a critical finding and the limit, if there is
one, reaches beyond the first critical finding among those that are grave enough, each counted once.
It exits with status 1 exactly if the report cannot be presented, and otherwise with status 0. -/
theorem scan_exitCode_eq_two_iff (stamps : RunStamps) (hrequest : Requests s args o text)
    (hgate : o.failOnCritical = true) (hdefaults : settings.defaultConfig = .ok defaults)
    (hload : SourceUnit.loadText text.toList = .ok u)
    (hsize : u.byteSize ≤ defaults.maxSourceBytes) :
    let found := Registry.standard.findings u (configOf defaults o).detectors
    let reached := (∃ f ∈ found, f.severity = .critical) ∧ ∀ n, o.maxFindings = some n →
      Finding.criticalIndex (Finding.atLeast o.minSeverity (Finding.deduplicate found)) < n
    let exitCode := ((scan s settings args).effect s stamps).exitCode
    ∃ report, scan s settings args = .reported o report ∧
      (exitCode = 2 ↔ Presentable s stamps o report ∧ reached) ∧
      (exitCode = 1 ↔ ¬ Presentable s stamps o report) ∧
      (exitCode = 0 ↔ Presentable s stamps o report ∧ ¬ reached) := by
  intro found reached exitCode
  let report := Report.build u (Registry.standard.outcomes u (configOf defaults o).detectors)
    (configOf defaults o)
  have hscan : scan s settings args = .reported o report :=
    (hrequest.scan_eq settings).trans (scanText_eq_reported hdefaults hload hsize)
  have hcritical : report.hasCritical = true ↔ reached := by
    rw [Report.hasCritical_build_iff, candidates_configOf hdefaults]
    rfl
  have hexit : exitCode = ((Answer.reported o report).effect s stamps).exitCode := by
    rw [← hscan]
  refine ⟨report, hscan, ?_⟩
  rw [hexit, ← hcritical]
  by_cases hshown : Presentable s stamps o report
  · rw [hshown.exitCode_effect, hgate]
    cases report.hasCritical <;> simp [hshown]
  · simp [exitCode_effect_of_not_presentable hshown, hshown]

/-- A finding of high severity stands before the only critical one. With the limit 1 the critical
finding is cut off, and although everything is shown the scan exits with status 0. -/
theorem scan_exitCode_critical_beyond_limit :
    let text := "\x7b\"source\":\"function withdraw() \x7b require(tx.origin == a); \x7d\"," ++
      "\"contracts\":[\x7b\"name\":\"C\",\"functions\":[\x7b\"name\":\"withdraw\"\x7d]\x7d]\x7d"
    let u : SourceUnit := {
      source := "function withdraw() \x7b require(tx.origin == a); \x7d"
      contracts := [{ name := "C", functions := [{ name := "withdraw" }] }] }
    let s : Surroundings := {
      file? := fun _ => some text, isFolder := fun _ => false, environment := [] }
    let args := ["in.json", "-d", "access-control", "--fail-on-critical", "--max-findings", "1"]
    let o : ScanOptions := {
      input := tidyPath "in.json", detectors := ["access-control"], maxFindings := some 1
      failOnCritical := true }
    let stamps : RunStamps := {
      reportId := "", startedAt := "", completedAt := "", duration := "", findingId := fun _ => ""
      executionTime := .null }
    Requests s args o text ∧ SourceUnit.loadText text.toList = .ok u ∧
      (∃ f ∈ Registry.standard.findings u (some o.detectors), f.severity = .critical) ∧
      ((scan s {} args).effect s stamps).exitCode = 0 := by
  intro text u s args o stamps
  have hrequest : Requests s args o text := ⟨⟨_, rfl, rfl, rfl⟩, rfl, rfl⟩
  have hload : SourceUnit.loadText text.toList = .ok u := by decide +kernel
  have hfound : ((Registry.standard.findings u (some o.detectors)).any fun f =>
      decide (f.severity = .critical)) = true := by decide +kernel
  have hindex : Finding.criticalIndex (Finding.atLeast .info (Finding.deduplicate
      (Registry.standard.findings u (some o.detectors)))) = 1 := by decide +kernel
  have hsize : u.byteSize ≤ 1024 * 1024 := by decide +kernel
  have hdefaults : Settings.defaultConfig {} = .ok {} := rfl
  obtain ⟨report, hreported, _, _, hzero⟩ :=
    scan_exitCode_eq_two_iff stamps hrequest rfl hdefaults hload hsize
  have hreport := (hrequest.scan_eq {}).trans (scanText_eq_reported hdefaults hload hsize)
  obtain ⟨_, rfl⟩ := Answer.reported.inj (hreported.symm.trans hreport)
  obtain ⟨critical, hmem, hsevere⟩ := List.any_eq_true.mp hfound
  have hcritical := of_decide_eq_true hsevere
  refine ⟨hrequest, hload, ⟨critical, hmem, hcritical⟩, ?_⟩
  apply hzero.mpr
  constructor
  · have hlines : ((Report.build u (Registry.standard.outcomes u (configOf {} o).detectors)
        (configOf {} o)).findings.all fun f => f.lineNumber.all fun n : Nat =>
          Numeral.isWritable n) = true := by
      decide +kernel
    constructor
    · intro _ _
      rfl
    · intro _ f hf n hn
      have hline := List.all_eq_true.mp hlines f hf
      rwa [hn, Option.all_some] at hline
  · rintro ⟨_, hlimit⟩
    exact absurd (hlimit 1 rfl) (Nat.not_lt.mpr (Nat.le_of_eq hindex.symm))

end Command
end SolidityAudit
