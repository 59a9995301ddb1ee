import SolidityAudit.Command.Run
import SolidityAudit.Proofs.IdentityKey
import SolidityAudit.Proofs.ScanOutcome

/-!
# Enabled detectors

The settings say which detectors are enabled, by the kind of vulnerability. The list of detectors
asks them for each detector. The configuration of a scan of which nothing else is said asks only for
the kinds that have a detector of their own: it names those that are enabled, or takes all detectors
if none of these kinds is disabled. So the two agree on the detectors for these kinds, and a
registered detector for another kind may run although it is disabled, or not run although it is
enabled.
-/

namespace SolidityAudit

def Command.showsEnabled (settings : Settings) (d : Detector) : Bool :=
  (detectorRow settings d).getLast? == some "Enabled"

theorem Command.showsEnabled_eq (settings : Settings) (d : Detector) :
    showsEnabled settings d = settings.isEnabled d.vulnerability.tag := by
  cases h : settings.isEnabled d.vulnerability.tag <;> simp [showsEnabled, detectorRow, h]

namespace Settings

variable {s : Settings} {config : ScanConfig}

/-- No kind that has a detector of its own is disabled. -/
def EnablesAll (s : Settings) : Prop := ∀ v ∈ Vulnerability.detectable, s.isEnabled v.tag = true

instance (s : Settings) : Decidable s.EnablesAll := inferInstanceAs (Decidable (∀ v ∈ _, _))

theorem length_enabledKinds_iff (s : Settings) :
    s.enabledKinds.length = Vulnerability.detectable.length ↔ s.EnablesAll := by
  have hlength : Vulnerability.detectable.length = (Vulnerability.detectable.map (·.tag)).length :=
    rfl
  rw [hlength, enabledKinds, List.length_filter_eq_length_iff]
  simp [EnablesAll]

theorem mem_enabledKinds_iff (s : Settings) (v : Vulnerability) :
    v.tag ∈ s.enabledKinds ↔ v ∈ Vulnerability.detectable ∧ s.isEnabled v.tag = true := by
  have hinjective : Function.Injective Vulnerability.tag := fun _ _ => Vulnerability.tag_injective
  rw [enabledKinds, List.mem_filter, List.mem_map_of_injective hinjective]

theorem exists_defaultConfig (h : 0 < s.maxSourceBytes) :
    ∃ config, s.defaultConfig = .ok config ∧
      config.detectors = if s.EnablesAll then none else some s.enabledKinds := by
  refine ⟨_, if_pos h, ?_⟩
  simp only [length_enabledKinds_iff]

/-- A scan of which nothing else is said runs all detectors if no kind with a detector of its own is
disabled, and otherwise those for the enabled ones among these kinds. -/
theorem selects_enabledKinds_iff (s : Settings) (d : Detector) :
    Registry.selects (if s.EnablesAll then none else some s.enabledKinds) d = true ↔
      s.EnablesAll ∨
        d.vulnerability ∈ Vulnerability.detectable ∧ s.isEnabled d.vulnerability.tag = true := by
  by_cases hall : s.EnablesAll
  · simp [hall, Registry.selects]
  · rw [if_neg hall, Registry.selects, Option.all_some, List.contains_iff_mem,
      mem_enabledKinds_iff]
    simp [hall]

/-- The two agree on a detector for one of the kinds with a detector of its own. On any other they
agree if it is enabled and none of these kinds is disabled, or neither is the case. -/
theorem selects_eq_showsEnabled_iff (s : Settings) (d : Detector) :
    Registry.selects (if s.EnablesAll then none else some s.enabledKinds) d =
        Command.showsEnabled s d ↔
      (d.vulnerability ∉ Vulnerability.detectable →
        (Command.showsEnabled s d = true ↔ s.EnablesAll)) := by
  rw [Bool.eq_iff_iff, selects_enabledKinds_iff, Command.showsEnabled_eq]
  by_cases hkind : d.vulnerability ∈ Vulnerability.detectable
  · have henabled : s.EnablesAll → s.isEnabled d.vulnerability.tag = true := fun h => h _ hkind
    simp only [hkind, true_and, not_true_eq_false, false_implies, iff_true, or_iff_right_iff_imp]
    exact henabled
  · simp only [hkind, false_and, or_false, not_false_eq_true, forall_const]
    exact iff_comm

end Settings

theorem filter_eq_filter_iff {α : Type} {l : List α} {p q : α → Bool} :
    l.filter p = l.filter q ↔ ∀ a ∈ l, p a = q a := by
  constructor
  · intro h a ha
    have hmem : a ∈ l.filter p ↔ a ∈ l.filter q := by rw [h]
    rw [List.mem_filter, List.mem_filter, and_iff_right ha, and_iff_right ha] at hmem
    exact Bool.eq_iff_iff.mpr hmem
  · exact List.filter_congr

namespace Registry

/-- A scan of which nothing else is said runs all registered detectors if no kind with a detector of
its own is disabled, and otherwise those for the enabled ones among these kinds. These are the
detectors that are listed as enabled if and only if each registered detector for another kind is
listed as enabled exactly when none of these kinds is disabled. -/
theorem default_scan_runs_listed_iff {s : Settings} (hbytes : 0 < s.maxSourceBytes) :
    ∃ config, s.defaultConfig = .ok config ∧ ∀ r : Registry,
      (∀ d, d ∈ r.select config.detectors ↔ d ∈ r.detectors ∧
        ((∀ v ∈ Vulnerability.detectable, s.isEnabled v.tag = true) ∨
          d.vulnerability ∈ Vulnerability.detectable ∧ Command.showsEnabled s d = true)) ∧
      (r.select config.detectors = r.detectors.filter (Command.showsEnabled s) ↔
        ∀ d ∈ r.detectors, d.vulnerability ∉ Vulnerability.detectable →
          (Command.showsEnabled s d = true ↔
            ∀ v ∈ Vulnerability.detectable, s.isEnabled v.tag = true)) ∧
      ∀ workers u, u.byteSize ≤ config.maxSourceBytes →
        ∃ report, r.scan workers config (.ok u) = .ok report ∧
          List.Forall₂ (Detector.Yields u) (r.select config.detectors) report.outcomes ∧
          (r.tryScan workers config (.ok u) = .ok report ∨
            ∃ reason, r.tryScan workers config (.ok u) = .error (.unwritable reason)) := by
  obtain ⟨config, hconfig, hdetectors⟩ := Settings.exists_defaultConfig hbytes
  refine ⟨config, hconfig, fun r => ⟨?_, ?_, ?_⟩⟩
  · intro d
    rw [select_eq_filter, List.mem_filter, hdetectors, Settings.selects_enabledKinds_iff,
      Command.showsEnabled_eq]
    rfl
  · rw [select_eq_filter, filter_eq_filter_iff, hdetectors]
    exact forall₂_congr fun d _ => s.selects_eq_showsEnabled_iff d
  · intro workers u hsize
    have haccept := ScanConfig.accept_eq_ok_iff.mpr ⟨rfl, hsize⟩
    refine ⟨_, scan_eq_ok_iff.mpr ⟨u, haccept, rfl⟩, (Report.build_recounts r u config).outcomes, ?_⟩
    exact tryScan_eq_build_or_unwritable haccept

/-- A detector for a kind without a detector of its own is disabled, and nothing else is. It is
listed as disabled, and a scan runs it. -/
theorem default_scan_runs_disabled :
    let origin : Detector := {
      name := "Origin", description := "", vulnerability := .txOriginAuth, kindName := "Origin"
      analyze := fun _ => .ok [] }
    let r : Registry := ⟨[Reentrancy.detector, origin]⟩
    let s : Settings := { detectors := [("tx-origin-auth", false)] }
    Command.showsEnabled s origin = false ∧
      ∃ config, s.defaultConfig = .ok config ∧ origin ∈ r.select config.detectors ∧
        r.select config.detectors ≠ r.detectors.filter (Command.showsEnabled s) := by
  intro origin r s
  have hlisted : Command.showsEnabled s origin = false := by
    rw [Command.showsEnabled_eq]
    rfl
  obtain ⟨config, hconfig, hruns⟩ := default_scan_runs_listed_iff (s := s) (by decide)
  have hall : ∀ v ∈ Vulnerability.detectable, s.isEnabled v.tag = true := by decide
  have hregistered : origin ∈ r.detectors := by simp [r]
  obtain ⟨hselected, hagree, _⟩ := hruns r
  refine ⟨hlisted, config, hconfig, (hselected origin).mpr ⟨hregistered, Or.inl hall⟩, ?_⟩
  intro heq
  have horigin := hagree.mp heq origin hregistered (by decide)
  rw [hlisted] at horigin
  exact Bool.false_ne_true (horigin.mpr hall)

end Registry
end SolidityAudit
