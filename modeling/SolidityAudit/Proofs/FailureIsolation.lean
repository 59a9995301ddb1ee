import Mathlib.Data.List.Forall2
import Mathlib.Tactic.SplitIfs
import SolidityAudit.Detector.Registry
import SolidityAudit.Proofs.Writable

/-!
# Failures stay with their detectors

A detector that fails gives a failed outcome without findings; the outcomes of the other detectors do
not depend on it. `Detector.failure?` and `Detector.returned` say what came of a detector alone, and
`Yields` what its outcome has to look like. From these the outcomes and findings of a registry are put
together detector by detector, and the report tells the failures in the same order.
-/

namespace SolidityAudit

namespace Detector

variable (d : Detector) (u : SourceUnit)

def failure? : Option Failure :=
  match d.analyze u with
  | .ok _ => none
  | .error failure => some failure

def returned : List Finding :=
  match d.analyze u with
  | .ok findings => findings
  | .error _ => []

/-- The outcome that a detector has to have on a unit: its findings if it returns, and otherwise the
text of its failure, or the kind of the failure if it has no text. -/
structure Yields (u : SourceUnit) (d : Detector) (o : Outcome) : Prop where
  name : o.detectorName = d.name
  kind : o.vulnerability = d.vulnerability.tag
  ok : ∀ findings, d.analyze u = .ok findings →
    o.status = .success ∧ o.findings = findings ∧ o.error = none
  error : ∀ failure, d.analyze u = .error failure →
    o.status = .failed ∧ o.findings = [] ∧
      o.error = some (if failure.message = "" then failure.kind else failure.message)

theorem run_eq_of_ok {findings : List Finding} (h : d.analyze u = .ok findings) :
    d.run u = {
      detectorName := d.name, vulnerability := d.vulnerability.tag, status := .success
      findings := findings } := by
  simp only [run, h]

theorem run_eq_of_error {failure : Failure} (h : d.analyze u = .error failure) :
    d.run u = {
      detectorName := d.name, vulnerability := d.vulnerability.tag, status := .failed
      error := some failure.description } := by
  simp only [run, h]

@[simp] theorem run_detectorName : (d.run u).detectorName = d.name := by
  unfold run
  split <;> rfl

@[simp] theorem run_vulnerability : (d.run u).vulnerability = d.vulnerability.tag := by
  unfold run
  split <;> rfl

@[simp] theorem run_findings : (d.run u).findings = d.returned u := by
  cases h : d.analyze u <;> simp [run, returned, h]

@[simp] theorem run_error : (d.run u).error = (d.failure? u).map Failure.description := by
  cases h : d.analyze u <;> simp [run, failure?, h]

theorem run_status_eq_failed_iff : (d.run u).status = .failed ↔ d.failure? u ≠ none := by
  cases h : d.analyze u <;> simp [run, failure?, h]

theorem yields_run : d.Yields u (d.run u) where
  name := run_detectorName d u
  kind := run_vulnerability d u
  ok findings h := by simp [run_eq_of_ok d u h]
  error failure h := by simp [run_eq_of_error d u h, Failure.description]

/-- A detector's outcome is settled by what its own analysis gives. -/
theorem Yields.unique {o : Outcome} {d : Detector} {u : SourceUnit} (h : d.Yields u o) :
    o = d.run u := by
  obtain ⟨hname, hkind, hok, herror⟩ := h
  cases hrun : d.analyze u with
  | ok findings =>
      obtain ⟨hstatus, hfindings, hnone⟩ := hok findings hrun
      rw [run_eq_of_ok d u hrun]
      cases o
      simp_all
  | error failure =>
      obtain ⟨hstatus, hfindings, hsome⟩ := herror failure hrun
      rw [run_eq_of_error d u hrun]
      cases o
      simp_all [Failure.description]

end Detector

namespace Registry

def selects (kinds : Option (List String)) (d : Detector) : Bool :=
  kinds.all (·.contains d.vulnerability.tag)

theorem select_eq_filter (r : Registry) (kinds : Option (List String)) :
    r.select kinds = r.detectors.filter (selects kinds) := by
  cases kinds with
  | none => exact (List.filter_true r.detectors).symm
  | some tags => rfl

theorem findings_eq_flatMap_returned (r : Registry) (u : SourceUnit)
    (kinds : Option (List String)) :
    r.findings u kinds = (r.select kinds).flatMap (·.returned u) := by
  simp [findings, outcomes, List.flatMap_map]

/-! ## Selections -/

/-- The outcomes of a selection are those of the full run whose kind is selected. -/
theorem outcomes_some_eq_filter (r : Registry) (u : SourceUnit) (tags : List String) :
    r.outcomes u (some tags) =
      (r.outcomes u none).filter fun o => tags.contains o.vulnerability := by
  simp only [outcomes, select, List.filter_map, Function.comp_def, Detector.run_vulnerability]

theorem outcomes_congr_tags (r : Registry) (u : SourceUnit) {tags tags' : List String}
    (h : ∀ tag, tag ∈ tags ↔ tag ∈ tags') :
    r.outcomes u (some tags) = r.outcomes u (some tags') := by
  have hcontains : ∀ tag, tags.contains tag = tags'.contains tag := by
    intro tag
    rw [Bool.eq_iff_iff, List.contains_iff_mem, List.contains_iff_mem, h tag]
  simp only [outcomes_some_eq_filter, hcontains]

/-! ## One detector among others -/

theorem select_append (before after : List Detector) (kinds : Option (List String)) :
    (Registry.mk (before ++ after)).select kinds =
      (Registry.mk before).select kinds ++ (Registry.mk after).select kinds := by
  simp only [select_eq_filter, List.filter_append]

theorem select_cons (d : Detector) (rest : List Detector) (kinds : Option (List String)) :
    (Registry.mk (d :: rest)).select kinds =
      if selects kinds d then d :: (Registry.mk rest).select kinds
      else (Registry.mk rest).select kinds := by
  simp only [select_eq_filter, List.filter_cons]

/-- What the detectors before and after a place contribute, whatever stands at the place itself. -/
theorem outcomes_around (before after : List Detector) (d : Detector) (u : SourceUnit)
    (kinds : Option (List String)) :
    (Registry.mk (before ++ d :: after)).outcomes u kinds =
      (Registry.mk before).outcomes u kinds ++
        (if selects kinds d then [d.run u] else []) ++ (Registry.mk after).outcomes u kinds := by
  simp only [outcomes, select_append, select_cons]
  split <;> simp

theorem findings_around (before after : List Detector) (d : Detector) (u : SourceUnit)
    (kinds : Option (List String)) :
    (Registry.mk (before ++ d :: after)).findings u kinds =
      (Registry.mk before).findings u kinds ++
        (if selects kinds d then d.returned u else []) ++ (Registry.mk after).findings u kinds := by
  simp only [findings, outcomes_around, List.flatMap_append]
  split <;> simp

/-- The outcomes of a selection are the only list that has for each selected detector, in order, an
outcome as it has to be. -/
theorem eq_outcomes_iff (r : Registry) (u : SourceUnit) (kinds : Option (List String))
    (os : List Outcome) :
    os = r.outcomes u kinds ↔ List.Forall₂ (Detector.Yields u) (r.select kinds) os := by
  unfold outcomes
  generalize r.select kinds = selected
  constructor
  · rintro rfl
    induction selected with
    | nil => exact .nil
    | cons d rest ih => exact .cons (d.yields_run u) ih
  · intro h
    induction h with
    | nil => rfl
    | cons hyields _ ih => rw [List.map_cons, hyields.unique, ih]

end Registry

/-! ## The report -/

namespace Report

theorem failures_isEmpty_iff (os : List Outcome) :
    (failures os).isEmpty = true ↔ ∀ o ∈ os, o.status ≠ .failed := by
  simp [failures]

theorem failures_length_eq_iff (os : List Outcome) :
    (failures os).length = os.length ↔ ∀ o ∈ os, o.status = .failed := by
  simp [failures, List.length_filter_eq_length_iff]

theorem statusOf_eq_ite (os : List Outcome) :
    statusOf os = if ∀ o ∈ os, o.status ≠ .failed then .completed
      else if ∀ o ∈ os, o.status = .failed then .failed else .partially := by
  simp only [statusOf, failures_isEmpty_iff, failures_length_eq_iff]

theorem statusOf_eq_completed_iff (os : List Outcome) :
    statusOf os = .completed ↔ ∀ o ∈ os, o.status ≠ .failed := by
  rw [statusOf_eq_ite]
  split_ifs with hnone hall
  · simpa using hnone
  · simpa using hnone
  · simpa using hnone

/-- If there are no outcomes none failed, and the scan is complete. -/
theorem statusOf_eq_failed_iff (os : List Outcome) :
    statusOf os = .failed ↔ os ≠ [] ∧ ∀ o ∈ os, o.status = .failed := by
  rw [statusOf_eq_ite]
  split_ifs with hnone hall
  · constructor
    · intro h
      cases h
    · rintro ⟨hos, hall⟩
      obtain ⟨o, ho⟩ := List.exists_mem_of_ne_nil os hos
      exact absurd (hall o ho) (hnone o ho)
  · have hos : os ≠ [] := by
      rintro rfl
      exact hnone (by simp)
    exact ⟨fun _ => ⟨hos, hall⟩, fun _ => rfl⟩
  · simp [hall]

theorem statusOf_eq_partially_iff (os : List Outcome) :
    statusOf os = .partially ↔ (∃ o ∈ os, o.status = .failed) ∧ ∃ o ∈ os, o.status ≠ .failed := by
  rw [statusOf_eq_ite]
  split_ifs with hnone hall
  · constructor
    · intro h
      cases h
    · rintro ⟨⟨o, ho, hfailed⟩, _⟩
      exact absurd hfailed (hnone o ho)
  · constructor
    · intro h
      cases h
    · rintro ⟨_, o, ho, hother⟩
      exact absurd (hall o ho) hother
  · simpa using And.intro hnone hall

/-- What a report tells about failures: the detectors that failed and the notes on them in order, and
whether none, all or some of the detectors failed. -/
structure TellsFailures (u : SourceUnit) (selected : List Detector) (r : Report) : Prop where
  failedDetectors : r.summary.failedDetectors =
    selected.filterMap fun d => (d.failure? u).map fun _ => d.name
  notes : r.notes =
    selected.filterMap fun d => (d.failure? u).map fun e => d.name ++ ": " ++ e.description
  completed : r.status = .completed ↔ ∀ d ∈ selected, d.failure? u = none
  failed : r.status = .failed ↔ selected ≠ [] ∧ ∀ d ∈ selected, d.failure? u ≠ none
  partially : r.status = .partially ↔
    (∃ d ∈ selected, d.failure? u ≠ none) ∧ ∃ d ∈ selected, d.failure? u = none

theorem failures_map_run (u : SourceUnit) (selected : List Detector) :
    failures (selected.map (·.run u)) =
      selected.filterMap fun d => (d.failure? u).map fun _ => d.run u := by
  induction selected with
  | nil => rfl
  | cons d rest ih =>
      have hcons : failures ((d :: rest).map (·.run u)) =
          if (d.run u).status = .failed then d.run u :: failures (rest.map (·.run u))
          else failures (rest.map (·.run u)) := by
        simp [failures, List.filter_cons]
      have hstatus := d.run_status_eq_failed_iff u
      cases hfailure : d.failure? u with
      | none => rw [hcons, if_neg (by simp [hstatus, hfailure]), ih]; simp [hfailure]
      | some e => rw [hcons, if_pos (by simp [hstatus, hfailure]), ih]; simp [hfailure]

theorem build_tellsFailures (u : SourceUnit) (selected : List Detector) (config : ScanConfig) :
    (build u (selected.map (·.run u)) config).TellsFailures u selected where
  failedDetectors := by
    show (failures (selected.map (·.run u))).map (·.detectorName) = _
    rw [failures_map_run, List.map_filterMap]
    congr 1
    funext d
    cases d.failure? u <;> simp
  notes := by
    show (failures (selected.map (·.run u))).map noteOn = _
    rw [failures_map_run, List.map_filterMap]
    congr 1
    funext d
    cases h : d.failure? u <;> simp [noteOn, h]
  completed := by
    show statusOf (selected.map (·.run u)) = .completed ↔ _
    rw [statusOf_eq_completed_iff]
    simp [Detector.run_status_eq_failed_iff]
  failed := by
    show statusOf (selected.map (·.run u)) = .failed ↔ _
    rw [statusOf_eq_failed_iff]
    simp [Detector.run_status_eq_failed_iff]
  partially := by
    show statusOf (selected.map (·.run u)) = .partially ↔ _
    rw [statusOf_eq_partially_iff]
    simp [Detector.run_status_eq_failed_iff]

end Report

namespace Registry

/-- Each selected detector has the outcome of its own analysis, in the order of registration; the
findings are those of the detectors that returned; a detector that fails in the place of another of
its name and kind takes away the findings of that one and changes nothing else; a selection gives a
part of the full run; and the report, which is given exactly if the evidence that is asked for can be
written, tells the failures in order. -/
theorem failures_are_isolated (r : Registry) (u : SourceUnit) :
    (∀ kinds os, os = r.outcomes u kinds ↔
      List.Forall₂ (Detector.Yields u) (r.detectors.filter (selects kinds)) os) ∧
    (∀ kinds, r.findings u kinds =
      (r.detectors.filter (selects kinds)).flatMap (·.returned u)) ∧
    (∀ before after d broken failure kinds, r.detectors = before ++ d :: after →
      broken.name = d.name → broken.vulnerability = d.vulnerability →
      broken.analyze u = .error failure →
      (broken.run u).detectorName = (d.run u).detectorName ∧
      (broken.run u).vulnerability = (d.run u).vulnerability ∧
      r.outcomes u kinds = (Registry.mk before).outcomes u kinds ++
        (if selects kinds d then [d.run u] else []) ++ (Registry.mk after).outcomes u kinds ∧
      (Registry.mk (before ++ broken :: after)).outcomes u kinds =
        (Registry.mk before).outcomes u kinds ++
          (if selects kinds d then [broken.run u] else []) ++ (Registry.mk after).outcomes u kinds ∧
      r.findings u kinds = (Registry.mk before).findings u kinds ++
        (if selects kinds d then d.returned u else []) ++ (Registry.mk after).findings u kinds ∧
      (Registry.mk (before ++ broken :: after)).findings u kinds =
        (Registry.mk before).findings u kinds ++ (Registry.mk after).findings u kinds) ∧
    (∀ tags, r.outcomes u (some tags) =
      (r.outcomes u none).filter fun o => tags.contains o.vulnerability) ∧
    (∀ tags tags' : List String, (∀ tag, tag ∈ tags ↔ tag ∈ tags') →
      r.outcomes u (some tags) = r.outcomes u (some tags')) ∧
    ∀ kinds config,
      (Report.build u (r.outcomes u kinds) config).TellsFailures u
        (r.detectors.filter (selects kinds)) ∧
      Report.tryBuild u (r.outcomes u kinds) config =
        Finding.writing (Report.keyed config (r.outcomes u kinds))
          (Report.build u (r.outcomes u kinds) config) := by
  simp only [← select_eq_filter]
  refine ⟨r.eq_outcomes_iff u, r.findings_eq_flatMap_returned u, ?_, r.outcomes_some_eq_filter u,
    fun _ _ => r.outcomes_congr_tags u,
    fun kinds config => ⟨Report.build_tellsFailures u (r.select kinds) config,
      Report.tryBuild_eq u (r.outcomes u kinds) config⟩⟩
  intro before after d broken failure kinds hr hname hkind hfails
  obtain rfl : r = ⟨before ++ d :: after⟩ := by rw [← hr]
  have hselects : selects kinds broken = selects kinds d := by rw [selects, hkind, selects]
  have hreturned : broken.returned u = [] := by simp [Detector.returned, hfails]
  refine ⟨by simp [hname], by simp [hkind], outcomes_around before after d u kinds, ?_,
    findings_around before after d u kinds, ?_⟩
  · rw [outcomes_around, hselects]
  · rw [findings_around, hreturned]
    simp

/-- The second of three detectors fails without a text, and the selection names its kind twice. -/
theorem failures_are_isolated_second :
    let found : Finding := {
      severity := .low, title := "", description := "", vulnerability := .reentrancy
      contractName := "C" }
    let d : Detector := {
      name := "d", description := "", vulnerability := .reentrancy, kindName := "D"
      analyze := fun _ => .ok [found] }
    let broken : Detector := { d with analyze := fun _ => .error (.raised "ValueError" "") }
    (Registry.mk [d, d, d]).findings {} (some ["reentrancy"]) = [found, found, found] ∧
      (Registry.mk [d, broken, d]).findings {} (some ["reentrancy"]) = [found, found] ∧
      (Registry.mk [d, broken, d]).outcomes {} (some ["reentrancy", "reentrancy"]) =
        (Registry.mk [d, broken, d]).outcomes {} (some ["reentrancy"]) ∧
      (Report.build {} ((Registry.mk [d, broken, d]).outcomes {} none) {}).notes =
        ["d: ValueError"] := by
  intro found d broken
  obtain ⟨_, _, hreplace, _, _, _⟩ := failures_are_isolated ⟨[d, d, d]⟩ {}
  obtain ⟨_, _, _, _, hd, hbroken⟩ :=
    hreplace [d] [d] d broken _ (some ["reentrancy"]) rfl rfl rfl rfl
  obtain ⟨_, _, _, _, htags, hreport⟩ := failures_are_isolated ⟨[d, broken, d]⟩ {}
  exact ⟨hd, hbroken, htags _ _ (by simp), (hreport none {}).1.notes⟩

end Registry
end SolidityAudit
