import SolidityAudit.Proofs.Attribution
import SolidityAudit.Proofs.VersionFloor
import SolidityAudit.Finding.Load
import SolidityAudit.Report.Printer

/-!
# When a detector fails

A written finding is read back as it is, provided that it points to no line or to one counted from
one. Every detector sees to this, so its findings pass their own check. Only the detector of integer
overflow can fail, and only on a pragma with an oversized number.
-/

namespace SolidityAudit

namespace Checked

variable {α : Type} {ms : Json.Members} {key : String} {v : Json} {value : Json → Checked α} {a : α}

theorem required_eq_ok (hv : ms.get? key = some v) (ha : value v = ok a) :
    required ms [key] value = ok a := by
  simp [required, member?, hv, ha, under]

theorem optional_eq_ok_of_get? {default : α} (hv : ms.get? key = some v) (ha : value v = ok a) :
    optional ms [key] value default = ok a := by
  simp [optional, member?, hv, ha, under]

theorem text_str (s : String) : text (.str s) = ok s := rfl

theorem mapping_object (ms : Json.Members) : mapping (.object ms) = ok ms := rfl

theorem list_text_texts (ss : List String) : list text (.texts ss) = ok ss := by
  apply items_eq_ok_iff.mpr
  rw [List.forall₂_map_left_iff, List.forall₂_same]
  exact fun s _ => text_str s

theorem nullable_text_ofText? (s : Option String) : nullable text (.ofText? s) = ok s := by
  cases s with
  | none => rfl
  | some s => rfl

theorem nullable_positive_ofNat? {line : Option Nat}
    (h : line = none ∨ ∃ n, line = some n ∧ 1 ≤ n) :
    nullable positive (.ofNat? line) = ok line := by
  rcases h with rfl | ⟨n, rfl, hn⟩
  · rfl
  · exact map_ok (positive_int hn)

end Checked

theorem Severity.ofTag?_tag (s : Severity) : ofTag? s.tag = some s := by
  cases s <;> rfl

theorem Vulnerability.ofTag?_tag (v : Vulnerability) : ofTag? v.tag = some v := by
  cases v <;> rfl

theorem Complexity.ofTag?_tag (c : Complexity) : ofTag? c.tag = some c := by
  cases c <;> rfl

namespace Finding
open Checked

/-- What is written of a finding is read back as that finding. -/
theorem load_toJson {f : Finding} (stamps : RunStamps)
    (hline : f.lineNumber = none ∨ ∃ n, f.lineNumber = some n ∧ 1 ≤ n) :
    load (f.toJson stamps) = .ok f := by
  simp only [load, toJson, record, seq_eq_apply, functorMap_eq_map]
  rw [required_eq_ok rfl (choice_eq_ok f.severity.ofTag?_tag),
    required_eq_ok rfl (text_str f.title), required_eq_ok rfl (text_str f.description),
    optional_eq_ok_of_get? rfl (text_str f.remediation),
    optional_eq_ok_of_get? rfl (list_text_texts f.references),
    optional_eq_ok_of_get? rfl (text_str f.category),
    optional_eq_ok_of_get? rfl (mapping_object f.evidence),
    required_eq_ok rfl (choice_eq_ok f.vulnerability.ofTag?_tag),
    optional_eq_ok_of_get? rfl (text_str f.detector),
    required_eq_ok rfl (text_str f.contractName),
    optional_eq_ok_of_get? rfl (nullable_text_ofText? f.functionName),
    optional_eq_ok_of_get? rfl (nullable_positive_ofNat? hline),
    optional_eq_ok_of_get? rfl (nullable_text_ofText? f.swcId),
    optional_eq_ok_of_get? rfl (text_str f.exploitScenario),
    optional_eq_ok_of_get? rfl (choice_eq_ok f.exploitComplexity.ofTag?_tag)]
  rfl

end Finding

/-- The overflow detector fails exactly if there is a contract to look at and the pragma has an
oversized number. -/
theorem Arithmetic.exists_error_analyze_iff {u : SourceUnit} :
    (∃ failure, analyze u = .error failure) ↔ u.contracts ≠ [] ∧ ∃ pragma, u.pragma = some pragma ∧
      ∃ digits ∈ Source.versionNumbers pragma.toList, Numeral.maxDigits < digits.length := by
  rw [← Source.exists_error_lacksOverflowChecks_iff, analyze]
  cases hcontracts : u.contracts with
  | nil => simp
  | cons first rest =>
    cases hchecks : Source.lacksOverflowChecks u.pragma with
    | error e => simp
    | ok lacks => cases lacks <;> simp

section
variable {u : SourceUnit} {d : Detector}

theorem standard_eq_overflow_or_ok (u : SourceUnit) (hd : d ∈ Registry.standard.detectors) :
    d = Arithmetic.detector ∨
      d.vulnerability ≠ .integerOverflow ∧ ∃ found, d.analyze u = .ok found := by
  simp only [Registry.standard, List.mem_cons, List.not_mem_nil, or_false] at hd
  rcases hd with rfl | rfl | rfl | rfl | rfl | rfl
  · exact .inr ⟨by decide, _, rfl⟩
  · exact .inr ⟨by decide, _, rfl⟩
  · exact .inl rfl
  · exact .inr ⟨by decide, _, rfl⟩
  · exact .inr ⟨by decide, _, rfl⟩
  · exact .inr ⟨by decide, _, rfl⟩

/-- On a unit that was read, a detector of the standard registry fails exactly if it is the one of
integer overflow, the unit has a contract and a number of some version in the pragma has more than
4300 digits. Whatever a detector finds is a valid finding. -/
theorem standard_fails_iff_oversized_and_finds_valid {payload : Json}
    (hload : SourceUnit.loadPayload payload = .ok u) (hd : d ∈ Registry.standard.detectors) :
    ((∃ failure, d.analyze u = .error failure) ↔
      d.vulnerability = .integerOverflow ∧ u.contracts ≠ [] ∧ ∃ pragma, u.pragma = some pragma ∧
        ∃ digits ∈ Source.versionNumbers pragma.toList, 4300 < digits.length) ∧
      ∀ found, d.analyze u = .ok found → ∀ f ∈ found, ∀ stamps,
        Finding.load (f.toJson stamps) = .ok f := by
  constructor
  · rcases standard_eq_overflow_or_ok u hd with rfl | ⟨hkind, found, hrun⟩
    · exact Arithmetic.exists_error_analyze_iff.trans (and_iff_right rfl).symm
    · constructor
      · rintro ⟨failure, hfail⟩
        rw [hrun] at hfail
        cases hfail
      · rintro ⟨hoverflow, _⟩
        exact absurd hoverflow hkind
  · intro found hrun f hf stamps
    have hu := SourceUnit.linesFromOne_of_loadPayload hload
    exact Finding.load_toJson stamps (standard_findings_sound hu hd hrun hf).line

end

/-- A number of 4301 zeros in the second version of a pragma whose first one is harmless. -/
theorem standard_fails_on_oversized_upper_bound :
    let pragma := String.ofList (">=0.8.0 <0.0".toList ++ List.replicate 4300 '0')
    let u : SourceUnit := {
      source := "contract C \x7b\x7d", pragma := some pragma, contracts := [{ name := "C" }] }
    SourceUnit.loadPayload u.dump = .ok u ∧
      ∃ failure, Arithmetic.detector.analyze u = .error failure := by
  intro pragma u
  have hload : SourceUnit.loadPayload u.dump = .ok u := rfl
  have hd : Arithmetic.detector ∈ Registry.standard.detectors := by simp [Registry.standard]
  have hdigits : '0' :: List.replicate 4300 '0' ∈ Source.versionNumbers pragma.toList := by
    rw [String.toList_ofList]
    apply Source.mem_versionNumbers_of_end
    intro c hc
    rw [List.eq_of_mem_replicate hc]
    decide
  have hlength : 4300 < ('0' :: List.replicate 4300 '0').length := by
    rw [List.length_cons, List.length_replicate]
    decide
  exact ⟨hload, (standard_fails_iff_oversized_and_finds_valid hload hd).1.2
    ⟨rfl, by simp [u], pragma, rfl, _, hdigits, hlength⟩⟩

end SolidityAudit
