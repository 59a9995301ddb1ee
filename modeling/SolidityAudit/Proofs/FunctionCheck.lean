import Mathlib.Data.List.Forall2
import SolidityAudit.SourceUnit.Basic

/-!
# Checks of listed functions

Several detectors look at the functions of a unit one by one, contract by contract, and give at most
one finding on each. Their findings are then those on the functions that they report, in this order.
-/

namespace SolidityAudit.SourceUnit

def listedFunctions (u : SourceUnit) : List (ContractDecl × FunctionDecl) :=
  u.contracts.flatMap fun c => c.functions.map (c, ·)

variable {β : Type} (check : ContractDecl → FunctionDecl → Option β)

theorem flatMap_filterMap_check (u : SourceUnit) :
    (u.contracts.flatMap fun c => c.functions.filterMap (check c)) =
      u.listedFunctions.filterMap fun p => check p.1 p.2 := by
  simp only [listedFunctions, List.filterMap_flatMap, List.filterMap_map, Function.comp_def]

/-- What a check gives on the functions one by one stands for those that it reports, in order. -/
theorem forall₂_reported (u : SourceUnit) {Reported : ContractDecl × FunctionDecl → Prop}
    [DecidablePred Reported] {Reports : ContractDecl × FunctionDecl → β → Prop}
    (hsome : ∀ p b, check p.1 p.2 = some b → Reported p ∧ Reports p b)
    (hnone : ∀ p, check p.1 p.2 = none → ¬ Reported p) :
    List.Forall₂ Reports (u.listedFunctions.filter fun p => Reported p)
      (u.contracts.flatMap fun c => c.functions.filterMap (check c)) := by
  rw [flatMap_filterMap_check]
  induction u.listedFunctions with
  | nil => exact .nil
  | cons p rest ih =>
      cases hcheck : check p.1 p.2 with
      | none =>
          have hp := hnone p hcheck
          simpa [hcheck, hp] using ih
      | some b =>
          obtain ⟨hp, hreports⟩ := hsome p b hcheck
          simpa [hcheck, hp] using ⟨hreports, ih⟩

end SolidityAudit.SourceUnit
