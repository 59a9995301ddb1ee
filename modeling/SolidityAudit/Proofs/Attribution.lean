import Mathlib.Tactic.SplitIfs
import SolidityAudit.Detector.Registry
import SolidityAudit.Proofs.ContractSpan
import SolidityAudit.Proofs.Line
import SolidityAudit.Proofs.Loading
import SolidityAudit.Proofs.Writable

/-!
# Attribution of findings

A finding names the detector that made it, a contract of the unit and perhaps a function listed under
a contract of that name, and a line. The detectors make findings along three ways: on a function as
the parser lists it, on an offset of the source whose owner is looked up, and on the unit as a whole.
`OnFunction` covers the first way for all detectors at once; the other two are treated one by one.
-/

namespace SolidityAudit

def Vulnerability.family : Vulnerability → List Vulnerability
  | accessControl => [accessControl, txOriginAuth]
  | integerOverflow => [integerOverflow, integerUnderflow]
  | v => [v]

theorem Vulnerability.mem_family_self (v : Vulnerability) : v ∈ v.family := by
  cases v <;> decide

namespace Finding

def ShowsBlock (f : Finding) : Prop := "unchecked_block" ∈ f.evidence.map (·.1)

/-- A finding that names its detector, a contract of the unit, a function listed under a contract of
that name if it names one, and a line counted from one if it names one. Findings on uses of
`tx.origin` and on unchecked blocks name a line of the source. -/
structure Attributed (u : SourceUnit) (p : Profile) (f : Finding) : Prop where
  detector : f.detector = p.name
  family : f.vulnerability ∈ p.vulnerability.family
  contract : ∃ c ∈ u.contracts, c.name = f.contractName
  function : f.functionName = none ∨
    ∃ c ∈ u.contracts, c.name = f.contractName ∧ ∃ g ∈ c.functions, f.functionName = some g.name
  line : f.lineNumber = none ∨ ∃ n, f.lineNumber = some n ∧ 1 ≤ n
  placed : f.vulnerability = .txOriginAuth ∨ f.ShowsBlock →
    ∃ n, f.lineNumber = some n ∧ n ≤ 1 + Text.lineFeeds u.text

structure Sound (u : SourceUnit) (p : Profile) (f : Finding) : Prop extends Attributed u p f where
  writable : f.isWritable = true

/-- A finding on a listed function `g` of a contract `c`, which is not tied to an offset. -/
structure OnFunction (p : Profile) (c : ContractDecl) (g : FunctionDecl) (f : Finding) : Prop where
  detector : f.detector = p.name
  family : f.vulnerability ∈ p.vulnerability.family
  contract : f.contractName = c.name
  function : f.functionName = some g.name
  line : 1 ≤ g.lineStart → ∃ n, f.lineNumber = some n ∧ 1 ≤ n
  notOrigin : f.vulnerability ≠ .txOriginAuth
  notBlock : ¬ f.ShowsBlock
  writable : f.isWritable = true

variable {u : SourceUnit} {p : Profile} {c : ContractDecl} {g : FunctionDecl} {f : Finding}

theorem OnFunction.sound (h : f.OnFunction p c g) (hu : u.LinesFromOne)
    (hc : c ∈ u.contracts) (hg : g ∈ c.functions) : f.Sound u p where
  detector := h.detector
  family := h.family
  contract := ⟨c, hc, h.contract.symm⟩
  function := Or.inr ⟨c, hc, h.contract.symm, g, hg, h.function⟩
  line := Or.inr (h.line (hu c hc g hg))
  placed hplaced := (hplaced.elim h.notOrigin h.notBlock).elim
  writable := h.writable

/-- The finding has its detector's own kind and the line on which the function starts. -/
theorem OnFunction.of_ownKind (hdetector : f.detector = p.name)
    (hkind : f.vulnerability = p.vulnerability) (horigin : p.vulnerability ≠ .txOriginAuth)
    (hcontract : f.contractName = c.name) (hfunction : f.functionName = some g.name)
    (hline : f.lineNumber = some g.lineStart) (hblock : ¬ f.ShowsBlock)
    (hwritable : f.isWritable = true) : f.OnFunction p c g where
  detector := hdetector
  family := hkind ▸ Vulnerability.mem_family_self _
  contract := hcontract
  function := hfunction
  line hstart := ⟨g.lineStart, hline, hstart⟩
  notOrigin := hkind ▸ horigin
  notBlock := hblock
  writable := hwritable

/-- Findings made function by function are sound if those on each function are. -/
theorem sound_of_mem_flatMap {check : ContractDecl → FunctionDecl → List Finding}
    (hu : u.LinesFromOne) (hcheck : ∀ c g, ∀ f ∈ check c g, f.OnFunction p c g)
    (hf : f ∈ u.contracts.flatMap fun c => c.functions.flatMap (check c)) : f.Sound u p := by
  obtain ⟨c, hc, hfc⟩ := List.mem_flatMap.mp hf
  obtain ⟨g, hg, hfg⟩ := List.mem_flatMap.mp hfc
  exact (hcheck c g f hfg).sound hu hc hg

theorem sound_of_mem_filterMap {check : ContractDecl → FunctionDecl → Option Finding}
    (hu : u.LinesFromOne) (hcheck : ∀ c g, ∀ f ∈ check c g, f.OnFunction p c g)
    (hf : f ∈ u.contracts.flatMap fun c => c.functions.filterMap (check c)) :
    f.Sound u p := by
  obtain ⟨c, hc, hfc⟩ := List.mem_flatMap.mp hf
  obtain ⟨g, hg, hfg⟩ := List.mem_filterMap.mp hfc
  exact (hcheck c g f hfg).sound hu hc hg

end Finding

open Finding

variable {u : SourceUnit} {f : Finding}

/-! ## Functions as they are listed -/

namespace Reentrancy

theorem onFunction_of_checkFunction (c : ContractDecl) (g : FunctionDecl) :
    ∀ f ∈ checkFunction c g, f.OnFunction profile c g := by
  intro f hf
  unfold checkFunction at hf
  split at hf
  · obtain ⟨⟨call, change⟩, _, rfl⟩ := Option.map_eq_some_iff.mp hf
    exact .of_ownKind rfl rfl (by decide) rfl rfl rfl (by simp [ShowsBlock, finding])
      (by simp [Finding.isWritable, finding])
  · cases hf

theorem sound_of_mem_findings (hu : u.LinesFromOne) (hf : f ∈ findings u) :
    f.Sound u profile :=
  sound_of_mem_filterMap hu onFunction_of_checkFunction hf

end Reentrancy

namespace CriticalState

theorem onFunction_of_checkFunction (critical : ContractDecl → List String) (c : ContractDecl)
    (g : FunctionDecl) : ∀ f ∈ checkFunction c (critical c) g, f.OnFunction profile c g := by
  intro f hf
  simp only [checkFunction] at hf
  split_ifs at hf with hopen hmodified hcallers hvalidated
  all_goals cases hf
  · exact .of_ownKind rfl rfl (by decide) rfl rfl rfl (by simp [ShowsBlock, unprotectedFinding])
      (by simp [Finding.isWritable, unprotectedFinding])
  · exact .of_ownKind rfl rfl (by decide) rfl rfl rfl (by simp [ShowsBlock, unvalidatedFinding])
      (by simp [Finding.isWritable, unvalidatedFinding])

theorem sound_of_mem_findings (hu : u.LinesFromOne) (hf : f ∈ findings u) :
    f.Sound u profile :=
  sound_of_mem_filterMap hu
    (onFunction_of_checkFunction fun c => criticalNames c.stateVariables) hf

end CriticalState

namespace Pricing

theorem onFunction_of_spotPriceFindings (flashLoan : Bool) (c : ContractDecl) (g : FunctionDecl) :
    ∀ f ∈ spotPriceFindings flashLoan c g, f.OnFunction flashLoanProfile c g := by
  intro f hf
  unfold spotPriceFindings at hf
  dsimp only at hf
  split at hf
  · cases hf
  · rcases List.mem_append.mp hf with hspot | hbalance
    · split_ifs at hspot
      · cases List.mem_singleton.mp hspot
        exact .of_ownKind rfl rfl (by decide) rfl rfl rfl (by simp [ShowsBlock, spotPriceFinding])
          (by simp [Finding.isWritable, spotPriceFinding])
      · cases hspot
    · split_ifs at hbalance
      · cases List.mem_singleton.mp hbalance
        exact .of_ownKind rfl rfl (by decide) rfl rfl rfl
          (by simp [ShowsBlock, balancePriceFinding])
          (by simp [Finding.isWritable, balancePriceFinding])
      · cases hbalance

theorem sound_of_mem_flashLoanFindings (hu : u.LinesFromOne) (hf : f ∈ flashLoanFindings u) :
    f.Sound u flashLoanProfile :=
  sound_of_mem_flatMap hu (onFunction_of_spotPriceFindings _) hf

theorem onFunction_of_chainlinkFindings (c : ContractDecl) (g : FunctionDecl) :
    ∀ f ∈ chainlinkFindings c g, f.OnFunction oracleProfile c g := by
  intro f hf
  simp only [chainlinkFindings, List.mem_append] at hf
  rcases hf with hstale | hunsound
  · split_ifs at hstale
    · cases hstale
    · cases List.mem_singleton.mp hstale
      exact .of_ownKind rfl rfl (by decide) rfl rfl rfl (by simp [ShowsBlock, staleFinding])
        (by simp [Finding.isWritable, staleFinding])
  · split_ifs at hunsound
    · cases hunsound
    · cases List.mem_singleton.mp hunsound
      exact .of_ownKind rfl rfl (by decide) rfl rfl rfl (by simp [ShowsBlock, unsoundFinding])
        (by simp [Finding.isWritable, unsoundFinding])

theorem onFunction_of_checkSingleSource (c : ContractDecl) (g : FunctionDecl) :
    ∀ f ∈ checkSingleSource c g, f.OnFunction oracleProfile c g := by
  intro f hf
  unfold checkSingleSource at hf
  split at hf
  · split_ifs at hf
    · cases hf
    · cases hf
      exact .of_ownKind rfl rfl (by decide) rfl rfl rfl (by simp [ShowsBlock, singleSourceFinding])
        (by simp [Finding.isWritable, singleSourceFinding])
  · cases hf

theorem onFunction_of_oracleFunctionFindings (chainlink : Bool) (c : ContractDecl)
    (g : FunctionDecl) :
    ∀ f ∈ oracleFunctionFindings chainlink c g, f.OnFunction oracleProfile c g := by
  intro f hf
  unfold oracleFunctionFindings at hf
  split_ifs at hf
  · cases hf
  · rcases List.mem_append.mp hf with hf | hf
    · exact onFunction_of_chainlinkFindings c g f hf
    · exact onFunction_of_checkSingleSource c g f (Option.mem_toList.mp hf)
  · exact onFunction_of_checkSingleSource c g f (Option.mem_toList.mp hf)

end Pricing

namespace Authorization

theorem onFunction_of_checkFunction (c : ContractDecl) (g : FunctionDecl) :
    ∀ f ∈ checkFunction c g, f.OnFunction profile c g := by
  intro f hf
  unfold checkFunction at hf
  split at hf
  · split at hf
    · split_ifs at hf
      · cases hf
      · cases hf
        exact .of_ownKind rfl rfl (by decide) rfl rfl rfl (by simp [ShowsBlock, openFinding])
          (by simp [Finding.isWritable, openFinding])
    · cases hf
  · cases hf

end Authorization

namespace Arithmetic

theorem risk_mem_family (r : Risk) : r.vulnerability ∈ profile.vulnerability.family := by
  cases r <;> decide

theorem legacyFinding_onFunction (u : SourceUnit) (c : ContractDecl) (g : FunctionDecl)
    (safeMath : Bool) (op : Operation) (m : Pattern.Match) :
    (legacyFinding u c g safeMath op m).OnFunction profile c g where
  detector := rfl
  family := risk_mem_family op.risk
  contract := rfl
  function := rfl
  line hstart := ⟨_, rfl, Source.one_le_bodyLine u.text hstart m.start⟩
  notOrigin := by
    show op.risk.vulnerability ≠ .txOriginAuth
    cases op.risk <;> decide
  notBlock := by
    show "unchecked_block" ∉ ["operation", "operation_type", "solidity_version", "uses_safe_math"]
    decide
  writable := by
    show ((Json.ofText? u.pragma).isWritable && true) = true
    rw [Json.isWritable_ofText?, Bool.and_self]

theorem onFunction_of_legacyFunctionFindings (u : SourceUnit) (c : ContractDecl)
    (g : FunctionDecl) : ∀ f ∈ legacyFunctionFindings u c g, f.OnFunction profile c g := by
  intro f hf
  unfold legacyFunctionFindings at hf
  dsimp only at hf
  split at hf
  · cases hf
  · obtain ⟨⟨op, m⟩, _, rfl⟩ := List.mem_map.mp (List.mem_mergeSort.mp hf)
    exact legacyFinding_onFunction u c g _ op m

theorem sound_of_mem_legacyFindings (hu : u.LinesFromOne) (hf : f ∈ legacyFindings u) :
    f.Sound u profile :=
  sound_of_mem_flatMap hu (onFunction_of_legacyFunctionFindings u) hf

end Arithmetic

/-! ## Offsets of the source -/

namespace Authorization

/-- A use of `tx.origin` is reported under a contract that is listed, with the line of its offset. -/
theorem txOriginFinding_sound {c : ContractDecl} (hc : c ∈ u.contracts) (occurrence : Span) :
    (txOriginFinding u c occurrence).Sound u profile where
  detector := rfl
  family := List.mem_cons_of_mem _ List.mem_cons_self
  contract := ⟨c, hc, rfl⟩
  function := by
    cases hg : Source.functionAt? c u.text occurrence.start with
    | none => exact Or.inl (by simp [txOriginFinding, hg])
    | some g =>
        exact Or.inr ⟨c, hc, rfl, g, Source.mem_functions_of_functionAt?_eq_some hg,
          by simp [txOriginFinding, hg]⟩
  line := Or.inr ⟨_, rfl, Source.one_le_lineAt _ _⟩
  placed _ := ⟨_, rfl, Source.lineAt_le _ _⟩
  writable := by simp [Finding.isWritable, txOriginFinding]

theorem sound_of_mem_txOriginFindings {c : ContractDecl} (hc : c ∈ u.contracts)
    {spans : Source.SpanTable} {fallback : String}
    (hf : f ∈ txOriginFindings u spans fallback c) : f.Sound u profile := by
  obtain ⟨occurrence, _, hoccurrence⟩ := List.mem_filterMap.mp hf
  split_ifs at hoccurrence
  cases hoccurrence
  exact txOriginFinding_sound hc occurrence

theorem sound_of_mem_findings (hu : u.LinesFromOne) (hf : f ∈ findings u) :
    f.Sound u profile := by
  unfold findings at hf
  split at hf
  · cases hf
  · obtain ⟨c, hc, hfc⟩ := List.mem_flatMap.mp hf
    rcases List.mem_append.mp hfc with horigin | hopen
    · exact sound_of_mem_txOriginFindings hc horigin
    · obtain ⟨g, hg, hfg⟩ := List.mem_filterMap.mp hopen
      exact (onFunction_of_checkFunction c g f hfg).sound hu hc hg

end Authorization

namespace Arithmetic

/-- The function named for an unchecked block is listed under the first contract of the owner's
name, since it is looked up there. -/
theorem uncheckedFinding_sound (block : Pattern.Match) (op : Operation) {name : String}
    (hname : name ∈ u.contracts.map (·.name)) :
    (uncheckedFinding u block op name (((u.contract? name).bind fun c =>
      Source.functionAt? c u.text block.start).map (·.name))).Sound u profile where
  detector := rfl
  family := risk_mem_family op.risk
  contract := List.mem_map.mp hname
  function := by
    cases hg : (u.contract? name).bind fun c => Source.functionAt? c u.text block.start with
    | none => exact Or.inl rfl
    | some g =>
        obtain ⟨c, hc, hgc⟩ := Option.bind_eq_some_iff.mp hg
        have hmem : c ∈ u.contracts := List.mem_of_find?_eq_some hc
        have hcname : c.name = name := by simpa using List.find?_some hc
        exact Or.inr ⟨c, hmem, hcname, g, Source.mem_functions_of_functionAt?_eq_some hgc, rfl⟩
  line := Or.inr ⟨_, rfl, Source.one_le_lineAt _ _⟩
  placed _ := ⟨_, rfl, Source.lineAt_le _ _⟩
  writable := by simp [Finding.isWritable, uncheckedFinding]

theorem sound_of_mem_uncheckedFindings {fallback : String}
    (hfallback : fallback ∈ u.contracts.map (·.name)) (hf : f ∈ uncheckedFindings u fallback) :
    f.Sound u profile := by
  obtain ⟨block, _, hblock⟩ := List.mem_filterMap.mp hf
  obtain ⟨⟨op, m⟩, _, rfl⟩ := Option.map_eq_some_iff.mp hblock
  exact uncheckedFinding_sound block op
    (Source.ownerOr_contractSpans_mem hfallback (block.start : Int))

theorem sound_of_analyze (hu : u.LinesFromOne) {found : List Finding}
    (hrun : analyze u = .ok found) (hf : f ∈ found) : f.Sound u profile := by
  unfold analyze at hrun
  split at hrun
  · cases hrun
    cases hf
  · next first rest hcontracts =>
      split at hrun
      · cases hrun
      · cases hrun
        exact sound_of_mem_legacyFindings hu hf
      · cases hrun
        exact sound_of_mem_uncheckedFindings (by simp [hcontracts]) hf

end Arithmetic

/-! ## The unit as a whole -/

namespace Pricing

theorem pricingContract_mem {fallback : ContractDecl} (hfallback : fallback ∈ u.contracts) :
    pricingContract u fallback ∈ u.contracts := by
  unfold pricingContract
  dsimp only
  generalize hfind : u.contracts.find? _ = found
  cases found with
  | none => exact hfallback
  | some c => exact List.mem_of_find?_eq_some hfind

theorem onChainFinding_sound {c : ContractDecl} (hc : c ∈ u.contracts) :
    (onChainFinding c).Sound u oracleProfile where
  detector := rfl
  family := Vulnerability.mem_family_self _
  contract := ⟨c, hc, rfl⟩
  function := Or.inl rfl
  line := Or.inl rfl
  placed hplaced := by
    rcases hplaced with horigin | hblock
    · cases horigin
    · exact absurd hblock (by simp [ShowsBlock, onChainFinding])
  writable := rfl

theorem sound_of_mem_oracleFindings (hu : u.LinesFromOne) (hf : f ∈ oracleFindings u) :
    f.Sound u oracleProfile := by
  unfold oracleFindings at hf
  dsimp only at hf
  split at hf
  · cases hf
  · next first rest hcontracts =>
      split at hf
      · rcases List.mem_append.mp hf with hfunction | hunit
        · exact sound_of_mem_flatMap hu (onFunction_of_oracleFunctionFindings _) hfunction
        · split_ifs at hunit
          · cases List.mem_singleton.mp hunit
            exact onChainFinding_sound (pricingContract_mem (by simp [hcontracts]))
          · cases hunit
      · cases hf

end Pricing

/-! ## All detectors -/

theorem standard_findings_sound {d : Detector} {found : List Finding} (hu : u.LinesFromOne)
    (hd : d ∈ Registry.standard.detectors) (hrun : d.analyze u = .ok found) (hf : f ∈ found) :
    f.Sound u d.toProfile := by
  simp only [Registry.standard, List.mem_cons, List.not_mem_nil, or_false] at hd
  rcases hd with rfl | rfl | rfl | rfl | rfl | rfl
  · cases hrun
    exact Reentrancy.sound_of_mem_findings hu hf
  · cases hrun
    exact Authorization.sound_of_mem_findings hu hf
  · exact Arithmetic.sound_of_analyze hu hrun hf
  · cases hrun
    exact CriticalState.sound_of_mem_findings hu hf
  · cases hrun
    exact Pricing.sound_of_mem_flashLoanFindings hu hf
  · cases hrun
    exact Pricing.sound_of_mem_oracleFindings hu hf

/-- Whatever a detector of the standard registry finds in a unit that was read is attributed. -/
theorem standard_findings_attributed {payload : Json} {d : Detector} {found : List Finding}
    (hload : SourceUnit.loadPayload payload = .ok u) (hd : d ∈ Registry.standard.detectors)
    (hrun : d.analyze u = .ok found) (hf : f ∈ found) : f.Attributed u d.toProfile :=
  (standard_findings_sound (SourceUnit.linesFromOne_of_loadPayload hload) hd hrun hf).toAttributed

/-- A use of `tx.origin` and an unchecked block in a function of a contract whose declaration the
source does not show. -/
theorem standard_findings_attributed_undeclared :
    let body := "\x7b require(tx.origin == a); unchecked \x7b b + c; \x7d \x7d"
    let u : SourceUnit := {
      source := "function f() " ++ body
      pragma := some "^0.8.0"
      contracts := [{ name := "C", functions := [{ name := "f", body := some body }] }] }
    SourceUnit.loadPayload u.dump = .ok u ∧
      (∃ f ∈ Authorization.findings u, f.vulnerability = .txOriginAuth ∧
        f.functionName = some "f" ∧ f.Attributed u Authorization.profile) ∧
      Arithmetic.analyze u = .ok (Arithmetic.uncheckedFindings u "C") ∧
      ∃ f ∈ Arithmetic.uncheckedFindings u "C", f.ShowsBlock ∧
        f.functionName = some "f" ∧ f.Attributed u Arithmetic.profile := by
  intro body u
  have hload : SourceUnit.loadPayload u.dump = .ok u := rfl
  have horigin : ((Authorization.findings u).any fun f =>
      decide (f.vulnerability = .txOriginAuth ∧ f.functionName = some "f")) = true := by
    decide +kernel
  obtain ⟨f, hf, hfound⟩ := List.any_eq_true.mp horigin
  have hrun : Arithmetic.analyze u = .ok (Arithmetic.uncheckedFindings u "C") := rfl
  have hblock : ((Arithmetic.uncheckedFindings u "C").any fun f =>
      decide ("unchecked_block" ∈ f.evidence.map (·.1) ∧ f.functionName = some "f")) = true := by
    decide +kernel
  obtain ⟨g, hg, hgfound⟩ := List.any_eq_true.mp hblock
  obtain ⟨hkind, hfunction⟩ := of_decide_eq_true hfound
  obtain ⟨hshows, hgfunction⟩ := of_decide_eq_true hgfound
  have hf' := standard_findings_attributed (d := Authorization.detector) hload
    (by simp [Registry.standard]) rfl hf
  have hg' := standard_findings_attributed (d := Arithmetic.detector) hload
    (by simp [Registry.standard]) hrun hg
  exact ⟨hload, ⟨f, hf, hkind, hfunction, hf'⟩, hrun, g, hg, hshows, hgfunction, hg'⟩

end SolidityAudit
