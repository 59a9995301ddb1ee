import SolidityAudit.Proofs.TransactionOrigin

/-!
# Added modifiers

A unit and the unit in which one function has further modifiers are compared. Three detectors and the
search for uses of `tx.origin` do not look at modifiers: what they find is the same in the unit without
any. The other findings are made function by function, and a further modifier can only guard the
function or restrict its callers.
-/

namespace SolidityAudit

/-! ## Units without modifiers -/

def FunctionDecl.bare (f : FunctionDecl) : FunctionDecl := { f with modifiers := [] }

def ContractDecl.bare (c : ContractDecl) : ContractDecl :=
  { c with functions := c.functions.map FunctionDecl.bare }

def SourceUnit.bare (u : SourceUnit) : SourceUnit :=
  { u with contracts := u.contracts.map ContractDecl.bare }

namespace SourceUnit

theorem contracts_bare (u : SourceUnit) :
    u.bare.contracts = u.contracts.map ContractDecl.bare := rfl

@[simp] theorem text_bare (u : SourceUnit) : u.bare.text = u.text := rfl

@[simp] theorem pragma_bare (u : SourceUnit) : u.bare.pragma = u.pragma := rfl

theorem contractNames_bare (u : SourceUnit) : u.bare.contractNames = u.contractNames := by
  unfold contractNames bare
  rw [List.map_map]
  rfl

theorem contract?_bare (u : SourceUnit) (name : String) :
    u.bare.contract? name = (u.contract? name).map ContractDecl.bare := by
  unfold contract? bare
  rw [List.find?_map]
  rfl

theorem flatMap_functions_bare (u : SourceUnit)
    (check : ContractDecl → FunctionDecl → List Finding)
    (hcheck : ∀ c f, check c.bare f.bare = check c f) :
    (u.bare.contracts.flatMap fun c => c.functions.flatMap (check c)) =
      u.contracts.flatMap fun c => c.functions.flatMap (check c) := by
  rw [bare, List.flatMap_map]
  congr 1
  funext c
  rw [ContractDecl.bare, List.flatMap_map]
  exact congrArg (c.functions.flatMap ·) (funext (hcheck c))

end SourceUnit

theorem Source.contractSpans_bare (source : List Char) (contracts : List ContractDecl) :
    contractSpans source (contracts.map ContractDecl.bare) = contractSpans source contracts := by
  unfold contractSpans declarationStarts
  rw [List.filterMap_map]
  rfl

theorem Source.functionAt?_bare (c : ContractDecl) (source : List Char) (offset : Int) :
    functionAt? c.bare source offset = (functionAt? c source offset).map FunctionDecl.bare := by
  unfold functionAt? ContractDecl.bare
  rw [List.find?_map]
  rfl

theorem Authorization.originFindings_bare (u : SourceUnit) (c : ContractDecl) :
    originFindings u.bare c.bare = originFindings u c := by
  have hfinding : txOriginFinding u.bare c.bare = txOriginFinding u c := by
    funext use
    unfold txOriginFinding
    rw [Source.functionAt?_bare, Option.map_map]
    rfl
  unfold originFindings txOriginFindings
  rw [SourceUnit.contracts_bare, Source.contractSpans_bare, SourceUnit.contractNames_bare, hfinding]
  rfl

theorem Authorization.filter_findings_bare (u : SourceUnit) :
    (findings u.bare).filter (fun found => found.vulnerability = .txOriginAuth) =
      (findings u).filter (fun found => found.vulnerability = .txOriginAuth) := by
  rw [filter_findings, filter_findings, SourceUnit.contracts_bare, List.flatMap_map]
  simp only [originFindings_bare]

namespace Arithmetic

theorem legacyFindings_bare (u : SourceUnit) : legacyFindings u.bare = legacyFindings u :=
  u.flatMap_functions_bare (legacyFunctionFindings u) fun _ _ => rfl

theorem uncheckedFindings_bare (u : SourceUnit) (fallback : String) :
    uncheckedFindings u.bare fallback = uncheckedFindings u fallback := by
  have hfunction (name : String) (offset : Int) :
      ((u.bare.contract? name).bind fun c => Source.functionAt? c u.bare.text offset).map (·.name) =
        ((u.contract? name).bind fun c => Source.functionAt? c u.text offset).map (·.name) := by
    rw [SourceUnit.contract?_bare]
    cases u.contract? name with
    | none => rfl
    | some c =>
        change (Source.functionAt? c.bare u.text offset).map (·.name) = _
        rw [Source.functionAt?_bare, Option.map_map]
        rfl
  unfold uncheckedFindings
  simp only [SourceUnit.contracts_bare, Source.contractSpans_bare, hfunction]
  rfl

theorem analyze_bare (u : SourceUnit) : detector.analyze u.bare = detector.analyze u := by
  change analyze u.bare = analyze u
  unfold analyze
  rw [legacyFindings_bare, SourceUnit.contracts_bare, SourceUnit.pragma_bare]
  cases u.contracts with
  | nil => rfl
  | cons first rest =>
      simp only [List.map_cons, uncheckedFindings_bare]
      rfl

end Arithmetic

namespace Pricing

theorem flashLoanFindings_bare (u : SourceUnit) : flashLoanFindings u.bare = flashLoanFindings u :=
  u.flatMap_functions_bare (spotPriceFindings (mentionsFlashLoan u.text)) fun _ _ => rfl

theorem pricingContract_bare (u : SourceUnit) (fallback : ContractDecl) :
    pricingContract u.bare fallback.bare = (pricingContract u fallback).bare := by
  simp only [pricingContract, SourceUnit.contracts_bare, Source.contractSpans_bare,
    List.find?_map, Option.getD_map]
  rfl

theorem oracleFindings_bare (u : SourceUnit) : oracleFindings u.bare = oracleFindings u := by
  have hfunctions := u.flatMap_functions_bare (oracleFunctionFindings (usesChainlink u.text))
    fun _ _ => rfl
  simp only [oracleFindings, SourceUnit.text_bare, hfunctions]
  rw [SourceUnit.contracts_bare]
  cases u.contracts with
  | nil => rfl
  | cons first rest =>
      simp only [List.map_cons, pricingContract_bare]
      rfl

end Pricing

/-! ## The place of a function -/

/-- A unit in which the place of one function is open. -/
structure Place where
  /-- The unit with the contracts before the place. -/
  before : SourceUnit
  /-- The contract with the functions before the place. -/
  contract : ContractDecl
  functionsAfter : List FunctionDecl
  contractsAfter : List ContractDecl

namespace Place

def fillContract (p : Place) (f : FunctionDecl) : ContractDecl :=
  { p.contract with functions := p.contract.functions ++ f :: p.functionsAfter }

def fill (p : Place) (f : FunctionDecl) : SourceUnit :=
  { p.before with contracts := p.before.contracts ++ p.fillContract f :: p.contractsAfter }

variable {p : Place} {f f' : FunctionDecl}

theorem bare_fillContract (h : f'.bare = f.bare) :
    (p.fillContract f').bare = (p.fillContract f).bare := by
  simp only [ContractDecl.bare, fillContract, List.map_append, List.map_cons, h]

theorem bare_fill (h : f'.bare = f.bare) : (p.fill f').bare = (p.fill f).bare := by
  simp only [SourceUnit.bare, fill, List.map_append, List.map_cons, bare_fillContract h]

theorem flatMap_contracts_fill (p : Place) (g : FunctionDecl)
    (made : ContractDecl → List Finding) :
    (p.fill g).contracts.flatMap made = p.before.contracts.flatMap made ++
      (made (p.fillContract g) ++ p.contractsAfter.flatMap made) := by
  rw [fill, List.flatMap_append, List.flatMap_cons]

theorem filterMap_functions_fillContract (p : Place) (g : FunctionDecl)
    (check : FunctionDecl → Option Finding) :
    (p.fillContract g).functions.filterMap check = p.contract.functions.filterMap check ++
      ((check g).toList ++ p.functionsAfter.filterMap check) := by
  rw [fillContract, List.filterMap_append]
  cases hg : check g with
  | none => rw [List.filterMap_cons_none hg, Option.toList_none, List.nil_append]
  | some found => rw [List.filterMap_cons_some hg, Option.toList_some, List.singleton_append]

end Place

/-! ## Findings on one function -/

/-- There are no more findings later than earlier, and none is graver than all the earlier ones. -/
structure Milder (earlier later : List Finding) : Prop where
  count : later.length ≤ earlier.length
  severity : ∀ found ∈ later, ∃ found' ∈ earlier, found.severity.rank ≤ found'.severity.rank

namespace Detector

/-- With another function at a place the detector finds the same, but for what it finds on the
function itself. That is one finding or none, and it changes as `change` says. -/
def Confined (d : Detector) (p : Place) (f f' : FunctionDecl)
    (change : Option Finding → Option Finding → Prop) : Prop :=
  ∃ front back on on',
    d.analyze (p.fill f) = .ok (front ++ (on.toList ++ back)) ∧
    d.analyze (p.fill f') = .ok (front ++ (on'.toList ++ back)) ∧
    (∀ found ∈ on, found.OnFunction d.toProfile p.contract f) ∧
    (∀ found ∈ on', found.OnFunction d.toProfile p.contract f') ∧
    change on on'

variable {d : Detector} {p : Place} {f f' : FunctionDecl}
  {change change' : Option Finding → Option Finding → Prop}

theorem Confined.imp (h : d.Confined p f f' change) (himp : ∀ on on', change on on' → change' on on') :
    d.Confined p f f' change' := by
  obtain ⟨front, back, on, on', hf, hf', honf, honf', hchange⟩ := h
  exact ⟨front, back, on, on', hf, hf', honf, honf', himp on on' hchange⟩

/-- A detector that looks at modifiers only where it checks a function. Its other findings are made
for a contract as a whole, by `level`. -/
theorem confined_of_check (level : SourceUnit → ContractDecl → List Finding)
    (check : ContractDecl → FunctionDecl → Option Finding)
    (hd : ∀ u, d.analyze u =
      .ok (u.contracts.flatMap fun c => level u c ++ c.functions.filterMap (check c)))
    (hlevel : ∀ u c, level u.bare c.bare = level u c)
    (hcheck : ∀ g, check (p.fillContract g) = check p.contract)
    (hon : ∀ c g, ∀ found ∈ check c g, found.OnFunction d.toProfile c g)
    (h : f'.bare = f.bare) (hchange : change (check p.contract f) (check p.contract f')) :
    d.Confined p f f' change := by
  -- What is found for a contract as a whole is the same in both units, also for the contract with
  -- the place.
  have hsame {c c' : ContractDecl} (hc : c'.bare = c.bare) :
      level (p.fill f') c' = level (p.fill f) c := by
    rw [← hlevel (p.fill f'), Place.bare_fill h, hc, hlevel]
  have hanalyze (g : FunctionDecl) : d.analyze (p.fill g) = .ok (
      (p.before.contracts.flatMap (fun c => level (p.fill g) c ++ c.functions.filterMap (check c)) ++
        (level (p.fill g) (p.fillContract g) ++ p.contract.functions.filterMap (check p.contract))) ++
      ((check p.contract g).toList ++
        (p.functionsAfter.filterMap (check p.contract) ++
          p.contractsAfter.flatMap
            (fun c => level (p.fill g) c ++ c.functions.filterMap (check c))))) := by
    rw [hd, Place.flatMap_contracts_fill, Place.filterMap_functions_fillContract, hcheck]
    simp only [List.append_assoc]
  refine ⟨_, _, check p.contract f, check p.contract f', hanalyze f, ?_, hon _ f, hon _ f', hchange⟩
  have hothers : level (p.fill f') = level (p.fill f) := funext fun _ => hsame rfl
  rw [hanalyze f', hsame (Place.bare_fillContract h), hothers]

end Detector

variable {f : FunctionDecl} {modifiers : List String}

theorem unguarded_of_subset {guards : String → Bool} {inBody : Bool}
    (h : f.modifiers ⊆ modifiers) (hfree : (modifiers.any guards || inBody) = false) :
    (f.modifiers.any guards || inBody) = false := by
  rw [Bool.or_eq_false_iff, List.any_eq_false] at hfree ⊢
  exact ⟨fun m hm => hfree.1 m (h hm), hfree.2⟩

namespace Reentrancy

theorem checkFunction_withModifiers (c : ContractDecl) (f : FunctionDecl) (modifiers : List String) :
    checkFunction c { f with modifiers := modifiers } =
      if f.isEntryPoint && f.isStateMutating && !hasGuard modifiers f.bodyText then
        (violation? f.bodyText).map fun (call, change) => finding c f call change
      else none := rfl

theorem checkFunction_of_subset (c : ContractDecl) (h : f.modifiers ⊆ modifiers) :
    checkFunction c { f with modifiers := modifiers } = none ∨
      checkFunction c { f with modifiers := modifiers } = checkFunction c f := by
  rw [checkFunction_withModifiers]
  cases hguard : hasGuard modifiers f.bodyText with
  | true =>
      left
      rw [Bool.not_true, Bool.and_false]
      rfl
  | false =>
      right
      have hfree : hasGuard f.modifiers f.bodyText = false := unguarded_of_subset h hguard
      rw [checkFunction, hfree]

theorem confined (p : Place) (h : f.modifiers ⊆ modifiers) :
    detector.Confined p f { f with modifiers := modifiers } fun on on' => on' = none ∨ on' = on :=
  Detector.confined_of_check (fun _ _ => []) checkFunction (fun _ => rfl) (fun _ _ => rfl)
    (fun _ => rfl) onFunction_of_checkFunction rfl (checkFunction_of_subset p.contract h)

end Reentrancy

namespace Authorization

def recordModifiers (modifiers : List String) (found : Finding) : Finding :=
  { found with evidence := found.evidence.set "modifiers" (.texts modifiers) }

theorem checkFunction_withModifiers (c : ContractDecl) (f : FunctionDecl) (modifiers : List String) :
    checkFunction c { f with modifiers := modifiers } =
      if f.isEntryPoint && f.isStateMutating && !f.isConstructor then
        match sensitiveOperation? f with
        | some (label, recognised) =>
          if restrictsCallers modifiers f.bodyText then none
          else some (recordModifiers modifiers (openFinding c f label recognised))
        | none => none
      else none := rfl

theorem checkFunction_of_subset (c : ContractDecl) (h : f.modifiers ⊆ modifiers) :
    checkFunction c { f with modifiers := modifiers } = none ∨
      checkFunction c { f with modifiers := modifiers } =
        (checkFunction c f).map (recordModifiers modifiers) := by
  rw [checkFunction_withModifiers]
  cases hcallers : restrictsCallers modifiers f.bodyText with
  | true =>
      left
      split
      · cases sensitiveOperation? f <;> rfl
      · rfl
  | false =>
      right
      have hfree : restrictsCallers f.modifiers f.bodyText = false := unguarded_of_subset h hcallers
      rw [checkFunction, hfree]
      split
      · cases sensitiveOperation? f <;> rfl
      · rfl

theorem confined (p : Place) (h : f.modifiers ⊆ modifiers) :
    detector.Confined p f { f with modifiers := modifiers } fun on on' =>
      on' = none ∨ on' = on.map (recordModifiers modifiers) :=
  Detector.confined_of_check originFindings checkFunction
    (fun u => congrArg Except.ok (findings_eq_flatMap u)) originFindings_bare
    (fun _ => rfl) onFunction_of_checkFunction rfl (checkFunction_of_subset p.contract h)

end Authorization

namespace CriticalState

/-- A finding stays as it is, unless it is critical: then it may become a medium one or be dropped. -/
inductive Softened : Option Finding → Option Finding → Prop
  | same (on : Option Finding) : Softened on on
  | restricted {found found' : Finding} : found.severity = .critical → found'.severity = .medium →
      Softened (some found) (some found')
  | dropped {found : Finding} : found.severity = .critical → Softened (some found) none

theorem checkFunction_withModifiers (c : ContractDecl) (critical : List String) (f : FunctionDecl)
    (modifiers : List String) :
    checkFunction c critical { f with modifiers := modifiers } =
      if f.isEntryPoint && f.isStateMutating && !f.isConstructor then
        if (modifiedNames f.bodyText critical).isEmpty then none
        else if !Authorization.restrictsCallers modifiers f.bodyText then
          some (unprotectedFinding c f (modifiedNames f.bodyText critical)
            (validatesInput f.bodyText))
        else if validatesInput f.bodyText || f.parameters.isEmpty then none
        else some (unvalidatedFinding c f (modifiedNames f.bodyText critical))
      else none := rfl

theorem softened_checkFunction (c : ContractDecl) (critical : List String)
    (h : f.modifiers ⊆ modifiers) :
    Softened (checkFunction c critical f)
      (checkFunction c critical { f with modifiers := modifiers }) := by
  rw [checkFunction_withModifiers c critical f f.modifiers,
    checkFunction_withModifiers c critical f modifiers]
  cases hlater : Authorization.restrictsCallers modifiers f.bodyText with
  | false =>
      have hfree : Authorization.restrictsCallers f.modifiers f.bodyText = false :=
        unguarded_of_subset h hlater
      rw [hfree]
      exact .same _
  | true =>
      cases Authorization.restrictsCallers f.modifiers f.bodyText with
      | true => exact .same _
      | false =>
          simp only [Bool.not_false, Bool.not_true, Bool.false_eq_true, if_true, if_false]
          split_ifs
          · exact .same _
          · exact .dropped rfl
          · exact .restricted rfl rfl
          · exact .same _

theorem confined (p : Place) (h : f.modifiers ⊆ modifiers) :
    detector.Confined p f { f with modifiers := modifiers } Softened :=
  Detector.confined_of_check (fun _ _ => [])
    (fun c => checkFunction c (criticalNames c.stateVariables)) (fun _ => rfl) (fun _ _ => rfl)
    (fun _ => rfl) (onFunction_of_checkFunction fun c => criticalNames c.stateVariables) rfl
    (softened_checkFunction p.contract _ h)

end CriticalState

/-! ## All detectors -/

namespace Milder

theorem refl (on : List Finding) : Milder on on :=
  ⟨Nat.le_refl _, fun found hfound => ⟨found, hfound, Nat.le_refl _⟩⟩

theorem nil (on : List Finding) : Milder on [] :=
  ⟨Nat.zero_le _, fun _ hfound => absurd hfound List.not_mem_nil⟩

theorem singleton {found found' : Finding} (h : found'.severity.rank ≤ found.severity.rank) :
    Milder [found] [found'] := by
  refine ⟨Nat.le_refl _, fun later hlater => ⟨found, List.mem_singleton_self found, ?_⟩⟩
  rwa [List.mem_singleton.mp hlater]

end Milder

theorem CriticalState.Softened.milder {on on' : Option Finding} (h : Softened on on') :
    Milder on.toList on'.toList := by
  cases h with
  | same => exact .refl _
  | restricted hcritical hmedium =>
      apply Milder.singleton
      rw [hcritical, hmedium]
      decide
  | dropped => exact .nil _

theorem analyze_fill_eq (p : Place) {f f' : FunctionDecl} (h : f'.bare = f.bare) :
    ∀ d ∈ [Arithmetic.detector, Pricing.flashLoanDetector, Pricing.oracleDetector],
      d.analyze (p.fill f') = d.analyze (p.fill f) := by
  intro d hd
  suffices hbare : ∀ u : SourceUnit, d.analyze u.bare = d.analyze u by
    rw [← hbare (p.fill f'), Place.bare_fill h, hbare]
  intro u
  simp only [List.mem_cons, List.not_mem_nil, or_false] at hd
  rcases hd with rfl | rfl | rfl
  · exact Arithmetic.analyze_bare u
  · exact congrArg Except.ok (Pricing.flashLoanFindings_bare u)
  · exact congrArg Except.ok (Pricing.oracleFindings_bare u)

/-- Where a function gets further modifiers, every detector finds the same everywhere else, and on the
function it finds neither more nor anything graver. The detectors for overflow, flash loans and oracles
and the findings on `tx.origin` do not change at all. A finding on reentrancy or on an open function
goes or stays, the latter with the new modifiers as evidence. -/
theorem added_modifiers_ease (p : Place) (f : FunctionDecl) {modifiers : List String}
    (h : f.modifiers ⊆ modifiers) :
    let f' := { f with modifiers := modifiers }
    (∀ d ∈ Registry.standard.detectors, d.analyze (p.fill f') = d.analyze (p.fill f) ∨
      d.Confined p f f' fun on on' => Milder on.toList on'.toList) ∧
    (∀ d ∈ [Arithmetic.detector, Pricing.flashLoanDetector, Pricing.oracleDetector],
      d.analyze (p.fill f') = d.analyze (p.fill f)) ∧
    (Authorization.findings (p.fill f')).filter (fun found => found.vulnerability = .txOriginAuth) =
      (Authorization.findings (p.fill f)).filter (fun found => found.vulnerability = .txOriginAuth) ∧
    Reentrancy.detector.Confined p f f' (fun on on' => on' = none ∨ on' = on) ∧
    Authorization.detector.Confined p f f' (fun on on' =>
      on' = none ∨ on' = on.map (Authorization.recordModifiers modifiers)) ∧
    CriticalState.detector.Confined p f f' CriticalState.Softened := by
  intro f'
  have hunread := @analyze_fill_eq p f f' rfl
  have hreentrancy := Reentrancy.confined p h
  have hauthorization := Authorization.confined p h
  have hcritical := CriticalState.confined p h
  refine ⟨?_, hunread, ?_, hreentrancy, hauthorization, hcritical⟩
  · intro d hd
    simp only [Registry.standard, List.mem_cons, List.not_mem_nil, or_false] at hd
    rcases hd with rfl | rfl | rfl | rfl | rfl | rfl
    · refine Or.inr (hreentrancy.imp ?_)
      rintro on _ (rfl | rfl)
      · exact .nil _
      · exact .refl _
    · refine Or.inr (hauthorization.imp ?_)
      rintro (_ | found) _ (rfl | rfl)
      · exact .nil _
      · exact .nil _
      · exact .nil _
      · exact .singleton (Nat.le_refl _)
    · exact Or.inl (hunread _ (by simp))
    · exact Or.inr (hcritical.imp fun _ _ => CriticalState.Softened.milder)
    · exact Or.inl (hunread _ (by simp))
    · exact Or.inl (hunread _ (by simp))
  · have hbare : (p.fill f').bare = (p.fill f).bare := Place.bare_fill rfl
    rw [← Authorization.filter_findings_bare (p.fill f'), hbare, Authorization.filter_findings_bare]

/-- A modifier that restricts callers, put before another one. The critical finding on the write of
`owner` becomes a medium one, and the finding on the open function is dropped. -/
theorem added_modifiers_ease_restricted :
    let p : Place := {
      before := { contracts := [{ name := "A" }] }
      contract := {
        name := "B"
        stateVariables := [{ name := "owner" }]
        functions := [{ name := "first", body := some "owner = b;" }] }
      functionsAfter := [{ name := "last" }]
      contractsAfter := [] }
    let f : FunctionDecl := {
      name := "setOwner"
      modifiers := ["whenNotPaused"]
      parameters := [{ name := "next" }]
      body := some "owner = next;" }
    let f' : FunctionDecl := { f with modifiers := ["onlyOwner", "whenNotPaused"] }
    f.modifiers ⊆ f'.modifiers ∧
      (CriticalState.findings (p.fill f)).map (·.severity) = [.critical, .critical] ∧
      (CriticalState.findings (p.fill f')).map (·.severity) = [.critical, .medium] ∧
      (Authorization.findings (p.fill f)).map (·.functionName) = [some "setOwner"] ∧
      Authorization.findings (p.fill f') = [] ∧
      CriticalState.detector.Confined p f f' CriticalState.Softened ∧
      ∀ d ∈ Registry.standard.detectors, d.analyze (p.fill f') = d.analyze (p.fill f) ∨
        d.Confined p f f' fun on on' => Milder on.toList on'.toList := by
  intro p f f'
  have h : f.modifiers ⊆ f'.modifiers := by decide
  obtain ⟨hmilder, _, _, _, _, hcritical⟩ := added_modifiers_ease p f h
  have hclosed : (Authorization.findings (p.fill f')).length = 0 := by decide +kernel
  exact ⟨h, by decide +kernel, by decide +kernel, by decide +kernel,
    List.length_eq_zero_iff.mp hclosed, hcritical, hmilder⟩

end SolidityAudit
