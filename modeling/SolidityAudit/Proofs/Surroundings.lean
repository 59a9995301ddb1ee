import SolidityAudit.Authorization.Detector
import SolidityAudit.CriticalState.Detector
import SolidityAudit.Pricing.FlashLoanDetector
import SolidityAudit.Proofs.Search
import SolidityAudit.Reentrancy.Detector

/-!
# Signs in wider surroundings

The guards, the protections and the prices by balance are recognised by patterns that look at nothing
but the text they read. Text around it may change which match is found first, but a match inside is
never lost. So a function stays guarded whatever is written around its guard, and a price by balance is
reported whatever protection stands beside it.
-/

namespace SolidityAudit

namespace Pattern

variable {p : Pattern} {ps : List Pattern} {part text : List Char}

/-- A pattern that can be found wherever a text that it describes stands. -/
def looksInside (p : Pattern) : Bool := p.isPlain && p.isProductive

theorem infix_iff_exists_drop : part <:+: text ↔ ∃ k ≤ text.length, part <+: text.drop k := by
  constructor
  · rintro ⟨before, after, rfl⟩
    refine ⟨before.length, by simp, ?_⟩
    rw [List.append_assoc, List.drop_left]
    exact List.prefix_append part after
  · rintro ⟨k, _, h⟩
    exact h.isInfix.trans (List.drop_suffix k text).isInfix

theorem occursIn_iff_part (hp : p.looksInside = true) :
    p.occursIn text = true ↔ ∃ piece, p.Describes piece ∧ piece <:+: text := by
  obtain ⟨hplain, hproductive⟩ := Bool.and_eq_true_iff.mp hp
  rw [occursIn_iff hproductive]
  constructor
  · rintro ⟨k, hk, r', hr'⟩
    obtain ⟨piece, hpiece, hstands, _⟩ := (reaches_iff_describes hplain).mp hr'
    exact ⟨piece, hpiece, infix_iff_exists_drop.mpr ⟨k, hk, hstands⟩⟩
  · rintro ⟨piece, hpiece, hstands⟩
    obtain ⟨k, hk, hstands⟩ := infix_iff_exists_drop.mp hstands
    exact ⟨k, hk, _, (reaches_iff_describes hplain).mpr ⟨piece, hpiece, hstands, rfl⟩⟩

theorem anyOccursIn_of_part (hps : ps.all looksInside = true) (hpart : part <:+: text)
    (h : anyOccursIn ps part = true) : anyOccursIn ps text = true := by
  obtain ⟨p, hp, hoccurs⟩ := List.any_eq_true.mp h
  have hinside := List.all_eq_true.mp hps p hp
  obtain ⟨piece, hpiece, hstands⟩ := (occursIn_iff_part hinside).mp hoccurs
  apply List.any_eq_true.mpr
  exact ⟨p, hp, (occursIn_iff_part hinside).mpr ⟨piece, hpiece, hstands.trans hpart⟩⟩

end Pattern

open Pattern

variable {modifiers modifiers' : List String} {part text : List Char}

/-- A sign in a modifier or in the body is there among more modifiers and in more text. -/
theorem guarded_of_subset {guards : String → Bool} {ps : List Pattern}
    (hps : ps.all looksInside = true) (hmodifiers : modifiers ⊆ modifiers') (hpart : part <:+: text)
    (h : (modifiers.any guards || anyOccursIn ps part) = true) :
    (modifiers'.any guards || anyOccursIn ps text) = true := by
  rw [Bool.or_eq_true] at h ⊢
  rcases h with hmodifier | hbody
  · obtain ⟨m, hm, hguards⟩ := List.any_eq_true.mp hmodifier
    exact Or.inl (List.any_eq_true.mpr ⟨m, hmodifiers hm, hguards⟩)
  · exact Or.inr (anyOccursIn_of_part hps hpart hbody)

/-! ## The vocabularies -/

theorem Authorization.restrictsCallers_of_part (hmodifiers : modifiers ⊆ modifiers')
    (hpart : part <:+: text) (h : restrictsCallers modifiers part = true) :
    restrictsCallers modifiers' text = true :=
  guarded_of_subset (by decide +kernel) hmodifiers hpart h

theorem Reentrancy.hasGuard_of_part (hmodifiers : modifiers ⊆ modifiers') (hpart : part <:+: text)
    (h : hasGuard modifiers part = true) : hasGuard modifiers' text = true :=
  guarded_of_subset (by decide +kernel) hmodifiers hpart h

theorem Pricing.isProtected_of_part (hpart : part <:+: text) (h : isProtected part = true) :
    isProtected text = true :=
  anyOccursIn_of_part (by decide +kernel) hpart h

theorem Pricing.pricesByBalance_of_part (hpart : part <:+: text)
    (h : pricesByBalance part = true) : pricesByBalance text = true :=
  anyOccursIn_of_part (by decide +kernel) hpart h

/-! ## What is found on a function -/

variable {c : ContractDecl} {f : FunctionDecl}

theorem Authorization.checkFunction_of_restricted
    (h : restrictsCallers f.modifiers f.bodyText = true) : checkFunction c f = none := by
  unfold checkFunction
  rw [h]
  split
  · cases sensitiveOperation? f <;> rfl
  · rfl

theorem CriticalState.medium_of_restricted {critical : List String}
    (h : Authorization.restrictsCallers f.modifiers f.bodyText = true) :
    ∀ found ∈ checkFunction c critical f, found.severity = .medium := by
  intro found hfound
  simp only [checkFunction, h, Bool.not_true, Bool.false_eq_true, if_false] at hfound
  split at hfound
  · split at hfound
    · cases hfound
    · split at hfound
      · cases hfound
      · cases hfound
        rfl
  · cases hfound

theorem Reentrancy.checkFunction_of_guarded (h : hasGuard f.modifiers f.bodyText = true) :
    checkFunction c f = none := by
  simp only [checkFunction, h, Bool.not_true, Bool.and_false, Bool.false_eq_true, if_false]

namespace Pricing

theorem eq_balancePriceFinding_of_protected {flashLoan : Bool}
    (h : isProtected f.bodyText = true) :
    ∀ found ∈ spotPriceFindings flashLoan c f, found = balancePriceFinding c f := by
  intro found hfound
  simp only [spotPriceFindings, h, Bool.not_true, Bool.and_false, Bool.false_eq_true, if_false,
    List.nil_append] at hfound
  split at hfound
  · cases hfound
  · split at hfound
    · exact List.mem_singleton.mp hfound
    · cases hfound

/-- A price by balance is reported, whatever else stands in the body. -/
theorem balancePriceFinding_mem {u : SourceUnit} (hc : c ∈ u.contracts) (hf : f ∈ c.functions)
    (h : pricesByBalance f.bodyText = true) : balancePriceFinding c f ∈ flashLoanFindings u := by
  have hbody : f.bodyText.isEmpty = false := by
    rw [List.isEmpty_eq_false_iff]
    intro hempty
    rw [hempty] at h
    exact absurd h (by decide +kernel)
  refine List.mem_flatMap.mpr ⟨c, hc, List.mem_flatMap.mpr ⟨f, hf, ?_⟩⟩
  simp only [spotPriceFindings, hbody, h, Bool.false_eq_true, if_false, if_true]
  exact List.mem_append_right _ (List.mem_singleton_self _)

end Pricing

/-- With further modifiers and more text before and behind its body a function still restricts its
callers, is still guarded against being entered again, still has a protection of its prices and still
computes a price from a balance, where it did so before. Findings that such a guard rules out are
therefore ruled out in all surroundings, and the price by balance is reported in all of them. -/
theorem surroundings_keep_signs (hmodifiers : modifiers ⊆ modifiers')
    (before body after : List Char) :
    let text := before ++ (body ++ after)
    (Authorization.restrictsCallers modifiers body = true →
      Authorization.restrictsCallers modifiers' text = true) ∧
    (Reentrancy.hasGuard modifiers body = true → Reentrancy.hasGuard modifiers' text = true) ∧
    (Pricing.isProtected body = true → Pricing.isProtected text = true) ∧
    (Pricing.pricesByBalance body = true → Pricing.pricesByBalance text = true) ∧
    ∀ (u : SourceUnit) (c : ContractDecl) (f : FunctionDecl), c ∈ u.contracts → f ∈ c.functions →
      f.modifiers = modifiers' → f.bodyText = text →
      (Authorization.restrictsCallers modifiers body = true →
        Authorization.checkFunction c f = none ∧
        ∀ critical, ∀ found ∈ CriticalState.checkFunction c critical f, found.severity = .medium) ∧
      (Reentrancy.hasGuard modifiers body = true → Reentrancy.checkFunction c f = none) ∧
      (Pricing.isProtected body = true → ∀ flashLoan,
        ∀ found ∈ Pricing.spotPriceFindings flashLoan c f, found = Pricing.balancePriceFinding c f) ∧
      (Pricing.pricesByBalance body = true →
        Pricing.balancePriceFinding c f ∈ Pricing.flashLoanFindings u) := by
  intro text
  have hpart : body <:+: text := ⟨before, after, List.append_assoc before body after⟩
  have hcallers := Authorization.restrictsCallers_of_part hmodifiers hpart
  have hguard := Reentrancy.hasGuard_of_part hmodifiers hpart
  have hprotected := Pricing.isProtected_of_part hpart
  have hbalance := Pricing.pricesByBalance_of_part hpart
  refine ⟨hcallers, hguard, hprotected, hbalance, ?_⟩
  intro u c f hc hf hfmodifiers hftext
  rw [← hfmodifiers, ← hftext] at hcallers hguard
  rw [← hftext] at hprotected hbalance
  refine ⟨fun h => ⟨?_, fun critical => ?_⟩, fun h => ?_, fun h flashLoan => ?_, fun h => ?_⟩
  · exact Authorization.checkFunction_of_restricted (hcallers h)
  · exact CriticalState.medium_of_restricted (hcallers h)
  · exact Reentrancy.checkFunction_of_guarded (hguard h)
  · exact Pricing.eq_balancePriceFinding_of_protected (hprotected h)
  · exact Pricing.balancePriceFinding_mem hc hf (hbalance h)

/-- A body with all four signs, behind another check and before a cooldown. The function is neither open
nor reentrant, and of its prices only the one by balance is reported. -/
theorem surroundings_keep_signs_cooldown :
    let body := "require(msg.sender == owner); require(!locked); p = twap * balanceOf(a) / n;".toList
    let before := "require(msg.sender != address(0)); ".toList
    let after := " cooldown = p * 2;".toList
    let f : FunctionDecl := {
      name := "setPrice"
      modifiers := ["whenNotPaused"]
      body := some (String.ofList (before ++ (body ++ after))) }
    let c : ContractDecl := { name := "C", functions := [f] }
    let u : SourceUnit := { contracts := [c] }
    Authorization.restrictsCallers [] body = true ∧ Reentrancy.hasGuard [] body = true ∧
      Pricing.isProtected body = true ∧ Pricing.pricesByBalance body = true ∧
      Authorization.checkFunction c f = none ∧ Reentrancy.checkFunction c f = none ∧
      (∀ found ∈ Pricing.spotPriceFindings false c f, found = Pricing.balancePriceFinding c f) ∧
      Pricing.balancePriceFinding c f ∈ Pricing.flashLoanFindings u := by
  intro body before after f c u
  have hcallers : Authorization.restrictsCallers [] body = true := by decide +kernel
  have hguard : Reentrancy.hasGuard [] body = true := by decide +kernel
  have hprotected : Pricing.isProtected body = true := by decide +kernel
  have hbalance : Pricing.pricesByBalance body = true := by decide +kernel
  obtain ⟨_, _, _, _, hfound⟩ :=
    surroundings_keep_signs (List.nil_subset ["whenNotPaused"]) before body after
  obtain ⟨hopen, hentered, hspot, hprice⟩ :=
    hfound u c f List.mem_cons_self List.mem_cons_self rfl String.toList_ofList
  exact ⟨hcallers, hguard, hprotected, hbalance, (hopen hcallers).1, hentered hguard,
    hspot hprotected false, hprice hbalance⟩

end SolidityAudit
