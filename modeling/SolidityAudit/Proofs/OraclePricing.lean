import SolidityAudit.Proofs.Attribution
import SolidityAudit.Proofs.Surroundings

/-!
# Prices taken from reserves

Beside the findings on functions there is one finding on a unit as a whole: its prices come from the
reserves of a market maker. It is made only where Chainlink is not used, and findings on the use of
Chainlink only where it is, so the two never stand together. The findings on functions depend on the
source through two answers only, whether an oracle is mentioned and whether Chainlink is used.
-/

namespace SolidityAudit

namespace Pattern

def Mentions (text : List Char) (name : String) : Prop :=
  ∃ piece, piece <:+: text ∧ piece.map Text.foldCase = name.toList.map Text.foldCase

theorem describes_sameLetter_iff {c : Char} {piece : List Char} :
    (one (Text.sameLetter c)).Describes piece ↔
      ∃ d, piece = [d] ∧ Text.foldCase d = Text.foldCase c := by
  constructor
  · rintro ⟨d, hd, rfl⟩
    exact ⟨d, rfl, (beq_iff_eq.mp hd).symm⟩
  · rintro ⟨d, rfl, hd⟩
    exact ⟨d, beq_iff_eq.mpr hd.symm, rfl⟩

theorem describes_anyCase_iff {name : String} {piece : List Char} :
    (anyCase name).Describes piece ↔ piece.map Text.foldCase = name.toList.map Text.foldCase := by
  unfold anyCase
  induction name.toList generalizing piece with
  | nil => exact List.map_eq_nil_iff.symm
  | cons c cs ih =>
      cases cs with
      | nil =>
          refine describes_sameLetter_iff.trans ?_
          simp [List.map_eq_cons_iff]
      | cons d cs =>
          constructor
          · rintro ⟨_, rest, rfl, hfirst, hrest⟩
            obtain ⟨e, rfl, he⟩ := describes_sameLetter_iff.mp hfirst
            rw [List.singleton_append, List.map_cons, he, ih.mp hrest]
            rfl
          · intro h
            obtain ⟨e, rest, rfl, he, hrest⟩ := List.map_eq_cons_iff.mp h
            exact ⟨[e], rest, rfl, describes_sameLetter_iff.mpr ⟨e, rfl, he⟩, ih.mpr hrest⟩

theorem anyOccursIn_anyCase_iff {names : List String} {text : List Char}
    (hnames : (names.map anyCase).all looksInside = true) :
    anyOccursIn (names.map anyCase) text = true ↔ ∃ name ∈ names, Mentions text name := by
  rw [anyOccursIn, List.any_map, List.any_eq_true]
  refine exists_congr fun name => and_congr_right fun hname => ?_
  rw [Function.comp_apply, occursIn_iff_part (List.all_eq_true.mp hnames _ (List.mem_map_of_mem hname))]
  simp only [describes_anyCase_iff, Mentions, and_comm]

end Pattern

namespace Pricing
open Pattern

variable {u : SourceUnit} {c : ContractDecl} {f : Finding}

/-! ## The contract that prices by reserves -/

def StretchMentionsReserve (u : SourceUnit) (c : ContractDecl) : Prop :=
  ∃ span, (Source.contractSpans u.text u.contracts).lookup c.name = some span ∧
    ∃ name ∈ ["getReserves", "reserve0", "reserve1"], Mentions (span.text u.text) name

/-- The first contract whose stretch mentions a reserve, or the first of all if there is none. -/
def IsPricing (u : SourceUnit) (c : ContractDecl) : Prop :=
  (∃ before after, u.contracts = before ++ c :: after ∧ StretchMentionsReserve u c ∧
    ∀ d ∈ before, ¬ StretchMentionsReserve u d) ∨
  (u.contracts.head? = some c ∧ ∀ d ∈ u.contracts, ¬ StretchMentionsReserve u d)

def hasReserveInStretch (u : SourceUnit) (c : ContractDecl) : Bool :=
  ((Source.contractSpans u.text u.contracts).lookup c.name).any fun span =>
    mentionsReserves (span.text u.text)

theorem hasReserveInStretch_iff : hasReserveInStretch u c = true ↔ StretchMentionsReserve u c := by
  have hwords : ∀ text, mentionsReserves text = true ↔
      ∃ name ∈ ["getReserves", "reserve0", "reserve1"], Mentions text name :=
    fun _ => anyOccursIn_anyCase_iff (by decide +kernel)
  simp only [hasReserveInStretch, StretchMentionsReserve, Option.any_eq_true, hwords]

theorem pricingContract_eq (u : SourceUnit) (fallback : ContractDecl) :
    pricingContract u fallback = (u.contracts.find? (hasReserveInStretch u)).getD fallback := by
  unfold pricingContract
  dsimp only
  congr 2
  funext c
  unfold hasReserveInStretch
  cases (Source.contractSpans u.text u.contracts).lookup c.name <;> rfl

theorem isPricing_pricingContract {first : ContractDecl} (hfirst : u.contracts.head? = some first) :
    IsPricing u (pricingContract u first) := by
  rw [pricingContract_eq]
  cases hfind : u.contracts.find? (hasReserveInStretch u) with
  | some c =>
      obtain ⟨hc, before, after, hsplit, hbefore⟩ := List.find?_eq_some_iff_append.mp hfind
      refine Or.inl ⟨before, after, hsplit, hasReserveInStretch_iff.mp hc, fun d hd hmentions => ?_⟩
      have hnot := hbefore d hd
      rw [hasReserveInStretch_iff.mpr hmentions] at hnot
      cases hnot
  | none =>
      refine Or.inr ⟨hfirst, fun d hd hmentions => ?_⟩
      exact List.find?_eq_none.mp hfind d hd (hasReserveInStretch_iff.mpr hmentions)

/-! ## The two families of findings -/

def IsOnChain (f : Finding) : Prop := f.title = "On-Chain Price Without Oracle Protection"

def IsChainlink (f : Finding) : Prop :=
  f.title = "Missing Oracle Freshness Check" ∨ f.title = "Missing Oracle Price Validation"

instance : DecidablePred IsOnChain := fun f => inferInstanceAs (Decidable (f.title = _))

/-- A unit with a contract, whose source mentions an oracle, does not use Chainlink and prices by
reserves. -/
structure PricesByReserves (u : SourceUnit) : Prop where
  contracts : u.contracts ≠ []
  oracle : mentionsOracle u.text = true
  chainlink : usesChainlink u.text = false
  onChain : pricesOnChain u.text = true

def functionFindings (u : SourceUnit) : List Finding :=
  if mentionsOracle u.text || usesChainlink u.text then
    u.contracts.flatMap fun c => c.functions.flatMap (oracleFunctionFindings (usesChainlink u.text) c)
  else []

theorem oracleFindings_cases (u : SourceUnit) :
    (¬ PricesByReserves u ∧ oracleFindings u = functionFindings u) ∨
    (PricesByReserves u ∧ ∃ c, IsPricing u c ∧
      oracleFindings u = functionFindings u ++ [onChainFinding c]) := by
  unfold oracleFindings functionFindings
  dsimp only
  cases hcontracts : u.contracts with
  | nil => exact Or.inl ⟨fun h => h.contracts hcontracts, by simp⟩
  | cons first rest =>
      dsimp only
      by_cases hused : (mentionsOracle u.text || usesChainlink u.text) = true
      · rw [if_pos hused, if_pos hused]
        by_cases honChain : (!usesChainlink u.text && pricesOnChain u.text) = true
        · rw [if_pos honChain]
          obtain ⟨hchainlink, hprices⟩ := Bool.and_eq_true_iff.mp honChain
          rw [Bool.not_eq_true'] at hchainlink
          rw [hchainlink, Bool.or_false] at hused
          exact Or.inr ⟨⟨by simp [hcontracts], hused, hchainlink, hprices⟩, _,
            isPricing_pricingContract (by simp [hcontracts]), rfl⟩
        · rw [if_neg honChain, List.append_nil]
          exact Or.inl ⟨fun h => honChain (by rw [h.chainlink, h.onChain]; rfl), rfl⟩
      · rw [if_neg hused, if_neg hused]
        exact Or.inl ⟨fun h => hused (by rw [h.oracle, Bool.true_or]), rfl⟩

theorem isChainlink_of_mem_chainlinkFindings {g : FunctionDecl} (hf : f ∈ chainlinkFindings c g) :
    IsChainlink f := by
  rcases List.mem_append.mp hf with hstale | hunsound
  · split_ifs at hstale
    · cases hstale
    · cases List.mem_singleton.mp hstale
      exact Or.inl rfl
  · split_ifs at hunsound
    · cases hunsound
    · cases List.mem_singleton.mp hunsound
      exact Or.inr rfl

theorem title_of_checkSingleSource {g : FunctionDecl} (hf : checkSingleSource c g = some f) :
    f.title = "Single Oracle Source Dependency" := by
  unfold checkSingleSource at hf
  split at hf
  · split_ifs at hf
    cases hf
    rfl
  · cases hf

theorem title_of_mem_oracleFunctionFindings {chainlink : Bool} {g : FunctionDecl}
    (hf : f ∈ oracleFunctionFindings chainlink c g) :
    (IsChainlink f ∧ chainlink = true) ∨ f.title = "Single Oracle Source Dependency" := by
  unfold oracleFunctionFindings at hf
  split_ifs at hf with hbody hcall
  · cases hf
  · rcases List.mem_append.mp hf with hchainlink | hsingle
    · exact Or.inl ⟨isChainlink_of_mem_chainlinkFindings hchainlink,
        (Bool.and_eq_true_iff.mp hcall).1⟩
    · exact Or.inr (title_of_checkSingleSource (Option.mem_toList.mp hsingle))
  · exact Or.inr (title_of_checkSingleSource (Option.mem_toList.mp hf))

theorem exists_function_of_mem_functionFindings (hf : f ∈ functionFindings u) :
    ∃ c g, f ∈ oracleFunctionFindings (usesChainlink u.text) c g := by
  unfold functionFindings at hf
  split_ifs at hf
  · obtain ⟨c, _, hf⟩ := List.mem_flatMap.mp hf
    obtain ⟨g, _, hf⟩ := List.mem_flatMap.mp hf
    exact ⟨c, g, hf⟩
  · cases hf

theorem not_isOnChain_of_mem_functionFindings (hf : f ∈ functionFindings u) : ¬ IsOnChain f := by
  obtain ⟨c, g, hf⟩ := exists_function_of_mem_functionFindings hf
  unfold IsOnChain
  rcases title_of_mem_oracleFunctionFindings hf with ⟨htitle | htitle, _⟩ | htitle
  · rw [htitle]
    decide
  · rw [htitle]
    decide
  · rw [htitle]
    decide

theorem usesChainlink_of_isChainlink (hf : f ∈ functionFindings u) (h : IsChainlink f) :
    usesChainlink u.text = true := by
  obtain ⟨c, g, hf⟩ := exists_function_of_mem_functionFindings hf
  rcases title_of_mem_oracleFunctionFindings hf with ⟨_, hused⟩ | htitle
  · exact hused
  · rw [IsChainlink, htitle] at h
    exact absurd h (by decide)

theorem isSome_functionName_of_mem_functionFindings (hf : f ∈ functionFindings u) :
    f.functionName.isSome = true := by
  obtain ⟨c, g, hf⟩ := exists_function_of_mem_functionFindings hf
  rw [(onFunction_of_oracleFunctionFindings _ c g f hf).function]
  rfl

theorem filter_oracleFindings (u : SourceUnit) :
    (oracleFindings u).filter (·.functionName.isSome) = functionFindings u := by
  have hall : (functionFindings u).filter (·.functionName.isSome) = functionFindings u :=
    List.filter_eq_self.mpr fun f hf => isSome_functionName_of_mem_functionFindings hf
  rcases oracleFindings_cases u with ⟨_, hfindings⟩ | ⟨_, c, _, hfindings⟩
  · rw [hfindings, hall]
  · rw [hfindings, List.filter_append, hall]
    exact List.append_nil _

theorem functionFindings_congr {v : SourceUnit} (hcontracts : v.contracts = u.contracts)
    (horacle : mentionsOracle v.text = mentionsOracle u.text)
    (hchainlink : usesChainlink v.text = usesChainlink u.text) :
    functionFindings v = functionFindings u := by
  rw [functionFindings, hcontracts, horacle, hchainlink, functionFindings]

theorem not_isChainlink_of_isOnChain (h : IsOnChain f) : ¬ IsChainlink f := by
  rw [IsOnChain] at h
  rw [IsChainlink, h]
  decide

theorem not_isChainlink_of_pricesByReserves (hprices : PricesByReserves u)
    (hf : f ∈ oracleFindings u) : ¬ IsChainlink f := by
  rcases oracleFindings_cases u with ⟨hnot, _⟩ | ⟨_, c, _, hfindings⟩
  · exact absurd hprices hnot
  · rw [hfindings, List.mem_append, List.mem_singleton] at hf
    rcases hf with hf | rfl
    · intro hchainlink
      have hused := usesChainlink_of_isChainlink hf hchainlink
      rw [hprices.chainlink] at hused
      cases hused
    · exact not_isChainlink_of_isOnChain rfl

theorem filter_isOnChain_functionFindings (u : SourceUnit) :
    (functionFindings u).filter (fun f => decide (IsOnChain f)) = [] := by
  apply List.filter_eq_nil_iff.mpr
  intro f hf
  simpa using not_isOnChain_of_mem_functionFindings hf

theorem length_filter_isOnChain_le (u : SourceUnit) :
    ((oracleFindings u).filter IsOnChain).length ≤ 1 := by
  rcases oracleFindings_cases u with ⟨_, hfindings⟩ | ⟨_, c, _, hfindings⟩
  · rw [hfindings, filter_isOnChain_functionFindings]
    exact Nat.zero_le _
  · rw [hfindings, List.filter_append, filter_isOnChain_functionFindings, List.nil_append]
    exact List.length_filter_le _ [onChainFinding c]

theorem exists_isOnChain_iff (u : SourceUnit) :
    (∃ f ∈ oracleFindings u, IsOnChain f) ↔ PricesByReserves u := by
  rcases oracleFindings_cases u with ⟨hprices, hfindings⟩ | ⟨hprices, c, _, hfindings⟩
  · rw [hfindings]
    refine iff_of_false ?_ hprices
    rintro ⟨f, hf, honChain⟩
    exact not_isOnChain_of_mem_functionFindings hf honChain
  · rw [hfindings]
    exact iff_of_true ⟨onChainFinding c, by simp, rfl⟩ hprices

/-- The finding on a unit that prices by reserves: the last one, on no function and no line, with none
on Chainlink beside it, and on the contract that prices. -/
structure OnUnit (u : SourceUnit) (f : Finding) : Prop where
  last : (oracleFindings u).getLast? = some f
  function : f.functionName = none
  line : f.lineNumber = none
  alone : ∀ g ∈ oracleFindings u, ¬ IsChainlink g
  contract : ∃ c, IsPricing u c ∧ f.contractName = c.name

theorem onUnit_of_isOnChain (hf : f ∈ oracleFindings u) (honChain : IsOnChain f) : OnUnit u f := by
  have hprices := (exists_isOnChain_iff u).mp ⟨f, hf, honChain⟩
  rcases oracleFindings_cases u with ⟨hnot, _⟩ | ⟨_, c, hc, hfindings⟩
  · exact absurd hprices hnot
  · have hlast : f = onChainFinding c := by
      rw [hfindings, List.mem_append, List.mem_singleton] at hf
      exact hf.resolve_left fun hf => not_isOnChain_of_mem_functionFindings hf honChain
    subst hlast
    exact ⟨by rw [hfindings, List.getLast?_concat], rfl, rfl,
      fun g hg => not_isChainlink_of_pricesByReserves hprices hg, c, hc, rfl⟩

/-- At most one finding says that a unit prices by reserves, and one does exactly if it does so. The
findings on functions are the same in every source with the same two answers. -/
theorem onChain_finding_stands_alone (u : SourceUnit) :
    oracleDetector.analyze u = .ok (oracleFindings u) ∧
    ((oracleFindings u).filter IsOnChain).length ≤ 1 ∧
    (∀ f ∈ oracleFindings u, IsOnChain f → OnUnit u f) ∧
    ((∃ f ∈ oracleFindings u, IsOnChain f) ↔ PricesByReserves u) ∧
    ∀ v : SourceUnit, v.contracts = u.contracts →
      mentionsOracle v.text = mentionsOracle u.text →
      usesChainlink v.text = usesChainlink u.text →
      (oracleFindings v).filter (·.functionName.isSome) =
        (oracleFindings u).filter (·.functionName.isSome) := by
  refine ⟨rfl, length_filter_isOnChain_le u, fun f hf => onUnit_of_isOnChain hf,
    exists_isOnChain_iff u, ?_⟩
  intro v hcontracts horacle hchainlink
  rw [filter_oracleFindings, filter_oracleFindings,
    functionFindings_congr hcontracts horacle hchainlink]

/-- The second of two contracts mentions a reserve; the first one has a function whose body does not
occur in the source. -/
theorem onChain_finding_stands_alone_second :
    let a : ContractDecl :=
      { name := "A", functions := [{ name := "f", body := some "x = y.getPrice();" }] }
    let b : ContractDecl := { name := "B" }
    let u : SourceUnit :=
      { source := "contract A \x7b\x7d contract B \x7b getRate RESERVE0 \x7d", contracts := [a, b] }
    let v : SourceUnit := { source := "getRate", contracts := [a, b] }
    (∃ f ∈ oracleFindings u, IsOnChain f ∧ OnUnit u f ∧ f.contractName = "B") ∧
      (oracleFindings v).filter (·.functionName.isSome) =
        (oracleFindings u).filter (·.functionName.isSome) := by
  intro a b u v
  have hprices : PricesByReserves u :=
    ⟨List.cons_ne_nil _ _, by decide +kernel, by decide +kernel, by decide +kernel⟩
  have hspans : Source.contractSpans u.text u.contracts = [("A", ⟨0, 14⟩), ("B", ⟨14, 45⟩)] := by
    rw [Source.contractSpans, Source.declarationStarts,
      List.mergeSort_of_pairwise (by decide +kernel)]
    decide +kernel
  have hfirst : ¬ StretchMentionsReserve u a := by
    rw [← hasReserveInStretch_iff, hasReserveInStretch, hspans]
    decide +kernel
  have hsecond : StretchMentionsReserve u b := by
    rw [← hasReserveInStretch_iff, hasReserveInStretch, hspans]
    decide +kernel
  obtain ⟨_, _, honUnit, hpresent, hsame⟩ := onChain_finding_stands_alone u
  obtain ⟨f, hf, honChain⟩ := hpresent.mpr hprices
  refine ⟨⟨f, hf, honChain, honUnit f hf honChain, ?_⟩, hsame v rfl (by decide +kernel)
    (by decide +kernel)⟩
  obtain ⟨c, hc, hname⟩ := (honUnit f hf honChain).contract
  rw [hname]
  rcases hc with ⟨before, after, hsplit, hc, _⟩ | ⟨_, hnone⟩
  · have hmem : c ∈ u.contracts := by simp [hsplit]
    rcases List.mem_pair.mp hmem with rfl | rfl
    · exact absurd hc hfirst
    · rfl
  · exact absurd hsecond (hnone b (by simp [u]))

end Pricing
end SolidityAudit
