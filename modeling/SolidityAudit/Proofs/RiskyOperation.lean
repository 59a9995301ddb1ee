import Mathlib.Data.List.Infix
import Mathlib.Tactic.SplitIfs
import SolidityAudit.Arithmetic.Detector
import SolidityAudit.Proofs.Scanning

/-!
# Which risky operations are reported

Each operation is looked for by a scan of its own, and a scan passes over what stands inside a match.
In `a + b + c` the addition that begins at `b` stands inside the one that begins at `a`, and is not
reported. `legacy_reports_unless_passed_over` says that risky operations are lost in this way only, and
that at each offset at most one is reported.
-/

namespace SolidityAudit.Arithmetic
open Pattern

/-! ## The patterns of the table -/

variable {body : List Char} {parameters : List String} {op : Operation} {m : Match} {offset : Nat}

theorem operand_beginsWith : BeginsWith (fun _ => true) operand := by
  apply BeginsWith.alt
  · exact .seq_wordEdge (.seq (.seq (.one fun _ _ => rfl)))
  · exact .seq_wordEdge (.seq (.one fun _ _ => rfl))

theorem infixOperation_beginsWith (symbol excluded : String) :
    BeginsWith (fun _ => true) (infixOperation symbol excluded) :=
  .seq (.group operand_beginsWith)

theorem assigningOperation_beginsWith (symbol : String) :
    BeginsWith (fun _ => true) (assigningOperation symbol) :=
  .seq (.group operand_beginsWith)

theorem steppingOperation_beginsWith {symbol : String} {c : Char} {cs : List Char}
    (h : symbol.toList = c :: cs) : BeginsWith (fun _ => true) (steppingOperation symbol) :=
  .alt (.seq (.group operand_beginsWith)) (.seq (.lit h rfl))

theorem pattern_beginsWith (h : op ∈ operations) : BeginsWith (fun _ => true) op.pattern := by
  revert op
  simp only [operations, List.forall_mem_cons, List.not_mem_nil, false_imp_iff, implies_true,
    and_true]
  exact ⟨infixOperation_beginsWith _ _, infixOperation_beginsWith _ _,
    infixOperation_beginsWith _ _, assigningOperation_beginsWith _, assigningOperation_beginsWith _,
    assigningOperation_beginsWith _, steppingOperation_beginsWith rfl,
    steppingOperation_beginsWith rfl⟩

/-! ## Risky operations -/

/-- An operation of the table stands at an offset, and one of its operands is a parameter, or the name
with which it begins is not declared before the offset. -/
structure RiskyAt (body : List Char) (parameters : List String) (offset : Nat) (op : Operation)
    (m : Match) : Prop where
  listed : op ∈ operations
  stands : op.pattern.matchAt body offset = some m
  touches : (∃ name ∈ operandNames body m, String.ofList name ∈ parameters) ∨
    ∃ name, (operandNames body m).head? = some name ∧
      Source.declaredBefore body offset name = false

theorem isRisky_iff : isRisky body m parameters = true ↔
    (∃ name ∈ operandNames body m, String.ofList name ∈ parameters) ∨
      ∃ name, (operandNames body m).head? = some name ∧
        Source.declaredBefore body m.start name = false := by
  simp only [isRisky, Bool.or_eq_true, List.any_eq_true, List.contains_iff_mem, Option.any_eq_true,
    Bool.not_eq_true']

def riskyMatches (body : List Char) (parameters : List String) : List (Operation × Match) :=
  operations.flatMap fun op =>
    ((op.pattern.findAll body).filter (isRisky body · parameters)).map (op, ·)

theorem mem_riskyMatches_iff : (op, m) ∈ riskyMatches body parameters ↔
    RiskyAt body parameters m.start op m ∧ ¬ op.pattern.PassesOver body m.start := by
  have hmem : (op, m) ∈ riskyMatches body parameters ↔
      op ∈ operations ∧ m ∈ op.pattern.findAll body ∧ isRisky body m parameters = true := by
    simp [riskyMatches]
  rw [hmem, mem_findAll_iff, isRisky_iff]
  constructor
  · rintro ⟨hop, ⟨hat, _, hfree⟩, htouches⟩
    exact ⟨⟨hop, hat, htouches⟩, hfree⟩
  · rintro ⟨⟨hop, hat, htouches⟩, hfree⟩
    have hlt := (pattern_beginsWith hop).lt_length hat
    exact ⟨hop, ⟨hat, hlt, hfree⟩, htouches⟩

/-! ## One operation at an offset -/

def keep (kept : List (Operation × Match)) (hit : Operation × Match) : List (Operation × Match) :=
  if kept.any (fun k => k.2.start == hit.2.start) then kept else kept ++ [hit]

/-- Of the hits seen one is kept for each offset. -/
structure OneEach (seen kept : List (Operation × Match)) : Prop where
  subset : kept ⊆ seen
  starts : ∀ hit ∈ seen, ∃ k ∈ kept, k.2.start = hit.2.start
  nodup : (kept.map (·.2.start)).Nodup

variable {seen kept hits : List (Operation × Match)}

theorem OneEach.keep (h : OneEach seen kept) (hit : Operation × Match) :
    OneEach (seen ++ [hit]) (keep kept hit) := by
  unfold Arithmetic.keep
  split_ifs with hany
  · obtain ⟨k, hk, hstart⟩ := List.any_eq_true.mp hany
    refine ⟨List.Subset.trans h.subset (List.subset_append_left _ _), ?_, h.nodup⟩
    intro other hother
    rcases List.mem_append.mp hother with hother | hother
    · exact h.starts other hother
    · rw [List.mem_singleton.mp hother]
      exact ⟨k, hk, beq_iff_eq.mp hstart⟩
  · refine ⟨List.append_subset.mpr ⟨List.Subset.trans h.subset (List.subset_append_left _ _),
      List.subset_append_right _ _⟩, ?_, ?_⟩
    · intro other hother
      rcases List.mem_append.mp hother with hother | hother
      · obtain ⟨k, hk, hstart⟩ := h.starts other hother
        exact ⟨k, List.mem_append_left _ hk, hstart⟩
      · exact ⟨other, List.mem_append_right _ hother, rfl⟩
    · rw [List.map_append, List.nodup_append]
      refine ⟨h.nodup, List.pairwise_singleton _ _, ?_⟩
      intro a ha b hb heq
      obtain ⟨k, hk, rfl⟩ := List.mem_map.mp ha
      rw [List.map_singleton, List.mem_singleton] at hb
      exact hany (List.any_eq_true.mpr ⟨k, hk, beq_iff_eq.mpr (heq.trans hb)⟩)

theorem OneEach.foldl_keep (h : OneEach seen kept) :
    OneEach (seen ++ hits) (hits.foldl Arithmetic.keep kept) := by
  induction hits generalizing seen kept with
  | nil => simpa using h
  | cons hit rest ih => simpa using ih (h.keep hit)

theorem riskyOperations_oneEach (body : List Char) (parameters : List String) :
    OneEach (riskyMatches body parameters) (riskyOperations body parameters) := by
  have hempty : OneEach [] [] := ⟨List.Subset.refl _, by simp, by simp⟩
  have hkept := @OneEach.foldl_keep [] [] (riskyMatches body parameters) hempty
  rwa [List.nil_append] at hkept

theorem exists_mem_riskyOperations_iff :
    (∃ hit ∈ riskyOperations body parameters, hit.2.start = offset) ↔
      ∃ op m, RiskyAt body parameters offset op m ∧ ¬ op.pattern.PassesOver body offset := by
  have hone := riskyOperations_oneEach body parameters
  constructor
  · rintro ⟨⟨op, m⟩, hhit, rfl⟩
    exact ⟨op, m, mem_riskyMatches_iff.mp (hone.subset hhit)⟩
  · rintro ⟨op, m, hrisky, hfree⟩
    obtain rfl : m.start = offset := start_of_matchAt hrisky.stands
    exact hone.starts (op, m) (mem_riskyMatches_iff.mpr ⟨hrisky, hfree⟩)

/-! ## Findings -/

variable {u : SourceUnit} {c : ContractDecl} {f : FunctionDecl}

theorem legacyFunctionFindings_infix (hc : c ∈ u.contracts) (hf : f ∈ c.functions) :
    legacyFunctionFindings u c f <:+: legacyFindings u := by
  have hfunction : legacyFunctionFindings u c f <:+:
      c.functions.flatMap (legacyFunctionFindings u c) :=
    List.infix_of_mem_flatten (List.mem_map_of_mem hf)
  exact hfunction.trans (List.infix_of_mem_flatten
    (List.mem_map_of_mem (f := fun c => c.functions.flatMap (legacyFunctionFindings u c)) hc))

/-- Under a pragma without overflow checks, the findings on a function without calls for safe arithmetic
are one for each risky operation that the scan for its kind does not pass over, and at each offset
there is at most one. -/
theorem legacy_reports_unless_passed_over
    (hpragma : Source.lacksOverflowChecks u.pragma = .ok true) (hc : c ∈ u.contracts)
    (hf : f ∈ c.functions) (hbody : f.bodyText ≠ [])
    (hsafe : safeCalls.occursIn f.bodyText = false) :
    (∃ found, analyze u = .ok found ∧ legacyFunctionFindings u c f <:+: found) ∧
    (legacyFunctionFindings u c f).Perm
      ((riskyOperations f.bodyText f.parameterNames).map fun hit =>
        legacyFinding u c f (usesSafeMath u c) hit.1 hit.2) ∧
    ((riskyOperations f.bodyText f.parameterNames).map (·.2.start)).Nodup ∧
    (∀ hit ∈ riskyOperations f.bodyText f.parameterNames,
      RiskyAt f.bodyText f.parameterNames hit.2.start hit.1 hit.2) ∧
    ∀ offset, (∃ hit ∈ riskyOperations f.bodyText f.parameterNames, hit.2.start = offset) ↔
      ∃ op m, RiskyAt f.bodyText f.parameterNames offset op m ∧
        ¬ op.pattern.PassesOver f.bodyText offset := by
  have hone := riskyOperations_oneEach f.bodyText f.parameterNames
  refine ⟨⟨legacyFindings u, ?_, legacyFunctionFindings_infix hc hf⟩, ?_, hone.nodup, ?_,
    fun _ => exists_mem_riskyOperations_iff⟩
  · unfold analyze
    cases hcontracts : u.contracts with
    | nil =>
        rw [hcontracts] at hc
        cases hc
    | cons first rest => simp only [hpragma]
  · have hscanned : (f.bodyText.isEmpty || safeCalls.occursIn f.bodyText) = false := by
      rw [hsafe, Bool.or_false, List.isEmpty_eq_false_iff]
      exact hbody
    unfold legacyFunctionFindings
    simp only [hscanned, Bool.false_eq_true, if_false]
    exact List.mergeSort_perm _ _
  · intro hit hhit
    exact (mem_riskyMatches_iff.mp (hone.subset hhit)).1

/-- In a sum of three names of storage, two risky additions stand, and one of them is reported. -/
theorem legacy_reports_unless_passed_over_sum :
    let f : FunctionDecl := { name := "f", body := some "a + b + c" }
    let c : ContractDecl := { name := "C", functions := [f] }
    let u : SourceUnit := { contracts := [c] }
    let addition : Operation := ⟨"addition", .overflow, infixOperation "+" "+="⟩
    (∃ m, RiskyAt f.bodyText f.parameterNames 0 addition m) ∧
      (∃ m, RiskyAt f.bodyText f.parameterNames 4 addition m) ∧
      addition.pattern.PassesOver f.bodyText 4 ∧
      (∃ found, analyze u = .ok found ∧ found.length = 1) ∧
      ∀ offset, (∃ hit ∈ riskyOperations f.bodyText f.parameterNames, hit.2.start = offset) ↔
        ∃ op m, RiskyAt f.bodyText f.parameterNames offset op m ∧
          ¬ op.pattern.PassesOver f.bodyText offset := by
  intro f c u addition
  have hlisted : addition ∈ operations := List.mem_cons_self
  have hscan := legacy_reports_unless_passed_over (u := u) (c := c) (f := f) rfl
    List.mem_cons_self List.mem_cons_self (by decide) (by decide +kernel)
  have hfirst : (addition.pattern.matchAt f.bodyText 0).any
      (isRisky f.bodyText · f.parameterNames) = true := by decide +kernel
  have hsecond : (addition.pattern.matchAt f.bodyText 4).any
      (isRisky f.bodyText · f.parameterNames) = true := by decide +kernel
  have hstands : ∀ offset, (addition.pattern.matchAt f.bodyText offset).any
      (isRisky f.bodyText · f.parameterNames) = true →
        ∃ m, RiskyAt f.bodyText f.parameterNames offset addition m := by
    intro offset hany
    obtain ⟨m, hm, hrisky⟩ := Option.any_eq_true _ _ |>.mp hany
    obtain rfl := start_of_matchAt hm
    exact ⟨m, hlisted, hm, isRisky_iff.mp hrisky⟩
  exact ⟨hstands 0 hfirst, hstands 4 hsecond, by decide +kernel,
    ⟨legacyFindings u, rfl, by decide +kernel⟩, hscan.2.2.2.2⟩

end SolidityAudit.Arithmetic
