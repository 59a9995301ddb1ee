import Mathlib.Data.List.Forall2
import Mathlib.Data.List.Nodup
import SolidityAudit.Proofs.Attribution
import SolidityAudit.Proofs.Scanning

/-!
# Reported uses of the transaction's origin

The source is scanned once for each contract, and a use is reported under the contracts that bear the
name of its owner. Since every use has an owner among the contracts, none is lost, and where the names
are distinct none is reported twice.
-/

namespace SolidityAudit.Authorization
open Pattern

/-! ## Occurrences in a source -/

variable {source : List Char} {occurrence : Span} {m : Match}

theorem exists_phrase_of_reaches_txOrigin {r r' : Reading} (h : txOrigin.Reaches r r') :
    ∃ left right, (∀ c ∈ left, Text.isBlank c = true) ∧ (∀ c ∈ right, Text.isBlank c = true) ∧
      Between ("tx".toList ++ (left ++ '.' :: (right ++ "origin".toList))) r r' := by
  obtain ⟨_, ⟨_, rfl⟩, r₁, htx, r₂, hleft, r₃, hdot, r₄, hright, r₅, horigin, _, rfl⟩ := h
  obtain ⟨left, hleftBlank, hleft⟩ := exists_between_of_reaches_many hleft
  obtain ⟨right, hrightBlank, hright⟩ := exists_between_of_reaches_many hright
  have hwhole := (((between_of_reaches_chars htx).trans hleft).trans
    (between_of_reaches_chars hdot)).trans (hright.trans (between_of_reaches_chars horigin))
  exact ⟨left, right, hleftBlank, hrightBlank, by simpa using hwhole⟩

/-- An occurrence of `tx.origin` has one `t`, with which it begins. -/
theorem exists_between_of_reaches_txOrigin {r r' : Reading} (h : txOrigin.Reaches r r') :
    ∃ piece, 't' ∉ piece ∧ Between ('t' :: piece) r r' := by
  obtain ⟨left, right, hleft, hright, hbetween⟩ := exists_phrase_of_reaches_txOrigin h
  have hblank : ∀ piece : List Char, (∀ c ∈ piece, Text.isBlank c = true) → 't' ∉ piece := by
    intro piece hpiece ht
    have := hpiece 't' ht
    revert this
    decide
  refine ⟨'x' :: (left ++ '.' :: (right ++ "origin".toList)), ?_, hbetween⟩
  simp [hblank left hleft, hblank right hright]

theorem not_passesOver_of_txOrigin {offset : Nat} (h : txOrigin.matchAt source offset = some m) :
    ¬ txOrigin.PassesOver source offset := by
  rintro ⟨m', hm', hbefore, hover⟩
  obtain ⟨r, hr, _⟩ := exists_reaches_of_matchAt h
  obtain ⟨_, _, hhere⟩ := exists_between_of_reaches_txOrigin hr
  obtain ⟨r', hr', hstop, _⟩ := exists_reaches_of_mem_findAll hm'
  obtain ⟨piece, ht, hearlier⟩ := exists_between_of_reaches_txOrigin hr'
  have hlength : m'.stop = m'.start + (piece.length + 1) := hstop.trans hearlier.offset
  obtain ⟨k, rfl⟩ : ∃ k, offset = m'.start + (k + 1) := ⟨offset - m'.start - 1, by omega⟩
  have hchar : source[m'.start + (k + 1)]? = some 't' := hhere.getElem?_eq (k := 0) rfl (by simp)
  have hinside : source[m'.start + (k + 1)]? = ('t' :: piece)[k + 1]? :=
    hearlier.getElem?_eq rfl (by rw [List.length_cons]; omega)
  rw [hchar, List.getElem?_cons_succ] at hinside
  exact ht (List.mem_of_getElem? hinside.symm)

theorem txOrigin_beginsWith : BeginsWith (· == 't') txOrigin := by
  intro r r' h
  obtain ⟨piece, _, hbetween⟩ := exists_between_of_reaches_txOrigin h
  exact ⟨'t', piece, rfl, hbetween⟩

theorem mem_txOrigins_iff : occurrence ∈ txOrigins source ↔
    ∃ m, txOrigin.matchAt source occurrence.start = some m ∧ m.span = occurrence := by
  unfold txOrigins
  rw [List.mem_map]
  constructor
  · rintro ⟨m, hm, rfl⟩
    exact ⟨m, matchAt_of_mem_findAll hm, rfl⟩
  · rintro ⟨m, hat, rfl⟩
    exact ⟨m, mem_findAll_iff.mpr ⟨hat, txOrigin_beginsWith.lt_length hat,
      not_passesOver_of_txOrigin hat⟩, rfl⟩

def authorizationUses (source : List Char) : List Span :=
  (txOrigins source).filter (isAuthorizationUse source)

theorem mem_authorizationUses_iff : occurrence ∈ authorizationUses source ↔
    (∃ m, txOrigin.matchAt source occurrence.start = some m ∧ m.span = occurrence) ∧
      isAuthorizationUse source occurrence = true := by
  rw [authorizationUses, List.mem_filter, mem_txOrigins_iff]

theorem txOrigins_pairwise (source : List Char) :
    (txOrigins source).Pairwise fun a b => a.start < b.start := by
  rw [txOrigins, List.pairwise_map]
  exact (findAll_pairwise txOrigin source).imp And.left

theorem authorizationUses_increase (source : List Char) :
    (authorizationUses source).Pairwise fun a b => a.start < b.start :=
  (txOrigins_pairwise source).filter _

theorem authorizationUses_nodup (source : List Char) : (authorizationUses source).Nodup := by
  refine (authorizationUses_increase source).imp ?_
  rintro a b hlt rfl
  exact Nat.lt_irrefl _ hlt

/-! ## Owners of uses -/

variable {u : SourceUnit} {first : ContractDecl} {rest : List ContractDecl}

/-- The name of the contract in whose stretch a use stands, or of the first one if it stands in
none. -/
def ownerOfUse (u : SourceUnit) (first : ContractDecl) (use : Span) : String :=
  (Source.contractSpans u.text u.contracts).ownerOr use.start first.name

/-- Contract by contract, the uses whose owner has its name. -/
def ownedUses (u : SourceUnit) (first : ContractDecl) : List (ContractDecl × Span) :=
  u.contracts.flatMap fun c =>
    ((authorizationUses u.text).filter fun use => ownerOfUse u first use = c.name).map (c, ·)

theorem ownerOfUse_mem (hu : u.contracts = first :: rest) (use : Span) :
    ownerOfUse u first use ∈ u.contractNames := by
  apply Source.ownerOr_contractSpans_mem
  rw [hu]
  exact List.mem_cons_self

theorem ownerOfUse_eq_first {use : Span}
    (h : ∀ c ∈ u.contracts, ∀ start, Source.declarationStart? u.text c = some start →
      use.start < start) : ownerOfUse u first use = first.name := by
  unfold ownerOfUse Source.SpanTable.ownerOr
  cases howner : (Source.contractSpans u.text u.contracts).owner? use.start with
  | none => rfl
  | some name =>
      obtain ⟨span, hspan, hcontains⟩ := Source.SpanTable.exists_span_of_owner?_eq_some howner
      obtain ⟨c, hc, hstart, _⟩ := Source.exists_declaration_of_mem_contractSpans hspan
      have hlt := h c hc span.start hstart
      have hle : span.start ≤ use.start := by
        have := (Bool.and_eq_true_iff.mp hcontains).1
        simpa using this
      omega

theorem mem_ownedUses_iff {c : ContractDecl} {use : Span} : (c, use) ∈ ownedUses u first ↔
    c ∈ u.contracts ∧ use ∈ authorizationUses u.text ∧ ownerOfUse u first use = c.name := by
  simp only [ownedUses, List.mem_flatMap, List.mem_map, List.mem_filter, decide_eq_true_eq,
    Prod.mk.injEq]
  constructor
  · rintro ⟨_, hc, _, huse, rfl, rfl⟩
    exact ⟨hc, huse⟩
  · rintro ⟨hc, huse⟩
    exact ⟨c, hc, use, huse, rfl, rfl⟩

/-- Where the names of the contracts are distinct, every use is listed once. -/
theorem ownedUses_perm (hu : u.contracts = first :: rest) (hnames : u.contractNames.Nodup) :
    ((ownedUses u first).map (·.2)).Perm (authorizationUses u.text) := by
  have huses := authorizationUses_nodup u.text
  have hlisted : ((ownedUses u first).map (·.2)).Nodup := by
    rw [ownedUses, List.map_flatMap, List.nodup_flatMap]
    simp only [List.map_map, Function.comp_def, List.map_id']
    refine ⟨fun c _ => huses.filter _, (List.pairwise_map.mp hnames).imp ?_⟩
    intro c c' hne use hc hc'
    have howner : ownerOfUse u first use = c.name := by simpa using (List.mem_filter.mp hc).2
    have howner' : ownerOfUse u first use = c'.name := by simpa using (List.mem_filter.mp hc').2
    exact hne (howner.symm.trans howner')
  rw [List.perm_ext_iff_of_nodup hlisted huses]
  intro use
  constructor
  · intro huse
    obtain ⟨⟨c, _⟩, hmem, rfl⟩ := List.mem_map.mp huse
    exact (mem_ownedUses_iff.mp hmem).2.1
  · intro huse
    obtain ⟨c, hc, hname⟩ := List.mem_map.mp (ownerOfUse_mem hu use)
    exact List.mem_map.mpr ⟨(c, use), mem_ownedUses_iff.mpr ⟨hc, huse, hname.symm⟩, rfl⟩

/-! ## Findings -/

def originFindings (u : SourceUnit) (c : ContractDecl) : List Finding :=
  txOriginFindings u (Source.contractSpans u.text u.contracts) (u.contractNames.headD "") c

theorem findings_eq_flatMap (u : SourceUnit) :
    findings u = u.contracts.flatMap fun c =>
      originFindings u c ++ c.functions.filterMap (checkFunction c) := by
  unfold findings originFindings SourceUnit.contractNames
  cases hu : u.contracts with
  | nil => rfl
  | cons first rest => rfl

theorem filter_findings (u : SourceUnit) :
    (findings u).filter (fun found => found.vulnerability = .txOriginAuth) =
      u.contracts.flatMap (originFindings u) := by
  rw [findings_eq_flatMap, List.filter_flatMap]
  congr 1
  funext c
  have horigin : (originFindings u c).filter (fun found => found.vulnerability = .txOriginAuth) =
      originFindings u c := by
    rw [List.filter_eq_self]
    intro found hfound
    obtain ⟨use, _, huse⟩ := List.mem_filterMap.mp hfound
    split at huse
    · cases huse
      rfl
    · cases huse
  have hopen : (c.functions.filterMap (checkFunction c)).filter
      (fun found => found.vulnerability = .txOriginAuth) = [] := by
    rw [List.filter_eq_nil_iff]
    intro found hfound
    obtain ⟨f, _, hf⟩ := List.mem_filterMap.mp hfound
    simpa using (onFunction_of_checkFunction c f found hf).notOrigin
  rw [List.filter_append, horigin, hopen, List.append_nil]

theorem originFindings_eq_map (hu : u.contracts = first :: rest) (c : ContractDecl) :
    originFindings u c =
      ((authorizationUses u.text).filter fun use => ownerOfUse u first use = c.name).map
        (txOriginFinding u c) := by
  have hfirst : u.contractNames.headD "" = first.name := by rw [SourceUnit.contractNames, hu]; rfl
  rw [originFindings, hfirst, authorizationUses, List.filter_filter, ← List.filterMap_eq_map,
    List.filterMap_filter]
  rfl

theorem filter_findings_eq_map (hu : u.contracts = first :: rest) :
    (findings u).filter (fun found => found.vulnerability = .txOriginAuth) =
      (ownedUses u first).map fun p => txOriginFinding u p.1 p.2 := by
  simp only [filter_findings, ownedUses, List.map_flatMap, List.map_map, Function.comp_def,
    ← originFindings_eq_map hu]

structure ReportsUse (u : SourceUnit) (c : ContractDecl) (use : Span) (found : Finding) :
    Prop where
  severity : found.severity = .high
  contract : found.contractName = c.name
  function : found.functionName = (Source.functionAt? c u.text use.start).map (·.name)
  line : found.lineNumber = some (Source.lineAt u.text use.start)

/-- The findings on uses of `tx.origin` are those on the uses that each contract owns. Every
occurrence for authorization is such a use, and where the names of the contracts are distinct it is
reported once; one before every declaration is reported under the first contract. -/
theorem findings_report_owned_uses (hu : u.contracts = first :: rest) :
    detector.analyze u = .ok (findings u) ∧
    List.Forall₂ (fun p found => ReportsUse u p.1 p.2 found) (ownedUses u first)
      ((findings u).filter fun found => found.vulnerability = .txOriginAuth) ∧
    (authorizationUses u.text).Pairwise (fun a b => a.start < b.start) ∧
    (∀ use, use ∈ authorizationUses u.text ↔
      (∃ m, txOrigin.matchAt u.text use.start = some m ∧ m.span = use) ∧
        isAuthorizationUse u.text use = true) ∧
    (u.contractNames.Nodup →
      ((ownedUses u first).map (·.2)).Perm (authorizationUses u.text)) ∧
    ∀ use, (∀ c ∈ u.contracts, ∀ start, Source.declarationStart? u.text c = some start →
      use.start < start) → ownerOfUse u first use = first.name := by
  refine ⟨rfl, ?_, authorizationUses_increase _, fun _ => mem_authorizationUses_iff,
    ownedUses_perm hu, fun _ => ownerOfUse_eq_first⟩
  rw [filter_findings_eq_map hu, List.forall₂_map_right_iff, List.forall₂_same]
  intro p _
  exact ⟨rfl, rfl, rfl, rfl⟩

/-- A guard before the only declaration, a comparison inside it, and an occurrence that is no use for
authorization. The first contract is not declared in the source. -/
theorem findings_report_owned_uses_undeclared :
    let a : ContractDecl := { name := "A" }
    let b : ContractDecl := { name := "B" }
    let u : SourceUnit := {
      source := "require(tx.origin == o);\n" ++
        "contract B \x7b if (o != tx.origin) x; y = tx.origin; \x7d"
      contracts := [a, b] }
    u.contractNames.Nodup ∧
      (findings u).map (fun found => (found.contractName, found.lineNumber)) =
        [("A", some 1), ("B", some 2)] ∧
      (txOrigins u.text).length = 3 ∧
      List.Forall₂ (fun p found => ReportsUse u p.1 p.2 found) (ownedUses u a)
        ((findings u).filter fun found => found.vulnerability = .txOriginAuth) ∧
      ((ownedUses u a).map (·.2)).Perm (authorizationUses u.text) ∧
      ownerOfUse u a ⟨8, 17⟩ = "A" := by
  intro a b u
  have hnames : u.contractNames.Nodup := by decide
  obtain ⟨_, hreports, _, _, hperm, howner⟩ := findings_report_owned_uses (u := u) rfl
  have ha : Source.declarationStart? u.text a = none := by decide +kernel
  have hb : Source.declarationStart? u.text b = some 25 := by decide +kernel
  refine ⟨hnames, by decide +kernel, by decide +kernel, hreports, hperm hnames, howner _ ?_⟩
  intro c hc start hstart
  rcases List.mem_pair.mp hc with rfl | rfl
  · rw [ha] at hstart
    cases hstart
  · rw [hb] at hstart
    cases hstart
    decide

end SolidityAudit.Authorization
