import Mathlib.Data.List.Nodup
import SolidityAudit.Proofs.Operand
import SolidityAudit.Proofs.RiskyOperation

/-!
# The order of the findings on risky operations

At no offset are two operations of the table found, so the rule that keeps one match for each offset
never drops any: a function has one finding for each risky match. The findings come by line. Those of
one line come in the order of the table, and those of one operation by offset.
-/

namespace SolidityAudit.Arithmetic
open Pattern

variable {body : List Char} {parameters : List String}

/-! ## No two operations at one offset -/

theorem operations_stand_apart : operations.Pairwise fun op op' => ∀ text offset,
    op.pattern.matchAt text offset = none ∨ op'.pattern.matchAt text offset = none := by
  apply operations_reach_apart.imp
  intro op op' hapart text offset
  by_contra hboth
  rw [not_or] at hboth
  obtain ⟨m, hm⟩ := Option.ne_none_iff_exists'.mp hboth.1
  obtain ⟨m', hm'⟩ := Option.ne_none_iff_exists'.mp hboth.2
  obtain ⟨r', hr', _⟩ := exists_reaches_of_matchAt hm
  obtain ⟨r'', hr'', _⟩ := exists_reaches_of_matchAt hm'
  exact hapart _ r' r'' hr' hr''

theorem starts_nodup (body : List Char) :
    ((operations.flatMap fun op => op.pattern.findAll body).map (·.start)).Nodup := by
  apply List.pairwise_map.mpr
  rw [List.pairwise_flatMap]
  constructor
  · intro op _
    exact (findAll_pairwise op.pattern body).imp fun h => h.1.ne
  · apply operations_stand_apart.imp
    intro op op' hapart m hm m' hm' hstart
    have hat := matchAt_of_mem_findAll hm
    have hat' := matchAt_of_mem_findAll hm'
    rw [← hstart] at hat'
    rcases hapart body m.start with hnone | hnone
    · rw [hnone] at hat
      cases hat
    · rw [hnone] at hat'
      cases hat'

theorem riskyMatches_starts_nodup (body : List Char) (parameters : List String) :
    ((riskyMatches body parameters).map (·.2.start)).Nodup := by
  have hmatches : (riskyMatches body parameters).map (·.2) =
      (operations.flatMap fun op => op.pattern.findAll body).filter (isRisky body · parameters) := by
    rw [riskyMatches, List.map_flatMap, List.filter_flatMap]
    simp only [List.map_map, Function.comp_def, List.map_id']
  have hstarts : (riskyMatches body parameters).map (·.2.start) =
      ((riskyMatches body parameters).map (·.2)).map (·.start) := by
    rw [List.map_map]
    rfl
  rw [hstarts, hmatches]
  exact (starts_nodup body).sublist (List.filter_sublist.map _)

theorem foldl_keep_of_nodup {kept hits : List (Operation × Match)}
    (h : ((kept ++ hits).map (·.2.start)).Nodup) : hits.foldl keep kept = kept ++ hits := by
  induction hits generalizing kept with
  | nil => simp
  | cons hit rest ih =>
      have hnew : keep kept hit = kept ++ [hit] := by
        unfold keep
        rw [if_neg]
        intro hany
        obtain ⟨k, hk, hstart⟩ := List.any_eq_true.mp hany
        rw [List.map_append, List.nodup_append] at h
        exact h.2.2 _ (List.mem_map_of_mem hk) _ (List.mem_map_of_mem List.mem_cons_self)
          (beq_iff_eq.mp hstart)
      have hrest : kept ++ hit :: rest = kept ++ [hit] ++ rest := by simp
      rw [hrest] at h
      rw [List.foldl_cons, hnew, ih h, hrest]

theorem riskyOperations_eq_riskyMatches (body : List Char) (parameters : List String) :
    riskyOperations body parameters = riskyMatches body parameters := by
  have hfold : riskyOperations body parameters = (riskyMatches body parameters).foldl keep [] := rfl
  have hnodup := riskyMatches_starts_nodup body parameters
  rw [← List.nil_append (riskyMatches body parameters)] at hnodup
  rw [hfold, foldl_keep_of_nodup hnodup, List.nil_append]

/-! ## Risky matches in the order of the table -/

/-- A match of an operation, with the place of the operation in the table. -/
structure Hit where
  op : Operation
  place : Nat
  found : Match

def riskyHits (body : List Char) (parameters : List String) : List Hit :=
  operations.zipIdx.flatMap fun entry =>
    ((entry.1.pattern.findAll body).filter (isRisky body · parameters)).map
      fun m => ⟨entry.1, entry.2, m⟩

namespace Hit

def line (u : SourceUnit) (f : FunctionDecl) (hit : Hit) : Nat :=
  Source.bodyLine u.text f hit.found.start

def finding (u : SourceUnit) (c : ContractDecl) (f : FunctionDecl) (hit : Hit) : Finding :=
  legacyFinding u c f (usesSafeMath u c) hit.op hit.found

def InTableOrder (a b : Hit) : Prop :=
  a.place < b.place ∨ a.place = b.place ∧ a.found.start < b.found.start

/-- By the line, then by the place in the table, and then by the offset. -/
def ComesBefore (u : SourceUnit) (f : FunctionDecl) (a b : Hit) : Prop :=
  a.line u f < b.line u f ∨ a.line u f = b.line u f ∧ a.InTableOrder b

end Hit

theorem map_riskyHits (body : List Char) (parameters : List String) :
    (riskyHits body parameters).map (fun hit => (hit.op, hit.found)) =
      riskyMatches body parameters := by
  have htable : operations.zipIdx.map (·.1) = operations := List.zipIdx_map_fst 0 operations
  rw [riskyHits, List.map_flatMap, riskyMatches]
  conv_rhs => rw [← htable, List.flatMap_map]
  simp only [List.map_map, Function.comp_def]

theorem riskyHits_inTableOrder (body : List Char) (parameters : List String) :
    (riskyHits body parameters).Pairwise Hit.InTableOrder := by
  have hplaces : operations.zipIdx.Pairwise fun entry entry' => entry.2 < entry'.2 := by
    apply List.pairwise_map.mp
    rw [List.zipIdx_map_snd]
    exact List.pairwise_lt_range'
  rw [riskyHits, List.pairwise_flatMap]
  constructor
  · intro entry _
    rw [List.pairwise_map]
    apply ((findAll_pairwise entry.1.pattern body).filter _).imp
    intro m m' h
    exact Or.inr ⟨rfl, h.1⟩
  · apply hplaces.imp
    intro entry entry' hlt hit hhit hit' hhit'
    obtain ⟨m, _, rfl⟩ := List.mem_map.mp hhit
    obtain ⟨m', _, rfl⟩ := List.mem_map.mp hhit'
    exact Or.inl hlt

/-! ## Sorting by line -/

/-- Sorting keeps the order of the elements that it does not tell apart. -/
theorem pairwise_mergeSort_of_pairwise {α : Type} {le : α → α → Bool} {R : α → α → Prop} {l : List α}
    (htrans : ∀ a b c, le a b = true → le b c = true → le a c = true)
    (htotal : ∀ a b, (le a b || le b a) = true) (h : l.Pairwise R) :
    (l.mergeSort le).Pairwise fun a b => le a b = true ∧ (le b a = true → R a b) := by
  -- The elements are numbered; ties are then broken by the numbers, which are all different.
  have hsorted := List.pairwise_mergeSort (List.zipIdxLE_trans htrans) (List.zipIdxLE_total htotal)
    l.zipIdx
  have hperm := List.mergeSort_perm l.zipIdx (List.zipIdxLE le)
  have hdistinct : (l.zipIdx.mergeSort (List.zipIdxLE le)).Pairwise fun a b => a.2 ≠ b.2 := by
    apply List.pairwise_map.mp
    apply (hperm.map (·.2)).nodup_iff.mpr
    rw [List.zipIdx_map_snd]
    exact List.nodup_range'
  rw [← List.mergeSort_zipIdx, List.pairwise_map]
  apply (hsorted.and hdistinct).imp_of_mem
  rintro ⟨a, i⟩ ⟨b, j⟩ ha hb ⟨hle, hne⟩
  simp only [List.zipIdxLE] at hle
  split_ifs at hle with hab hba
  · have hlt : i < j := lt_of_le_of_ne (of_decide_eq_true hle) hne
    obtain ⟨hi, rfl⟩ := List.getElem?_eq_some_iff.mp
      (List.mk_mem_zipIdx_iff_getElem?.mp (hperm.mem_iff.mp ha))
    obtain ⟨hj, rfl⟩ := List.getElem?_eq_some_iff.mp
      (List.mk_mem_zipIdx_iff_getElem?.mp (hperm.mem_iff.mp hb))
    exact ⟨hab, fun _ => List.pairwise_iff_getElem.mp h i j hi hj hlt⟩
  · exact ⟨hab, fun hba' => absurd hba' hba⟩

variable {u : SourceUnit} {c : ContractDecl} {f : FunctionDecl}

def hitsByLine (u : SourceUnit) (f : FunctionDecl) : List Hit :=
  (riskyHits f.bodyText f.parameterNames).mergeSort fun a b => decide (a.line u f ≤ b.line u f)

theorem hitsByLine_comesBefore (u : SourceUnit) (f : FunctionDecl) :
    (hitsByLine u f).Pairwise (Hit.ComesBefore u f) := by
  apply (pairwise_mergeSort_of_pairwise ?_ ?_ (riskyHits_inTableOrder f.bodyText f.parameterNames)).imp
  · intro a b hab
    rw [decide_eq_true_iff, decide_eq_true_iff] at hab
    rcases Nat.lt_or_eq_of_le hab.1 with hlt | heq
    · exact Or.inl hlt
    · exact Or.inr ⟨heq, hab.2 heq.ge⟩
  · intro a b c hab hbc
    rw [decide_eq_true_iff] at hab hbc ⊢
    omega
  · intro a b
    rw [Bool.or_eq_true, decide_eq_true_iff, decide_eq_true_iff]
    omega

theorem legacyFunctionFindings_eq_hitsByLine (u : SourceUnit) (c : ContractDecl) (f : FunctionDecl) :
    legacyFunctionFindings u c f =
      if safeCalls.occursIn f.bodyText then [] else (hitsByLine u f).map (Hit.finding u c f) := by
  have hfound : (hitsByLine u f).map (Hit.finding u c f) =
      ((riskyOperations f.bodyText f.parameterNames).map fun hit =>
        legacyFinding u c f (usesSafeMath u c) hit.1 hit.2).mergeSort
          fun a b => a.lineNumber.getD 0 ≤ b.lineNumber.getD 0 := by
    rw [riskyOperations_eq_riskyMatches, ← map_riskyHits, List.map_map]
    exact List.map_mergeSort fun _ _ _ _ => rfl
  unfold legacyFunctionFindings
  by_cases hbody : f.bodyText = []
  · have hnone : hitsByLine u f = [] := by
      have hhits : riskyHits [] f.parameterNames = [] := rfl
      rw [hitsByLine, hbody, hhits, List.mergeSort_nil]
    simp [hbody, hnone]
  · simp only [hfound, List.isEmpty_eq_false_iff.mpr hbody, Bool.false_or]

/-- At no offset do two operations of the table match, so the matches of the scans begin at different
offsets and the rule of one match for each offset drops none. The findings on a function without calls
for safe arithmetic are one for each risky match, by line, then by the place of the operation in the
table, and then by offset. -/
theorem risky_matches_reported_in_order (u : SourceUnit) (c : ContractDecl) (f : FunctionDecl)
    (body : List Char) (parameters : List String) :
    (operations.Pairwise fun op op' => ∀ text offset,
      op.pattern.matchAt text offset = none ∨ op'.pattern.matchAt text offset = none) ∧
    ((operations.flatMap fun op => op.pattern.findAll body).map (·.start)).Nodup ∧
    riskyOperations body parameters =
      (riskyHits body parameters).map (fun hit => (hit.op, hit.found)) ∧
    ∃ hits : List Hit, hits.Perm (riskyHits f.bodyText f.parameterNames) ∧
      hits.Pairwise (Hit.ComesBefore u f) ∧
      legacyFunctionFindings u c f =
        if safeCalls.occursIn f.bodyText then [] else hits.map (Hit.finding u c f) := by
  refine ⟨operations_stand_apart, starts_nodup body, ?_, hitsByLine u f, List.mergeSort_perm _ _,
    hitsByLine_comesBefore u f, legacyFunctionFindings_eq_hitsByLine u c f⟩
  rw [map_riskyHits, riskyOperations_eq_riskyMatches]

end SolidityAudit.Arithmetic
