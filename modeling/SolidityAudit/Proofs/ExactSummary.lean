import Mathlib.Algebra.BigOperators.Group.List.Basic
import Mathlib.Algebra.Ring.Int.Defs
import Mathlib.Data.List.Induction
import SolidityAudit.Proofs.ChosenFindings
import SolidityAudit.Proofs.Writable

/-!
# Summaries are exact

The summary of a report counts the findings that the report shows. The counts by severity are plain
counts; those by kind and by SWC entry are kept in a list of names that grows as the findings are
gone through. `Tallies` says what such a list holds after some findings, one more finding keeps it
true, and so it is true of all of them.
-/

namespace SolidityAudit

namespace Summary

def tagged (tag? : Finding → Option String) (findings : List Finding) (name : String) : Nat :=
  findings.countP fun f => tag? f == some name

def firstPlace (tag? : Finding → Option String) (findings : List Finding) (name : String) : Nat :=
  findings.findIdx fun f => tag? f == some name

/-- The entries hold each tag of the findings with the number of findings that have it, in the order
in which the tags come up, and the numbers add up to the number of findings that have a tag. -/
structure Tallies (tag? : Finding → Option String) (findings : List Finding)
    (entries : List (String × Int)) : Prop where
  counted : ∀ name n, (name, n) ∈ entries ↔ 0 < n ∧ n = tagged tag? findings name
  ordered : (entries.map (·.1)).Pairwise fun a b =>
    firstPlace tag? findings a < firstPlace tag? findings b
  total : (entries.map (·.2)).sum = findings.countP fun f => (tag? f).isSome

/-! ## One more finding -/

/-- A name that was not counted before comes last, and one that was keeps its place. -/
theorem countOne_cases (entries : List (String × Int)) (name : String) :
    (name ∉ entries.map (·.1) ∧ countOne entries name = entries ++ [(name, 1)]) ∨
      ∃ before k after, entries = before ++ (name, k) :: after ∧
        countOne entries name = before ++ (name, k + 1) :: after := by
  induction entries with
  | nil => exact Or.inl ⟨List.not_mem_nil, rfl⟩
  | cons e rest ih =>
      obtain ⟨n, k⟩ := e
      by_cases hn : n = name
      · subst hn
        exact Or.inr ⟨[], k, rest, rfl, by simp [countOne]⟩
      · have hcons : countOne ((n, k) :: rest) name = (n, k) :: countOne rest name := by
          simp [countOne, hn]
        rcases ih with ⟨hnew, heq⟩ | ⟨before, k', after, hrest, heq⟩
        · refine Or.inl ⟨?_, by rw [hcons, heq, List.cons_append]⟩
          simpa [Ne.symm hn] using hnew
        · refine Or.inr ⟨(n, k) :: before, k', after, by rw [hrest, List.cons_append], ?_⟩
          rw [hcons, heq, List.cons_append]

variable {tag? : Finding → Option String} {findings : List Finding} {f : Finding}
  {entries : List (String × Int)} {name : String}

theorem tagged_append (tag? : Finding → Option String) (findings : List Finding) (f : Finding)
    (name : String) : tagged tag? (findings ++ [f]) name =
      tagged tag? findings name + if tag? f = some name then 1 else 0 := by
  simp [tagged, List.countP_append, List.countP_singleton]

theorem firstPlace_lt_length_iff (tag? : Finding → Option String) (findings : List Finding)
    (name : String) :
    firstPlace tag? findings name < findings.length ↔ 0 < tagged tag? findings name := by
  rw [firstPlace, List.findIdx_lt_length, tagged, List.countP_pos_iff]

theorem firstPlace_append (tag? : Finding → Option String) (findings : List Finding) (f : Finding)
    (name : String) : firstPlace tag? (findings ++ [f]) name =
      if 0 < tagged tag? findings name then firstPlace tag? findings name
      else if tag? f = some name then findings.length else findings.length + 1 := by
  simp only [← firstPlace_lt_length_iff, firstPlace, List.findIdx_append, List.findIdx_cons,
    List.findIdx_nil]
  split
  · rfl
  · by_cases htag : tag? f = some name
    · simp [htag]
    · simp [htag, beq_false_of_ne htag, Nat.add_comm]

theorem Tallies.tagged_pos (h : Tallies tag? findings entries) (hname : name ∈ entries.map (·.1)) :
    0 < tagged tag? findings name := by
  obtain ⟨⟨_, n⟩, hmem, rfl⟩ := List.mem_map.mp hname
  obtain ⟨hpos, rfl⟩ := (h.counted _ _).mp hmem
  exact_mod_cast hpos

theorem Tallies.tagged_eq_zero (h : Tallies tag? findings entries)
    (hname : name ∉ entries.map (·.1)) : tagged tag? findings name = 0 := by
  by_contra hne
  have hmem := (h.counted name (tagged tag? findings name)).mpr ⟨by omega, rfl⟩
  exact hname (List.mem_map_of_mem hmem)

/-- The names come up in the same order after one more finding. -/
theorem Tallies.ordered_append (h : Tallies tag? findings entries) (f : Finding) :
    (entries.map (·.1)).Pairwise fun a b =>
      firstPlace tag? (findings ++ [f]) a < firstPlace tag? (findings ++ [f]) b := by
  apply h.ordered.imp_of_mem
  intro a b ha hb hlt
  rwa [firstPlace_append, firstPlace_append, if_pos (h.tagged_pos ha), if_pos (h.tagged_pos hb)]

theorem Tallies.nodup (h : Tallies tag? findings entries) : (entries.map (·.1)).Nodup := by
  apply h.ordered.imp
  rintro a b hlt rfl
  exact Nat.lt_irrefl _ hlt

theorem countP_isSome_append (tag? : Finding → Option String) (findings : List Finding)
    (f : Finding) : (findings ++ [f]).countP (fun g => (tag? g).isSome) =
      findings.countP (fun g => (tag? g).isSome) + if (tag? f).isSome then 1 else 0 := by
  simp [List.countP_append, List.countP_singleton]

theorem Tallies.append_untagged (h : Tallies tag? findings entries) (htag : tag? f = none) :
    Tallies tag? (findings ++ [f]) entries where
  counted name n := by
    rw [h.counted, tagged_append, htag]
    simp
  ordered := h.ordered_append f
  total := by
    rw [h.total, countP_isSome_append, htag]
    simp

/-- A name that comes up for the first time is counted once, at the end. -/
theorem Tallies.append_new (h : Tallies tag? findings entries) (htag : tag? f = some name)
    (hnew : name ∉ entries.map (·.1)) :
    Tallies tag? (findings ++ [f]) (entries ++ [(name, 1)]) := by
  have hzero := h.tagged_eq_zero hnew
  constructor
  case counted =>
    intro name' n
    rw [List.mem_append, List.mem_singleton, h.counted, Prod.mk.injEq]
    by_cases hname : name = name'
    · subst hname
      rw [tagged_append, if_pos htag, hzero]
      simp only [true_and]
      omega
    · have hother : tag? f ≠ some name' := by simpa [htag] using hname
      rw [tagged_append, if_neg hother]
      simp [Ne.symm hname]
  case ordered =>
    rw [List.map_append, List.pairwise_append]
    refine ⟨h.ordered_append f, List.pairwise_singleton _ _, ?_⟩
    intro a ha b hb
    obtain rfl : b = name := by simpa using hb
    have hpos := h.tagged_pos ha
    rw [firstPlace_append, if_pos hpos, firstPlace_append, if_neg (by omega), if_pos htag]
    exact (firstPlace_lt_length_iff tag? findings a).mpr hpos
  case total =>
    rw [List.map_append, List.sum_append, h.total, countP_isSome_append, htag]
    simp

/-- A name that came up before is counted once more, in its place. -/
theorem Tallies.count_again {before after : List (String × Int)} {k : Int}
    (h : Tallies tag? findings (before ++ (name, k) :: after)) (htag : tag? f = some name) :
    Tallies tag? (findings ++ [f]) (before ++ (name, k + 1) :: after) := by
  have hk : k = tagged tag? findings name := ((h.counted name k).mp (by simp)).2
  have hnames : (before ++ (name, k + 1) :: after).map (·.1) =
      (before ++ (name, k) :: after).map (·.1) := by simp
  constructor
  case counted =>
    intro name' n
    by_cases hname : name = name'
    · subst hname
      have hother : ∀ e ∈ before ++ after, e.1 ≠ name := by
        have hmiddle : ((name, k) :: (before ++ after)).Perm (before ++ (name, k) :: after) :=
          List.perm_middle.symm
        have hnodup := (hmiddle.map (·.1)).nodup_iff.mpr h.nodup
        rintro e he rfl
        exact (List.nodup_cons.mp hnodup).1 (List.mem_map.mpr ⟨e, he, rfl⟩)
      rw [tagged_append, if_pos htag, List.mem_append, List.mem_cons, Prod.mk.injEq, hk]
      have hbefore : (name, n) ∉ before := fun hmem =>
        hother _ (List.mem_append_left after hmem) rfl
      have hafter : (name, n) ∉ after := fun hmem =>
        hother _ (List.mem_append_right before hmem) rfl
      simp only [hbefore, hafter, true_and, false_or, or_false]
      omega
    · have hother : tag? f ≠ some name' := by simpa [htag] using hname
      rw [tagged_append, if_neg hother, Nat.add_zero, ← h.counted]
      simp [Ne.symm hname]
  case ordered =>
    rw [hnames]
    exact h.ordered_append f
  case total =>
    have htotal := h.total
    rw [countP_isSome_append, htag, Option.isSome_some, if_pos rfl]
    simp only [List.map_append, List.map_cons, List.sum_append, List.sum_cons] at htotal ⊢
    omega

theorem Tallies.countOne (h : Tallies tag? findings entries) (htag : tag? f = some name) :
    Tallies tag? (findings ++ [f]) (countOne entries name) := by
  rcases countOne_cases entries name with ⟨hnew, heq⟩ | ⟨before, k, after, rfl, heq⟩
  · rw [heq]
    exact h.append_new htag hnew
  · rw [heq]
    exact h.count_again htag

/-! ## All findings -/

theorem tallies_tally (tag? : Finding → Option String) (findings : List Finding) :
    Tallies tag? findings (tally (findings.filterMap tag?)) := by
  -- From the end of the list: the finding counted last is the one that a step adds.
  induction findings using List.reverseRecOn with
  | nil =>
      refine ⟨?_, List.Pairwise.nil, rfl⟩
      intro name n
      simp [tally, tagged]
      omega
  | append_singleton findings f ih =>
      cases htag : tag? f with
      | none =>
          have hstep : tally ((findings ++ [f]).filterMap tag?) =
              tally (findings.filterMap tag?) := by
            simp [htag]
          rw [hstep]
          exact ih.append_untagged htag
      | some name =>
          have hstep : tally ((findings ++ [f]).filterMap tag?) =
              countOne (tally (findings.filterMap tag?)) name := by
            simp [tally, htag]
          rw [hstep]
          exact ih.countOne htag

/-! ## The summary -/

theorem countSeverity_eq_countP (findings : List Finding) (s : Severity) :
    countSeverity findings s = findings.countP fun f => f.severity == s := by
  rw [countSeverity, List.countP_eq_length_filter]

/-- Each finding has one of the five severities. -/
theorem length_eq_add_countSeverity (findings : List Finding) :
    (findings.length : Int) = countSeverity findings .critical + countSeverity findings .high +
      countSeverity findings .medium + countSeverity findings .low +
      countSeverity findings .info := by
  induction findings with
  | nil => rfl
  | cons f rest ih =>
      have hcons : ∀ s, countSeverity (f :: rest) s =
          countSeverity rest s + if f.severity = s then 1 else 0 := by
        intro s
        by_cases hs : f.severity = s <;> simp [countSeverity, hs]
      simp only [hcons, List.length_cons]
      cases f.severity <;> simp <;> omega

/-- The counts of a summary are right for the findings, each and in sum. A finding has an SWC entry
if it names one that is not empty. -/
structure ExactFor (findings : List Finding) (s : Summary) : Prop where
  total : s.total = findings.length
  severities : s.total = s.critical + s.high + s.medium + s.low + s.info
  ofSeverity : ∀ severity, s.count severity = findings.countP fun f => f.severity == severity
  types : s.total = (s.byType.map (·.2)).sum
  typesOnce : (s.byType.map (·.1)).Nodup
  byType : Tallies (fun f => some f.vulnerability.tag) findings s.byType
  swcsOnce : (s.bySwc.map (·.1)).Nodup
  bySwc : Tallies (fun f => f.swcId.filter (· != "")) findings s.bySwc

theorem ofFindings_exactFor (findings : List Finding) (failed : List String) :
    (ofFindings findings failed).ExactFor findings := by
  have htypes : Tallies (fun f => some f.vulnerability.tag) findings
      (ofFindings findings failed).byType := by
    have htally := tallies_tally (fun f => some f.vulnerability.tag) findings
    rwa [List.filterMap_eq_map'] at htally
  have hswcs : Tallies (fun f => f.swcId.filter (· != "")) findings
      (ofFindings findings failed).bySwc := tallies_tally swcOf? findings
  constructor
  case total => rfl
  case severities => exact length_eq_add_countSeverity findings
  case ofSeverity =>
    intro severity
    rw [← countSeverity_eq_countP]
    cases severity <;> rfl
  case types =>
    rw [htypes.total]
    simp [ofFindings]
  case typesOnce => exact htypes.nodup
  case byType => exact htypes
  case swcsOnce => exact hswcs.nodup
  case bySwc => exact hswcs

end Summary

namespace Report

/-- The summary of a report is exact for the findings that the report shows, whatever was found, and
the report has a critical finding exactly if the summary counts one. The report is given exactly if the
evidence that is asked for can be written. -/
theorem build_summary_exact (u : SourceUnit) (outcomes : List Outcome) (config : ScanConfig) :
    (build u outcomes config).summary.ExactFor (build u outcomes config).findings ∧
      ((build u outcomes config).hasCritical = true ↔
        0 < (build u outcomes config).summary.critical) ∧
      tryBuild u outcomes config =
        Finding.writing (keyed config outcomes) (build u outcomes config) := by
  have hexact : (build u outcomes config).summary.ExactFor (build u outcomes config).findings :=
    Summary.ofFindings_exactFor _ _
  refine ⟨hexact, ?_, tryBuild_eq u outcomes config⟩
  have hcritical := hexact.ofSeverity .critical
  have hpos := List.countP_pos_iff (p := fun f : Finding => f.severity == .critical)
    (l := (build u outcomes config).findings)
  rw [hasCritical, List.any_eq_true, ← hpos]
  simp only [Summary.count] at hcritical
  omega

end Report
end SolidityAudit
