import SolidityAudit.Arithmetic.Detector
import SolidityAudit.Proofs.Line

/-!
# Lines inside a function's body

A body is placed in the source by the first occurrence of its text, whichever function this occurrence
belongs to. From there lines are counted inside the body as they are counted in the source, and as they
are counted from the start of a function whose body is not found. A line inside a body is never above the
function exactly if the text of the body does not stand above the function, and a finding on a function
whose body is repeated can be reported on a line of the function before it.
-/

namespace SolidityAudit

namespace Text

variable {part text : List Char} {offset start : Nat}

def OccursAt (text part : List Char) (start : Nat) : Prop :=
  part <+: text.drop start

instance (text part : List Char) (start : Nat) : Decidable (OccursAt text part start) :=
  inferInstanceAs (Decidable (part <+: text.drop start))

theorem occursAt_cons_succ {c : Char} : OccursAt (c :: text) part (start + 1) ↔
    OccursAt text part start := by
  rw [OccursAt, OccursAt, List.drop_succ_cons]

theorem findFrom_eq_some (h : findFrom part offset text = some start) :
    ∃ k, start = offset + k ∧ OccursAt text part k ∧ ∀ k' < k, ¬ OccursAt text part k' := by
  induction text generalizing offset with
  | nil =>
      unfold findFrom at h
      split at h
      · next hempty =>
          cases h
          rw [List.isEmpty_iff.mp hempty]
          exact ⟨0, rfl, List.nil_prefix, by simp⟩
      · cases h
  | cons c rest ih =>
      unfold findFrom at h
      split at h
      · next hhere =>
          cases h
          exact ⟨0, rfl, List.isPrefixOf_iff_prefix.mp hhere, by simp⟩
      · next hnot =>
          obtain ⟨k, rfl, hk, hleast⟩ := ih h
          refine ⟨k + 1, by omega, occursAt_cons_succ.mpr hk, ?_⟩
          intro k' hk' hoccurs
          cases k' with
          | zero => exact hnot (List.isPrefixOf_iff_prefix.mpr hoccurs)
          | succ k' => exact hleast k' (by omega) (occursAt_cons_succ.mp hoccurs)

theorem findFrom_eq_none (h : findFrom part offset text = none) (k : Nat) :
    ¬ OccursAt text part k := by
  intro hoccurs
  induction text generalizing offset k with
  | nil =>
      rw [OccursAt, List.drop_nil, List.prefix_nil] at hoccurs
      simp [findFrom, hoccurs] at h
  | cons c rest ih =>
      unfold findFrom at h
      split at h
      · cases h
      · next hnot =>
          cases k with
          | zero => exact hnot (List.isPrefixOf_iff_prefix.mpr hoccurs)
          | succ k => exact ih h k (occursAt_cons_succ.mp hoccurs)

structure FirstOccurrence (text part : List Char) (start : Nat) : Prop where
  occurs : OccursAt text part start
  least : ∀ other, OccursAt text part other → start ≤ other

theorem firstOccurrence_of_find? (h : find? text part = some start) :
    FirstOccurrence text part start := by
  obtain ⟨k, hstart, hk, hleast⟩ := findFrom_eq_some h
  rw [Nat.zero_add] at hstart
  rw [hstart]
  exact ⟨hk, fun other hother => Nat.le_of_not_lt fun hlt => hleast other hlt hother⟩

theorem FirstOccurrence.unique {start' : Nat} (h : FirstOccurrence text part start)
    (h' : FirstOccurrence text part start') : start = start' :=
  Nat.le_antisymm (h.least start' h'.occurs) (h'.least start h.occurs)

theorem exists_find?_of_occursAt (h : OccursAt text part start) :
    ∃ first, find? text part = some first := by
  cases hfind : find? text part with
  | none => exact absurd h (findFrom_eq_none hfind start)
  | some first => exact ⟨first, rfl⟩

end Text

namespace Source
open Text

variable {source : List Char} {f : FunctionDecl} {first : Nat}

theorem lineAt_mono {a b : Int} (h : a ≤ b) : lineAt source a ≤ lineAt source b := by
  have hprefix : source.take a.toNat <+: source.take b.toNat :=
    List.take_prefix_take_left (by omega)
  have hcount : lineFeeds (source.take a.toNat) ≤ lineFeeds (source.take b.toNat) :=
    hprefix.sublist.count_le '\n'
  unfold lineAt
  omega

theorem exists_bodyLine_eq (hbody : f.bodyText ≠ [])
    (hoccurs : ∃ start, OccursAt source f.bodyText start) :
    ∃ first, FirstOccurrence source f.bodyText first ∧
      ∀ offset, bodyLine source f offset = lineAt source (first + offset) := by
  obtain ⟨start, hstart⟩ := hoccurs
  obtain ⟨first, hfirst⟩ := exists_find?_of_occursAt hstart
  refine ⟨first, firstOccurrence_of_find? hfirst, fun offset => ?_⟩
  have hlocate : locate? source f.bodyText = some first := by
    rw [locate?, if_neg (mt List.isEmpty_iff.mp hbody), hfirst]
  rw [bodyLine, hlocate]

theorem bodyLine_eq_lineAt (hbody : f.bodyText ≠ [])
    (h : FirstOccurrence source f.bodyText first) (offset : Int) :
    bodyLine source f offset = lineAt source (first + offset) := by
  obtain ⟨first', hfirst', hline⟩ := exists_bodyLine_eq hbody ⟨first, h.occurs⟩
  rw [h.unique hfirst']
  exact hline offset

theorem bodyLine_of_absent (hbody : f.bodyText ≠ [])
    (habsent : ∀ start, ¬ OccursAt source f.bodyText start) (offset : Int) :
    bodyLine source f offset = f.lineStart + lineFeeds (f.bodyText.take offset.toNat) := by
  have hlocate : locate? source f.bodyText = none := by
    rw [locate?, if_neg (mt List.isEmpty_iff.mp hbody), Option.eq_none_iff_forall_not_mem]
    intro start hstart
    exact habsent start (firstOccurrence_of_find? hstart).occurs
  rw [bodyLine, hlocate]

/-! ## Counting inside the body -/

/-- From the beginning of a text that stands in the source, lines are counted in either of them. -/
theorem lineAt_add_of_occursAt {part : List Char} {start k : Nat} (h : OccursAt source part start)
    (hk : k ≤ part.length) :
    lineAt source (start + k : Nat) = lineAt source start + lineFeeds (part.take k) := by
  obtain ⟨rest, hrest⟩ := h
  have htake : source.take (start + k) = source.take start ++ part.take k := by
    rw [List.take_add, ← hrest, List.take_append_of_le_length hk]
  simp only [lineAt, Int.toNat_natCast, htake, lineFeeds, List.count_append]
  omega

/-- For a body that is found in the source, the line of an offset is the line on which the first
occurrence begins, and one more for each line feed of the body before the offset. So it is the line that
is counted from the start of the function where the body is not found, if the body begins on the line on
which the function starts. -/
theorem bodyLine_counts_on (hbody : f.bodyText ≠ [])
    (hfirst : FirstOccurrence source f.bodyText first) :
    (∀ k ≤ f.bodyText.length,
      bodyLine source f k = lineAt source first + lineFeeds (f.bodyText.take k)) ∧
    (lineAt source first = f.lineStart → ∀ k ≤ f.bodyText.length,
      bodyLine source f k = f.lineStart + lineFeeds (f.bodyText.take k) ∧
      ∀ other, (∀ start, ¬ OccursAt other f.bodyText start) →
        bodyLine source f k = bodyLine other f k) ∧
    (∀ k k' : Nat, k ≤ k' → k' ≤ f.bodyText.length → bodyLine source f k ≤ bodyLine source f k') ∧
    ∀ k ≤ f.bodyText.length,
      1 ≤ bodyLine source f k ∧ bodyLine source f k ≤ 1 + lineFeeds source := by
  have hline : ∀ k : Nat, bodyLine source f k = lineAt source (first + k : Nat) := fun k =>
    bodyLine_eq_lineAt hbody hfirst k
  have hcount : ∀ k ≤ f.bodyText.length,
      bodyLine source f k = lineAt source first + lineFeeds (f.bodyText.take k) := by
    intro k hk
    rw [hline]
    exact lineAt_add_of_occursAt hfirst.occurs hk
  refine ⟨hcount, ?_, ?_, ?_⟩
  · intro hstart k hk
    have hfallback : bodyLine source f k = f.lineStart + lineFeeds (f.bodyText.take k) := by
      rw [hcount k hk, hstart]
    refine ⟨hfallback, fun other habsent => ?_⟩
    rw [hfallback, bodyLine_of_absent hbody habsent, Int.toNat_natCast]
  · intro k k' hle _
    rw [hline, hline]
    exact lineAt_mono (by omega)
  · intro k _
    rw [hline]
    exact ⟨one_le_lineAt _ _, lineAt_le _ _⟩

/-- A body that stands twice in the source, the second time below the first. The function starts on the
line of the first occurrence, and the body ends one line below. -/
theorem bodyLine_counts_on_two_lines :
    let f : FunctionDecl := { name := "f", body := some "a;\nb;", lineStart := 2 }
    let source := "x\nf \x7b a;\nb; \x7d\ng \x7b a;\nb; \x7d".toList
    f.bodyText ≠ [] ∧ FirstOccurrence source f.bodyText 6 ∧ lineAt source (6 : Nat) = f.lineStart ∧
      bodyLine source f (5 : Nat) = 3 ∧ bodyLine source f (5 : Nat) = bodyLine [] f (5 : Nat) ∧
      bodyLine source f (2 : Nat) ≤ bodyLine source f (5 : Nat) ∧
      bodyLine source f (5 : Nat) ≤ 1 + lineFeeds source := by
  intro f source
  have hbody : f.bodyText ≠ [] := by decide +kernel
  have hfirst : FirstOccurrence source f.bodyText 6 := firstOccurrence_of_find? (by decide +kernel)
  have hstart : lineAt source (6 : Nat) = f.lineStart := by decide +kernel
  obtain ⟨hcount, hfallback, hmono, hbounds⟩ := bodyLine_counts_on hbody hfirst
  have hend : 5 ≤ f.bodyText.length := by decide +kernel
  refine ⟨hbody, hfirst, hstart, ?_, ?_, hmono 2 5 (by omega) hend, (hbounds 5 hend).2⟩
  · rw [hcount 5 hend]
    decide +kernel
  · apply (hfallback hstart 5 hend).2
    intro start hoccurs
    rw [OccursAt, List.drop_nil, List.prefix_nil] at hoccurs
    exact hbody hoccurs

/-! ## Bodies above their function -/

/-- The body does not stand above the line on which the function starts. -/
def StandsBelow (source : List Char) (f : FunctionDecl) : Prop :=
  ∀ start, OccursAt source f.bodyText start → f.lineStart ≤ lineAt source start

theorem standsBelow_iff (h : FirstOccurrence source f.bodyText first) :
    StandsBelow source f ↔ f.lineStart ≤ lineAt source first := by
  constructor
  · intro hbelow
    exact hbelow first h.occurs
  · intro hfirst start hstart
    exact Nat.le_trans hfirst (lineAt_mono (Int.ofNat_le.mpr (h.least start hstart)))

theorem forall_lineStart_le_iff (hfirst : FirstOccurrence source f.bodyText first)
    (hline : ∀ offset, bodyLine source f offset = lineAt source (first + offset)) :
    (∀ k : Nat, k ≤ f.bodyText.length → f.lineStart ≤ bodyLine source f k) ↔
      StandsBelow source f := by
  rw [standsBelow_iff hfirst]
  constructor
  · intro h
    simpa [hline] using h 0 (Nat.zero_le _)
  · intro h k _
    rw [hline]
    exact Nat.le_trans h (lineAt_mono (by omega))

end Source

namespace Arithmetic
open Text Source

variable {u : SourceUnit} {c : ContractDecl} {f : FunctionDecl} {found : Finding}

theorem exists_operation_of_mem_legacyFunctionFindings (h : found ∈ legacyFunctionFindings u c f) :
    ∃ hit ∈ riskyOperations f.bodyText f.parameterNames,
      found.lineNumber = some (bodyLine u.text f hit.2.start) := by
  simp only [legacyFunctionFindings] at h
  split at h
  · cases h
  · obtain ⟨hit, hhit, rfl⟩ := List.mem_map.mp (List.mem_mergeSort.mp h)
    exact ⟨hit, hhit, rfl⟩

/-- No line inside a body that is part of the source is above its function exactly if the body stands
nowhere above the function. The findings on the function are on the lines of the body's first
occurrence, so then none of them is above the function either. -/
theorem bodyLine_not_above_iff (u : SourceUnit) (f : FunctionDecl) (hbody : f.bodyText ≠ [])
    (hoccurs : ∃ start, OccursAt u.text f.bodyText start) :
    ((∀ k : Nat, k ≤ f.bodyText.length → f.lineStart ≤ bodyLine u.text f k) ↔
      StandsBelow u.text f) ∧
    ∃ first, FirstOccurrence u.text f.bodyText first ∧
      (∀ offset, bodyLine u.text f offset = lineAt u.text (first + offset)) ∧
      ∀ c, ∀ found ∈ legacyFunctionFindings u c f,
        ∃ hit ∈ riskyOperations f.bodyText f.parameterNames, ∃ line,
          found.lineNumber = some line ∧ line = lineAt u.text (first + hit.2.start) ∧
            (StandsBelow u.text f → f.lineStart ≤ line) := by
  obtain ⟨first, hfirst, hline⟩ := exists_bodyLine_eq hbody hoccurs
  refine ⟨forall_lineStart_le_iff hfirst hline, first, hfirst, hline, ?_⟩
  intro c found hfound
  obtain ⟨hit, hhit, hnumber⟩ := exists_operation_of_mem_legacyFunctionFindings hfound
  rw [hline] at hnumber
  refine ⟨hit, hhit, _, hnumber, rfl, fun hbelow => ?_⟩
  exact Nat.le_trans (hbelow first hfirst.occurs) (lineAt_mono (by omega))

/-- Two functions with one body: the second starts on line 4 and its body stands on line 5, and the
finding on it is reported on line 2. -/
theorem bodyLine_not_above_iff_repeated :
    let f : FunctionDecl := { name := "b", body := some "x += 1;", lineStart := 4 }
    let c : ContractDecl := { name := "C", functions := [f] }
    let u : SourceUnit := {
      source := "function a() \x7b\n  x += 1;\n\x7d\nfunction b() \x7b\n  x += 1;\n\x7d\n"
      contracts := [c] }
    (∃ start, OccursAt u.text f.bodyText start ∧ f.lineStart ≤ lineAt u.text start) ∧
      (¬ ∀ k : Nat, k ≤ f.bodyText.length → f.lineStart ≤ bodyLine u.text f k) ∧
      (legacyFunctionFindings u c f).map (·.lineNumber) = [some 2] := by
  intro f c u
  have hbelow : OccursAt u.text f.bodyText 44 ∧ f.lineStart ≤ lineAt u.text (44 : Nat) := by
    decide +kernel
  have habove : OccursAt u.text f.bodyText 17 ∧ lineAt u.text (17 : Nat) < f.lineStart := by
    decide +kernel
  have hbody : f.bodyText ≠ [] := by decide +kernel
  refine ⟨⟨44, hbelow⟩, ?_, by decide +kernel⟩
  rw [(bodyLine_not_above_iff u f hbody ⟨44, hbelow.1⟩).1]
  intro hstands
  have := hstands 17 habove.1
  omega

end Arithmetic
end SolidityAudit
