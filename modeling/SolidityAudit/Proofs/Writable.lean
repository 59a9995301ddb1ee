import SolidityAudit.Report.Basic

/-!
# Reports and evidence that cannot be written

The key by which repetitions are found holds the evidence as a text, so it cannot be made where a
number of the evidence has too many digits. Dropping repetitions then fails, and with it the report.
`Finding.writing` says when: a result is given exactly if the evidence of all findings in question can
be written, and it is then the one that `deduplicate` and `Report.build` describe.
-/

namespace SolidityAudit

theorem Numeral.isWritable_eq_false_iff {n : Int} :
    isWritable n = false ↔ Nat.pow 10 maxDigits ≤ n.natAbs := by
  rw [isWritable, decide_eq_false_iff_not, Nat.not_lt]

namespace Json

@[simp] theorem isWritable_str (s : String) : (str s).isWritable = true := rfl

@[simp] theorem isWritable_bool (b : Bool) : (bool b).isWritable = true := rfl

@[simp] theorem isWritable_ofText? (s : Option String) : (ofText? s).isWritable = true := by
  cases s <;> rfl

@[simp] theorem isWritable_texts (ss : List String) : (texts ss).isWritable = true := by
  induction ss with
  | nil => rfl
  | cons s rest ih => exact ih

@[simp] theorem membersWritable_nil : membersWritable [] = true := rfl

@[simp] theorem membersWritable_cons (key : String) (value : Json) (rest : Members) :
    membersWritable ((key, value) :: rest) = (value.isWritable && membersWritable rest) := rfl

end Json

namespace Finding

def oversized : Finding where
  severity := .low
  title := ""
  description := ""
  evidence := [("n", .int (Nat.pow 10 Numeral.maxDigits : Nat))]
  vulnerability := .reentrancy
  contractName := "C"

theorem isWritable_oversized : oversized.isWritable = false := by
  have hnumber := Numeral.isWritable_eq_false_iff.mpr
    (Nat.le_of_eq (Int.natAbs_natCast (Nat.pow 10 Numeral.maxDigits)).symm)
  simp only [oversized, isWritable, Json.membersWritable, Json.isWritable, hnumber, Bool.false_and]

/-- The value, provided that the evidence of all findings can be written. -/
def writing {α : Type} (found : List Finding) (a : α) : Except WriteError α :=
  if found.all (·.isWritable) then .ok a else .error .oversizedNumber

variable {α β : Type} {found more : List Finding} {a a' : α} {b : β} {reason : WriteError}

theorem writing_eq_ok_iff :
    writing found a = .ok a' ↔ (∀ f ∈ found, f.isWritable = true) ∧ a = a' := by
  unfold writing
  split
  · next h => simpa using fun _ => List.all_eq_true.mp h
  · next h => simpa using fun hall => absurd (List.all_eq_true.mpr hall) h

theorem writing_eq_error_iff :
    writing found a = .error reason ↔ ∃ f ∈ found, f.isWritable = false := by
  cases reason
  unfold writing
  split
  · next h => simpa using List.all_eq_true.mp h
  · next h => simpa using h

theorem writing_eq_writing_iff : writing found a = writing more a ↔
    ((∀ f ∈ found, f.isWritable = true) ↔ ∀ f ∈ more, f.isWritable = true) := by
  unfold writing
  rw [← List.all_eq_true, ← List.all_eq_true]
  cases found.all (·.isWritable) <;> cases more.all (·.isWritable) <;> simp

@[simp] theorem map_writing (g : α → β) : (writing found a).map g = writing found (g a) := by
  unfold writing
  split <;> rfl

theorem mapError_writing_eq_ok_iff {ε : Type} {g : WriteError → ε} :
    (writing found a).mapError g = .ok a' ↔ (∀ f ∈ found, f.isWritable = true) ∧ a = a' := by
  rw [← writing_eq_ok_iff]
  cases writing found a with
  | ok b =>
      change (Except.ok b : Except ε α) = .ok a' ↔ _
      simp
  | error reason =>
      change (Except.error (g reason) : Except ε α) = .ok a' ↔ _
      simp

theorem mapError_writing_eq_error_iff {ε : Type} {g : WriteError → ε} {e : ε} :
    (writing found a).mapError g = .error e ↔
      (∃ f ∈ found, f.isWritable = false) ∧ g .oversizedNumber = e := by
  have herror : writing found a = .error .oversizedNumber ↔ _ := writing_eq_error_iff
  rw [← herror]
  cases writing found a with
  | ok b =>
      change (Except.ok b : Except ε α) = .error e ↔ _
      simp
  | error reason =>
      cases reason
      change (Except.error (g .oversizedNumber) : Except ε α) = .error e ↔ _
      simp

/-- A value that is passed on to what looks at further findings. -/
theorem writing_bind (g : α → Except WriteError β) (hg : g a = writing more b) :
    (writing found a >>= g) = writing (found ++ more) b := by
  unfold writing at hg ⊢
  rw [List.all_append]
  cases found.all (·.isWritable) with
  | true => exact hg
  | false => rfl

theorem tryDeduplicateFrom_eq (seen : List IdentityKey) (found : List Finding) :
    tryDeduplicateFrom seen found = writing found (deduplicateFrom seen found) := by
  induction found generalizing seen with
  | nil => rfl
  | cons f rest ih =>
      have hkey : f.tryIdentityKey = writing [f] f.identityKey := by
        simp [tryIdentityKey, writing]
      unfold tryDeduplicateFrom deduplicateFrom
      rw [hkey]
      refine writing_bind _ ?_
      split
      · exact ih seen
      · rw [ih]
        exact map_writing _

theorem tryDeduplicate_eq (found : List Finding) :
    tryDeduplicate found = writing found (deduplicate found) :=
  tryDeduplicateFrom_eq [] found

end Finding

namespace Report

/-- The findings of the outcomes whose identity keys are asked for. -/
def keyed (config : ScanConfig) (outcomes : List Outcome) : List Finding :=
  if config.deduplicate then outcomes.flatMap (·.findings) else []

theorem tryChooseFindings_eq (config : ScanConfig) (outcomes : List Outcome) :
    tryChooseFindings config outcomes =
      Finding.writing (keyed config outcomes) (chooseFindings config outcomes) := by
  unfold tryChooseFindings chooseFindings keyed
  cases config.deduplicate with
  | false => rfl
  | true =>
      simp only [if_true, Finding.tryDeduplicate_eq]
      exact Finding.map_writing _

/-- The report is the one that `build` describes, where the keys that are asked for can be made. -/
theorem tryBuild_eq (u : SourceUnit) (outcomes : List Outcome) (config : ScanConfig) :
    tryBuild u outcomes config =
      Finding.writing (keyed config outcomes) (build u outcomes config) := by
  unfold tryBuild
  rw [tryChooseFindings_eq]
  exact Finding.map_writing _

theorem mem_keyed_iff {config : ScanConfig} {outcomes : List Outcome} {f : Finding} :
    f ∈ keyed config outcomes ↔ config.deduplicate = true ∧ ∃ o ∈ outcomes, f ∈ o.findings := by
  unfold keyed
  split
  · next h => simp [h]
  · next h => simp [h]

end Report
end SolidityAudit
