import Mathlib.Data.List.Nodup
import SolidityAudit.Proofs.ChosenFindings
import SolidityAudit.Proofs.Literal

/-!
# Findings with one identity key

Two findings with plain evidence have one identity key exactly if they agree in all that the key is
made of. Evidence is a dictionary: the order in which its keys were given does not matter, since they
are sorted before the evidence is written; inside nested objects the order matters.
-/

namespace SolidityAudit

theorem Vulnerability.tag_injective {v w : Vulnerability} (h : v.tag = w.tag) : v = w := by
  revert h
  cases v <;> cases w <;> decide

namespace Json.Members

theorem get?_eq_some_iff_mem {ms : Members} (h : (ms.map (·.1)).Nodup) {key : String}
    {value : Json} : ms.get? key = some value ↔ (key, value) ∈ ms := by
  induction ms with
  | nil => simp [get?]
  | cons m rest ih =>
      obtain ⟨k, v⟩ := m
      obtain ⟨hk, hrest⟩ := List.nodup_cons.mp h
      by_cases heq : key = k
      · subst heq
        have hfree : (key, value) ∉ rest := fun hmem => hk (List.mem_map.mpr ⟨_, hmem, rfl⟩)
        simp [get?, hfree, eq_comm]
      · have hlookup : get? ((k, v) :: rest) key = get? rest key := by
          rw [get?, List.lookup_cons, beq_false_of_ne heq]
          rfl
        simp [hlookup, heq, ih hrest]

/-- Dictionaries with the same values are permutations of each other. -/
theorem perm_iff_get?_eq {a b : Members} (ha : (a.map (·.1)).Nodup) (hb : (b.map (·.1)).Nodup) :
    a.Perm b ↔ ∀ key, a.get? key = b.get? key := by
  rw [List.perm_ext_iff_of_nodup (List.Nodup.of_map _ ha) (List.Nodup.of_map _ hb)]
  constructor
  · intro h key
    apply Option.ext
    intro value
    rw [get?_eq_some_iff_mem ha, get?_eq_some_iff_mem hb, h]
  · rintro h ⟨key, value⟩
    rw [← get?_eq_some_iff_mem ha, ← get?_eq_some_iff_mem hb, h]

end Json.Members

namespace Finding
open Json

structure PlainEvidence (evidence : Members) : Prop where
  keys : (evidence.map (·.1)).Nodup
  values : ∀ e ∈ evidence, e.2.Plain

variable {a b : Members}

theorem sortedEvidence_perm (evidence : Members) : (sortedEvidence evidence).Perm evidence :=
  List.mergeSort_perm _ _

theorem sortedEvidence_pairwise (evidence : Members) :
    (sortedEvidence evidence).Pairwise fun e e' => e.1 ≤ e'.1 := by
  have hle : ∀ e e' : String × Json, (!decide (e'.1 < e.1)) = true ↔ e.1 ≤ e'.1 := by
    intro e e'
    rw [Bool.not_eq_true', decide_eq_false_iff_not, String.not_lt]
  have htrans : ∀ e e' e'' : String × Json, (!decide (e'.1 < e.1)) = true →
      (!decide (e''.1 < e'.1)) = true → (!decide (e''.1 < e.1)) = true := by
    intro e e' e''
    rw [hle, hle, hle]
    exact String.le_trans
  have htotal : ∀ e e' : String × Json, (!decide (e'.1 < e.1) || !decide (e.1 < e'.1)) = true := by
    intro e e'
    rw [Bool.or_eq_true, hle, hle]
    exact String.le_total e.1 e'.1
  exact (List.pairwise_mergeSort htrans htotal evidence).imp fun {e e'} h => (hle e e').mp h

/-- Sorting by key forgets the order in which a dictionary was given, and nothing else. -/
theorem sortedEvidence_eq_iff (ha : (a.map (·.1)).Nodup) (hb : (b.map (·.1)).Nodup) :
    sortedEvidence a = sortedEvidence b ↔ ∀ key, a.get? key = b.get? key := by
  rw [← Members.perm_iff_get?_eq ha hb]
  constructor
  · intro h
    exact (sortedEvidence_perm a).symm.trans (h ▸ sortedEvidence_perm b)
  · intro h
    have hperm := (sortedEvidence_perm a).trans (h.trans (sortedEvidence_perm b).symm)
    apply List.Perm.eq_of_pairwise _ (sortedEvidence_pairwise a) (sortedEvidence_pairwise b) hperm
    intro e e' he he' hle hge
    have hmem : e ∈ b := h.subset ((sortedEvidence_perm a).subset he)
    have hmem' : e' ∈ b := (sortedEvidence_perm b).subset he'
    exact List.inj_on_of_nodup_map hb hmem hmem' (String.le_antisymm hle hge)

theorem evidenceLiteral_inj (ha : ∀ e ∈ a, e.2.Plain) (hb : ∀ e ∈ b, e.2.Plain)
    (h : evidenceLiteral a = evidenceLiteral b) : sortedEvidence a = sortedEvidence b := by
  have hopen : ∀ e ∈ sortedEvidence a ++ sortedEvidence b,
      ∃ c cs, literalPair e = c :: cs ∧ c ≠ ']' := fun e _ => ⟨'(', _, rfl, by decide⟩
  have hpair : ∀ e ∈ sortedEvidence a, ∀ e' ∈ sortedEvidence b, SeparateFrom literalPair e e' := by
    intro e he e' he' r s _ _ hrs
    simp only [literalPair, List.cons_append, List.append_assoc, List.nil_append] at hrs
    have hvalue := literal_separateFrom (ha e ((sortedEvidence_perm a).subset he))
      (hb e' ((sortedEvidence_perm b).subset he'))
    obtain ⟨rfl, hclosed⟩ := @entry_append_inj _ _ [',', ' '] _ _ hvalue
      (noDigitNext_cons rfl) (noDigitNext_cons rfl) (List.cons.inj hrs).2
    exact ⟨rfl, (List.cons.inj hclosed).2⟩
  exact (joinWith_append_inj (by decide) rfl hopen hpair (List.cons.inj h).2).1

theorem evidenceLiteral_eq_iff (ha : PlainEvidence a) (hb : PlainEvidence b) :
    evidenceLiteral a = evidenceLiteral b ↔ ∀ key, a.get? key = b.get? key := by
  rw [← sortedEvidence_eq_iff ha.keys hb.keys]
  constructor
  · exact evidenceLiteral_inj ha.values hb.values
  · intro h
    rw [evidenceLiteral, evidenceLiteral, h]

/-- Findings with plain evidence have one identity key exactly if they agree in detector, severity,
kind, title, place and in the evidence for each key. -/
theorem identityKey_eq_iff {f g : Finding} (hf : PlainEvidence f.evidence)
    (hg : PlainEvidence g.evidence) :
    f.identityKey = g.identityKey ↔
      f.detector = g.detector ∧ f.severity = g.severity ∧ f.vulnerability = g.vulnerability ∧
        f.title = g.title ∧ f.contractName = g.contractName ∧ f.functionName = g.functionName ∧
        f.lineNumber = g.lineNumber ∧ ∀ key, f.evidence.get? key = g.evidence.get? key := by
  rw [← evidenceLiteral_eq_iff hf hg]
  simp only [identityKey, IdentityKey.mk.injEq]
  constructor
  · rintro ⟨hdetector, hseverity, hkind, htitle, hcontract, hfunction, hline, hevidence⟩
    exact ⟨hdetector, Severity.tag_injective hseverity, Vulnerability.tag_injective hkind, htitle,
      hcontract, hfunction, hline, hevidence⟩
  · rintro ⟨hdetector, hseverity, hkind, htitle, hcontract, hfunction, hline, hevidence⟩
    exact ⟨hdetector, by rw [hseverity], by rw [hkind], htitle, hcontract, hfunction, hline,
      hevidence⟩

/-- Evidence given in another order, with quotes, a backslash and a line feed in it, has the same key;
with `true` in the place of 1 it has another one. -/
theorem identityKey_eq_iff_reordered :
    let finding (evidence : Members) : Finding := {
      severity := .low, title := "", description := "", vulnerability := .reentrancy
      contractName := "C", evidence := evidence }
    let text : Json := .str "it's \"\\\n"
    let given : Members := [("b'", .list [.int 1, .null]), ("a", .object [("k", text), ("", text)])]
    let other : Members := [("b'", .list [.bool true, .null]), ("a", .object [("k", text), ("", text)])]
    PlainEvidence given ∧ PlainEvidence given.reverse ∧ PlainEvidence other ∧
      (finding given).identityKey = (finding given.reverse).identityKey ∧
      (finding given).identityKey ≠ (finding other).identityKey := by
  intro finding text given other
  have hobject : Plain (.object [("k", text), ("", text)]) := .object (by simp [text, Plain.str])
  have hgiven : PlainEvidence given := by
    refine ⟨by decide, ?_⟩
    simp only [given, List.forall_mem_cons, List.not_mem_nil, false_imp_iff, implies_true, and_true]
    exact ⟨.list (by simp [Plain.int, Plain.null]), hobject⟩
  have hother : PlainEvidence other := by
    refine ⟨by decide, ?_⟩
    simp only [other, List.forall_mem_cons, List.not_mem_nil, false_imp_iff, implies_true, and_true]
    exact ⟨.list (by simp [Plain.bool, Plain.null]), hobject⟩
  have hreverse : PlainEvidence given.reverse :=
    ⟨by decide, fun e he => hgiven.values e (List.mem_reverse.mp he)⟩
  refine ⟨hgiven, hreverse, hother, ?_, ?_⟩
  · rw [identityKey_eq_iff hgiven hreverse]
    refine ⟨rfl, rfl, rfl, rfl, rfl, rfl, rfl, ?_⟩
    exact (Members.perm_iff_get?_eq hgiven.keys hreverse.keys).mp (List.reverse_perm given).symm
  · rw [ne_eq, identityKey_eq_iff hgiven hother]
    rintro ⟨_, _, _, _, _, _, _, hevidence⟩
    have hvalue := hevidence "b'"
    simp [given, other, finding, Members.get?] at hvalue

end Finding
end SolidityAudit
