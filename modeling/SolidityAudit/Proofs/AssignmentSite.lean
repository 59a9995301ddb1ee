import SolidityAudit.Proofs.IndexedWrite

/-!
# Sites of assignments and writes of variables

A site that assigns to a name, or to an element of it, is found with eleven operators, and the search
for writes of the name reads five of them. It also refuses a further equals sign or an arrow behind a
combined assignment, where the search for sites does not. Such a site counts as a write only if the name
is written in another way too.
-/

namespace SolidityAudit
open Pattern Text Reentrancy CriticalState

variable {members : Bool} {sign : List Char → Prop} {body name accesses gap tail after : List Char}
  {offset : Nat} {op : String} {c : Char}

/-! ## Accesses before a sign -/

/-- Behind the accesses stands what the sign asks for, since accesses are read in one way. -/
theorem Follows.sign_of_accesses (hsign : IsSign sign) (haccesses : Accesses false accesses)
    (hgap : ∀ d ∈ gap, isBlank d = true) (hblank : isBlank c = false) (hopen : c ≠ '[')
    (hdot : c ≠ '.') (h : Follows members sign (accesses ++ (gap ++ c :: tail))) :
    sign (c :: tail) := by
  induction haccesses with
  | none =>
      rcases h.cases_of_gap hsign hgap hblank with ⟨heq, _⟩ | heq | hhere
      · exact absurd heq hopen
      · exact absurd heq hdot
      · exact hhere
  | @index gap' inner accesses hgap' hinner _ ih =>
      simp only [List.append_assoc, List.cons_append] at h
      rcases h.cases_of_gap hsign hgap' (by decide) with
        ⟨_, inner', rest, hinner', htext, hrest⟩ | heq | hhere
      · rw [← (append_cons_inj_of_notMem hinner hinner' htext).2] at hrest
        exact ih hrest
      · exact absurd heq (by decide)
      · obtain ⟨d, _, heq, _, _, hne, _⟩ := hsign hhere
        exact absurd (List.cons.inj heq).1.symm hne
  | member hmembers => cases hmembers

theorem Accesses.exists_gap (haccesses : Accesses members accesses)
    (hgap : ∀ d ∈ gap, isBlank d = true) (hblank : isBlank c = false) (hword : isWord c = false) :
    ∃ gap' d tail', accesses ++ (gap ++ c :: tail) = gap' ++ d :: tail' ∧
      (∀ b ∈ gap', isBlank b = true) ∧ isBlank d = false ∧ isWord d = false := by
  cases haccesses with
  | none => exact ⟨gap, c, tail, rfl, hgap, hblank, hword⟩
  | @index gap' inner accesses hgap' =>
      exact ⟨gap', '[', inner ++ ']' :: (accesses ++ (gap ++ c :: tail)), by simp, hgap', by decide,
        by decide⟩
  | @member gap' inner name accesses _ hgap' =>
      exact ⟨gap', '.', inner ++ (name ++ (accesses ++ (gap ++ c :: tail))), by simp, hgap', by decide,
        by decide⟩

/-! ## Operators -/

def assignmentOperators : List String := ["", "+", "-", "*", "/", "%", "|", "&", "^", "<<", ">>"]

/-- An assignment with this operator is a write of a variable: one of five operators, and no second
equals sign or arrow behind. -/
def IsVariableWrite (op : String) (after : List Char) : Prop :=
  op ∈ ["", "+", "-", "*", "/"] ∧ after.head? ≠ some '=' ∧ after.head? ≠ some '>'

theorem exists_sign_of_operator (hop : op ∈ assignmentOperators) (after : List Char) :
    ∃ c tail, op.toList ++ '=' :: after = c :: tail ∧ isBlank c = false ∧ isWord c = false ∧
      c ≠ '[' ∧ c ≠ '.' := by
  simp only [assignmentOperators, List.mem_cons, List.not_mem_nil, or_false] at hop
  rcases hop with rfl | rfl | rfl | rfl | rfl | rfl | rfl | rfl | rfl | rfl | rfl <;>
    exact ⟨_, _, rfl, by decide⟩

theorem not_stepSign_operator (hop : op ∈ assignmentOperators) :
    ¬ StepSign (op.toList ++ '=' :: after) := by
  simp only [assignmentOperators, List.mem_cons, List.not_mem_nil, or_false] at hop
  rcases hop with rfl | rfl | rfl | rfl | rfl | rfl | rfl | rfl | rfl | rfl | rfl <;>
    simp [StepSign]

theorem not_compoundSign_equals : ¬ CompoundSign ('=' :: after) := by
  simp [CompoundSign]

theorem variableSign_operator_iff (hop : op ∈ assignmentOperators) :
    VariableSign (op.toList ++ '=' :: after) ↔ IsVariableWrite op after := by
  have hstep : ¬ StepSign (op.toList ++ '=' :: after) := not_stepSign_operator hop
  simp only [VariableSign, hstep, or_false]
  simp only [assignmentOperators, List.mem_cons, List.not_mem_nil, or_false] at hop
  rcases hop with rfl | rfl | rfl | rfl | rfl | rfl | rfl | rfl | rfl | rfl | rfl <;>
    simp [ShortAssignSign, IsVariableWrite]

theorem follows_operator_iff (haccesses : Accesses false accesses)
    (hgap : ∀ d ∈ gap, isBlank d = true) (hop : op ∈ assignmentOperators) :
    Follows false VariableSign (accesses ++ (gap ++ (op.toList ++ '=' :: after))) ↔
      IsVariableWrite op after := by
  rw [← variableSign_operator_iff hop]
  constructor
  · intro h
    obtain ⟨c, tail, htail, hblank, _, hopen, hdot⟩ := exists_sign_of_operator hop after
    rw [htail] at h ⊢
    exact h.sign_of_accesses variableSign_isSign haccesses hgap hblank hopen hdot
  · intro h
    exact ⟨accesses, gap, _, rfl, haccesses, hgap, h⟩

/-! ## Sites -/

def assignmentText (name accesses gap : List Char) (op : String) : List Char :=
  name ++ (accesses ++ (gap ++ (op.toList ++ ['='])))

theorem drop_of_mem_stateChanges
    (hsite : ⟨offset, assignmentText name accesses gap op⟩ ∈ stateChanges body) :
    body.drop offset = name ++ (accesses ++ (gap ++ (op.toList ++ '=' ::
      body.drop (offset + (assignmentText name accesses gap op).length)))) := by
  obtain ⟨_, after, hafter⟩ := (stateChanges_standIn body).texts _ hsite
  change assignmentText name accesses gap op ++ after = body.drop offset at hafter
  rw [← List.drop_drop, ← hafter, List.drop_left]
  simp [assignmentText]

/-- Where a site assigns to a name, the name begins a word, and a plain equals sign is followed by no
other sign. -/
theorem assigned_of_mem_stateChanges (hname : Source.IsName name) (haccesses : Accesses false accesses)
    (hgap : ∀ d ∈ gap, isBlank d = true) (hop : op ∈ assignmentOperators)
    (hsite : ⟨offset, assignmentText name accesses gap op⟩ ∈ stateChanges body) :
    let after := body.drop (offset + (assignmentText name accesses gap op).length)
    (Reading.start body offset).atWordEdge = true ∧
      (op = "" → after.head? ≠ some '=' ∧ after.head? ≠ some '>') := by
  intro after
  have hahead : body.drop offset = name ++ (accesses ++ (gap ++ (op.toList ++ '=' :: after))) :=
    drop_of_mem_stateChanges hsite
  obtain ⟨c, tail, htail, hblank, hword, hopen, hdot⟩ := exists_sign_of_operator hop after
  rw [htail] at hahead
  obtain ⟨gap', d, tail', hrest, hgap', hblank', hword'⟩ :=
    @Accesses.exists_gap _ _ _ tail _ haccesses hgap hblank hword
  obtain ⟨p, hp, m, hm, hstart, _⟩ := exists_mem_stateChanges_iff.mp ⟨_, hsite, rfl⟩
  obtain ⟨r', hr', _⟩ := exists_reaches_of_matchAt (matchAt_of_mem_findAll hm)
  rw [hstart] at hr'
  have hassigned : ∀ {q : Pattern} {sign : List Char → Prop}, Announces q sign →
      (∀ {text}, sign text → ChangeSign text) →
      (assignable.seq (blanks.seq q)).Reaches (.start body offset) r' →
      (Reading.start body offset).atWordEdge = true ∧ sign (op.toList ++ '=' :: after) := by
    intro q sign hq hchange h
    have hsign : IsSign sign := fun _ h => changeSign_isSign (hchange h)
    have hstops : Stops isWord (accesses ++ (gap ++ c :: tail)) := by
      rw [hrest]
      exact stops_isWord_append hgap' ⟨d, tail', rfl, hword'⟩
    obtain ⟨hedge, hfollows⟩ :=
      (exists_reaches_assignable_of_name_iff hname hstops hahead hq hsign).mp ⟨r', h⟩
    rw [htail]
    exact ⟨hedge, hfollows.sign_of_accesses hsign haccesses hgap hblank hopen hdot⟩
  simp only [stateChangePatterns, List.mem_cons, List.not_mem_nil, or_false] at hp
  rcases hp with rfl | rfl | rfl | rfl | rfl | rfl
  · obtain ⟨hedge, rest, heq, hfree⟩ := hassigned announces_assign Or.inl hr'
    refine ⟨hedge, ?_⟩
    rintro rfl
    obtain ⟨_, rfl⟩ := List.cons.inj heq
    exact hfree
  · obtain ⟨hedge, hsign⟩ := hassigned announces_compound (Or.inr ∘ Or.inl) hr'
    refine ⟨hedge, ?_⟩
    rintro rfl
    exact absurd hsign not_compoundSign_equals
  · obtain ⟨_, hsign⟩ := hassigned announces_step (Or.inr ∘ Or.inr ∘ Or.inl) hr'
    exact absurd hsign (not_stepSign_operator hop)
  · exact absurd hr' (not_reaches_prefixStep hname hahead)
  · rw [hrest] at hahead
    exact absurd hr' (not_reaches_delete hname hgap' hblank' hword' hahead)
  · obtain ⟨_, _, _, _, _, _, _, _, heq⟩ :=
      hassigned announces_element (Or.inr ∘ Or.inr ∘ Or.inr) hr'
    exact absurd (List.cons.inj (htail.symm.trans heq)).1 hdot

/-! ## Writes -/

/-- A name that the scan for a word comes upon is written. -/
theorem writes_of_comesUpon {word name : String} (h : ComesUpon body word name) :
    writes body name.toList = true := by
  obtain ⟨offset, ⟨⟨m, hat, hgroup⟩, _⟩, _⟩ := h
  have hlt := lt_length_of_matchAt hat
  obtain ⟨r', ⟨_, ⟨hedge, rfl⟩, _, ⟨last, hword, rfl⟩, hrest⟩, rfl⟩ := exists_reaches_of_matchAt hat
  obtain ⟨piece, hpiece⟩ := exists_between_of_reaches hword
  have hgroups : r'.groups = ("name", ⟨offset, last.offset⟩) :: last.groups :=
    groups_eq_of_reaches rfl hrest
  rw [Match.group?, hgroups, List.lookup_cons_self, Option.map_some, Option.some_inj] at hgroup
  have hname : piece = name.toList := (hpiece.slice_eq rfl).symm.trans hgroup
  have hfollows : Follows false ShortAssignSign last.ahead :=
    (Announces.follows rfl describes_indexes_iff announces_shortAssign
      (last.remember "name" offset)).mp ⟨r', hrest⟩
  rw [hname] at hpiece
  exact writes_iff.mpr (Or.inl ⟨offset, Nat.le_of_lt hlt, hedge, last.ahead, hpiece.ahead,
    follows_or_iff.mpr (Or.inl hfollows)⟩)

/-- The names added beside the critical ones are written too, so a critical name is listed exactly if it
is written. -/
theorem mem_modifiedNames_iff {critical : List String} {name : String} (h : name ∈ critical) :
    name ∈ modifiedNames body critical ↔ writes body name.toList = true := by
  obtain ⟨further, heq, ⟨chosen, _, hchosen, _⟩, _⟩ := modifiedNames_eq_append body critical
  rw [heq, List.mem_append, List.mem_filter]
  constructor
  · rintro (⟨_, hwrites⟩ | hfurther)
    · exact hwrites
    · obtain ⟨i, hi, rfl⟩ := List.getElem_of_mem hfurther
      have hlength := hchosen.length_eq
      exact writes_of_comesUpon (hchosen.get (by omega) hi)
  · intro hwrites
    exact Or.inl ⟨h, hwrites⟩

/-- A site that assigns to a name is a write of the name exactly if its operator is one of five and no
further sign follows, or if the name is written in another way. A plain assignment always is one. For a
name that begins the body and stands nowhere else there is no other way. -/
theorem assignment_site_written_iff (hname : Source.IsName name) (haccesses : Accesses false accesses)
    (hgap : ∀ d ∈ gap, isBlank d = true) (hop : op ∈ assignmentOperators)
    (hsite : ⟨offset, assignmentText name accesses gap op⟩ ∈ stateChanges body) :
    let after := body.drop (offset + (assignmentText name accesses gap op).length)
    (writes body name = true ↔ IsVariableWrite op after ∨ WrittenOtherwise body name offset) ∧
    (op = "" → IsVariableWrite op after) ∧
    (offset = 0 → ¬ StandsLater name body → ¬ WrittenOtherwise body name offset) ∧
    ∀ critical, String.ofList name ∈ critical →
      (String.ofList name ∈ modifiedNames body critical ↔ writes body name = true) := by
  intro after
  obtain ⟨hedge, hplain⟩ := assigned_of_mem_stateChanges hname haccesses hgap hop hsite
  have hahead := drop_of_mem_stateChanges hsite
  have hle : offset ≤ body.length := by
    have hlength := congrArg List.length hahead
    simp only [List.length_drop, List.length_append, List.length_cons] at hlength
    omega
  refine ⟨?_, ?_, ?_, ?_⟩
  · rw [writes_iff_or_writtenOtherwise hle hedge hahead, follows_operator_iff haccesses hgap hop]
  · intro hempty
    have hread : op ∈ ["", "+", "-", "*", "/"] := by
      rw [hempty]
      exact List.mem_cons_self
    exact ⟨hread, hplain hempty⟩
  · intro hzero honce
    rw [hzero]
    exact not_writtenOtherwise honce
  · intro critical hcritical
    rw [mem_modifiedNames_iff hcritical, String.toList_ofList]

/-- A remainder is assigned to a critical variable: the site is found, and no write is seen. -/
theorem assignment_site_written_iff_remainder :
    let body := "fee %= 2;".toList
    stateChanges body = [⟨0, "fee %=".toList⟩] ∧ writes body "fee".toList = false ∧
      modifiedNames body ["fee"] = [] ∧
      (writes body "fee".toList = true ↔ IsVariableWrite "%" " 2;".toList ∨
        WrittenOtherwise body "fee".toList 0) := by
  intro body
  have hname : Source.IsName "fee".toList :=
    describes_identifier_iff.mpr ⟨'f', ['e', 'e'], by decide, by decide, List.all_eq_true.mp rfl⟩
  have hsites : stateChanges body = [⟨0, "fee %=".toList⟩] := by decide +kernel
  have hsite : ⟨0, assignmentText "fee".toList [] [' '] "%"⟩ ∈ stateChanges body := by
    rw [hsites]
    exact List.mem_singleton.mpr (by decide)
  have hwritten := (assignment_site_written_iff hname .none (List.all_eq_true.mp rfl) (by decide)
    hsite).1
  exact ⟨hsites, by decide +kernel, by decide +kernel, hwritten⟩

end SolidityAudit
