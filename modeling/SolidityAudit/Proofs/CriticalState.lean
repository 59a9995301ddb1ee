import Mathlib.Tactic.SplitIfs
import SolidityAudit.CriticalState.Detector
import SolidityAudit.Proofs.FunctionCheck
import SolidityAudit.Proofs.Scanning

/-!
# Reported writes of critical state

The list of written names begins with the declared ones and is then carried through the words of the
vocabulary, each of which adds at most one name. A name that is not local is left out only if it is
listed already, if another name was added for its word, or if the scan passes over it because it is
assigned inside an index of another name with the same word.
-/

namespace SolidityAudit.CriticalState
open Pattern

variable {body : List Char} {word name : String} {m : Match} {offset : Nat}

/-! ## Assignments to names with a word -/

/-- At an offset stands an assignment to a name that contains a word, and the name is not presumed to
be local there. -/
structure AssignsAt (body : List Char) (word : String) (offset : Nat) (name : String) : Prop where
  assigned : ∃ m, (wordAssignment word).matchAt body offset = some m ∧
    m.group? body "name" = some name.toList
  notLocal : Source.declaresLocally body offset (some name.toList) = false

def ComesUpon (body : List Char) (word name : String) : Prop :=
  ∃ offset, AssignsAt body word offset name ∧ ¬ (wordAssignment word).PassesOver body offset

def ContainsWord (word : String) (text : List Char) : Prop :=
  ∃ before piece after, text = before ++ piece ++ after ∧
    List.Forall₂ (fun a b => Text.sameLetter a b = true) word.toList piece

theorem exists_name_of_matchAt (h : (wordAssignment word).matchAt body offset = some m) :
    ∃ text, m.group? body "name" = some text ∧ text <+: body.drop offset ∧
      ContainsWord word text := by
  obtain ⟨r', ⟨_, ⟨_, rfl⟩, r₁, ⟨last, hname, rfl⟩, hrest⟩, rfl⟩ := exists_reaches_of_matchAt h
  obtain ⟨r₂, hbefore, r₃, hword, hafter⟩ := hname
  obtain ⟨before, _, hbefore⟩ := exists_between_of_reaches_many hbefore
  obtain ⟨piece, hpiece, hword⟩ := exists_between_of_reaches_chain hword
  obtain ⟨after, _, hafter⟩ := exists_between_of_reaches_many hafter
  have hwhole := (hbefore.trans hword).trans hafter
  refine ⟨before ++ piece ++ after, ?_, ⟨last.ahead, hwhole.ahead.symm⟩, before, piece, after, rfl,
    hpiece⟩
  have hgroups : r'.groups = ("name", ⟨offset, last.offset⟩) :: last.groups :=
    groups_eq_of_reaches rfl hrest
  rw [Match.group?, hgroups, List.lookup_cons_self, Option.map_some, Option.some_inj]
  exact hwhole.slice_eq rfl

theorem AssignsAt.containsWord (h : AssignsAt body word offset name) :
    ContainsWord word name.toList ∧ name.toList <+: body.drop offset := by
  obtain ⟨m, hat, hname⟩ := h.assigned
  obtain ⟨text, htext, hprefix, hcontains⟩ := exists_name_of_matchAt hat
  obtain rfl : text = name.toList := Option.some.inj (htext.symm.trans hname)
  exact ⟨hcontains, hprefix⟩

theorem lt_length_of_matchAt (h : (wordAssignment word).matchAt body offset = some m) :
    offset < body.length := by
  obtain ⟨r', ⟨_, ⟨_, rfl⟩, r₁, hname, r₂, hindexes, r₃, hblanks, r₄, hsymbol, r₅, hsign, _, rfl⟩, _⟩ :=
    exists_reaches_of_matchAt h
  obtain ⟨_, hname⟩ := exists_between_of_reaches hname
  obtain ⟨_, hindexes⟩ := exists_between_of_reaches hindexes
  obtain ⟨_, hblanks⟩ := exists_between_of_reaches hblanks
  obtain ⟨_, hsymbol⟩ := exists_between_of_reaches hsymbol
  have hsign := between_of_reaches_chars hsign
  exact lt_length_of_between ((((hname.trans hindexes).trans hblanks).trans hsymbol).trans hsign)
    (by simp)

theorem comesUpon_iff : ComesUpon body word name ↔
    ∃ m ∈ (wordAssignment word).findAll body, m.group? body "name" = some name.toList ∧
      Source.declaresLocally body m.start (some name.toList) = false := by
  constructor
  · rintro ⟨offset, ⟨⟨m, hat, hname⟩, hlocal⟩, hfree⟩
    obtain rfl := start_of_matchAt hat
    exact ⟨m, mem_findAll_iff.mpr ⟨hat, lt_length_of_matchAt hat, hfree⟩, hname, hlocal⟩
  · rintro ⟨m, hm, hname, hlocal⟩
    exact ⟨m.start, ⟨⟨m, matchAt_of_mem_findAll hm, hname⟩, hlocal⟩,
      not_passesOver_of_mem_findAll hm⟩

/-! ## The name added for a word -/

variable {listed : List String}

theorem comesUpon_of_newName? (h : newName? body listed (wordAssignment word) = some name) :
    ComesUpon body word name ∧ name ∉ listed := by
  obtain ⟨m, hm, hname⟩ := List.exists_of_findSome?_eq_some h
  obtain ⟨text, htext, _, _⟩ := exists_name_of_matchAt (matchAt_of_mem_findAll hm)
  simp only [htext, Option.getD_some] at hname
  split_ifs at hname with hold
  obtain rfl := Option.some.inj hname
  rw [Bool.or_eq_true, not_or, List.contains_iff_mem, Bool.not_eq_true] at hold
  exact ⟨comesUpon_iff.mpr ⟨m, hm, by simpa using htext, by simpa using hold.2⟩, hold.1⟩

theorem mem_listed_of_newName? (h : newName? body listed (wordAssignment word) = none)
    (hname : ComesUpon body word name) : name ∈ listed := by
  obtain ⟨m, hm, hgroup, hlocal⟩ := comesUpon_iff.mp hname
  have hnone := List.findSome?_eq_none_iff.mp h m hm
  simp only [hgroup, Option.getD_some, hlocal, Bool.or_false, String.ofList_toList] at hnone
  split_ifs at hnone with hold
  exact List.contains_iff_mem.mp hold

/-! ## The list through all words -/

def listFor (body : List Char) (listed : List String) (word : String) : List String :=
  match newName? body listed (wordAssignment word) with
  | some name => listed ++ [name]
  | none => listed

/-- What follows the declared names after some words: at most one name for each word, each come upon
by the scan for its word. No name is there twice, and every name come upon is listed, unless another
one is listed for its word. -/
structure Further (body : List Char) (declared words further : List String) : Prop where
  added : ∃ chosen, chosen.Sublist words ∧ List.Forall₂ (ComesUpon body) chosen further ∧
    ∀ word ∈ words, ∀ name, ComesUpon body word name → name ∈ declared ++ further ∨ word ∈ chosen
  nodup : declared.Nodup → (declared ++ further).Nodup

variable {declared words further : List String}

theorem Further.listFor (h : Further body declared words further) (word : String) :
    ∃ further', listFor body (declared ++ further) word = declared ++ further' ∧
      Further body declared (words ++ [word]) further' := by
  obtain ⟨⟨chosen, hsublist, hchosen, hcomplete⟩, hnodup⟩ := h
  unfold CriticalState.listFor
  cases hnew : newName? body (declared ++ further) (wordAssignment word) with
  | none =>
      refine ⟨further, rfl, ⟨chosen, hsublist.trans (List.sublist_append_left _ _), hchosen, ?_⟩,
        hnodup⟩
      intro other hother name hname
      rcases List.mem_append.mp hother with hother | hother
      · exact hcomplete other hother name hname
      · rw [List.mem_singleton.mp hother] at hname
        exact Or.inl (mem_listed_of_newName? hnew hname)
  | some new =>
      obtain ⟨hnewName, hfresh⟩ := comesUpon_of_newName? hnew
      refine ⟨further ++ [new], List.append_assoc _ _ _, ⟨chosen ++ [word],
        hsublist.append (List.Sublist.refl _), List.rel_append hchosen (.cons hnewName .nil), ?_⟩,
        ?_⟩
      · intro other hother name hname
        rw [← List.append_assoc]
        rcases List.mem_append.mp hother with hother | hother
        · exact (hcomplete other hother name hname).imp (List.mem_append_left _)
            (List.mem_append_left _)
        · exact Or.inr (List.mem_append_right _ hother)
      · intro hdeclared
        rw [← List.append_assoc, List.nodup_append]
        refine ⟨hnodup hdeclared, List.pairwise_singleton _ _, ?_⟩
        rintro a ha b hb rfl
        rw [List.mem_singleton.mp hb] at ha
        exact hfresh ha

theorem Further.foldl_listFor (h : Further body declared words further) (rest : List String) :
    ∃ further', rest.foldl (CriticalState.listFor body) (declared ++ further) =
      declared ++ further' ∧ Further body declared (words ++ rest) further' := by
  -- `Further` is carried along with the words gone through so far.
  induction rest generalizing words further with
  | nil => exact ⟨further, rfl, by simpa using h⟩
  | cons word rest ih =>
      obtain ⟨further₁, hstep, hfurther₁⟩ := h.listFor word
      obtain ⟨further', hrest, hfurther'⟩ := ih hfurther₁
      refine ⟨further', ?_, by simpa using hfurther'⟩
      rw [List.foldl_cons, hstep, hrest]

theorem modifiedNames_eq_append (body : List Char) (critical : List String) :
    ∃ further, modifiedNames body critical =
        (critical.filter fun name => writes body name.toList) ++ further ∧
      Further body (critical.filter fun name => writes body name.toList) vocabulary further := by
  have hempty : ∀ declared, Further body declared [] [] := by
    intro declared
    exact ⟨⟨[], List.Sublist.refl _, .nil, by simp⟩, by simp⟩
  obtain ⟨further, hfold, hfurther⟩ :=
    (hempty (critical.filter fun name => writes body name.toList)).foldl_listFor vocabulary
  refine ⟨further, ?_, hfurther⟩
  rw [List.append_nil] at hfold
  rw [← hfold, modifiedNames, wordAssignments, List.foldl_map]
  rfl

/-! ## The detector -/

variable {c : ContractDecl} {f : FunctionDecl} {found : Finding}

def declaredWrites (c : ContractDecl) (f : FunctionDecl) : List String :=
  (c.stateVariables.map (·.name)).filter fun name =>
    isCritical name && writes f.bodyText name.toList

theorem modifiedNames_criticalNames (c : ContractDecl) (f : FunctionDecl) :
    ∃ further, modifiedNames f.bodyText (criticalNames c.stateVariables) =
        declaredWrites c f ++ further ∧
      Further f.bodyText (declaredWrites c f) vocabulary further := by
  have hdeclared : (criticalNames c.stateVariables).filter
      (fun name => writes f.bodyText name.toList) = declaredWrites c f := by
    rw [criticalNames, declaredWrites, List.filter_filter]
    exact List.filter_congr fun _ _ => Bool.and_comm _ _
  rw [← hdeclared]
  exact modifiedNames_eq_append f.bodyText (criticalNames c.stateVariables)

def WritesCritical (c : ContractDecl) (f : FunctionDecl) : Prop :=
  (∃ v ∈ c.stateVariables, isCritical v.name = true ∧ writes f.bodyText v.name.toList = true) ∨
    ∃ word ∈ vocabulary, ∃ name, ComesUpon f.bodyText word name

theorem modifiedNames_ne_nil_iff : modifiedNames f.bodyText (criticalNames c.stateVariables) ≠ [] ↔
    WritesCritical c f := by
  obtain ⟨further, hnames, ⟨chosen, hsublist, hchosen, hcomplete⟩, _⟩ :=
    modifiedNames_criticalNames c f
  have hdeclared : declaredWrites c f ≠ [] ↔
      ∃ v ∈ c.stateVariables, isCritical v.name = true ∧ writes f.bodyText v.name.toList = true := by
    simp [declaredWrites]
  rw [hnames, WritesCritical, ← hdeclared]
  constructor
  · intro hne
    by_cases hnil : declaredWrites c f = []
    · rw [hnil, List.nil_append] at hne
      cases hchosen with
      | nil => exact absurd rfl hne
      | cons hfirst _ => exact Or.inr ⟨_, hsublist.subset List.mem_cons_self, _, hfirst⟩
    · exact Or.inl hnil
  · rintro (hne | ⟨word, hword, name, hname⟩)
    · exact List.append_ne_nil_of_left_ne_nil hne _
    · rcases hcomplete word hword name hname with hlisted | hlisted
      · exact List.ne_nil_of_mem hlisted
      · have hfurther : further ≠ [] := by
          intro hnil
          rw [hnil, List.forall₂_nil_right_iff] at hchosen
          rw [hchosen] at hlisted
          cases hlisted
        exact List.append_ne_nil_of_right_ne_nil _ hfurther

/-- A function that anyone can call, that may write state and is no constructor, that writes critical
state, and that does not restrict its callers or else has parameters and checks no condition. -/
structure Reportable (c : ContractDecl) (f : FunctionDecl) : Prop where
  entry : f.visibility = .public ∨ f.visibility = .external
  mutating : f.mutability ≠ .view ∧ f.mutability ≠ .pure
  named : f.name ≠ "" ∧ f.name ≠ "constructor"
  writes : WritesCritical c f
  weak : Authorization.restrictsCallers f.modifiers f.bodyText = false ∨
    Authorization.restrictsCallers f.modifiers f.bodyText = true ∧
      validatesInput f.bodyText = false ∧ f.parameters ≠ []

/-- The finding on a function: critical if its callers are not restricted and medium if they are,
placed at the function, and with the written names as evidence, the declared ones first. -/
structure Reports (c : ContractDecl) (f : FunctionDecl) (found : Finding) : Prop where
  severity : found.severity =
    if Authorization.restrictsCallers f.modifiers f.bodyText then .medium else .critical
  contract : found.contractName = c.name
  function : found.functionName = some f.name
  line : found.lineNumber = some f.lineStart
  evidence : ∃ further,
    found.evidence.get? "modified_variables" = some (.texts (declaredWrites c f ++ further)) ∧
      Further f.bodyText (declaredWrites c f) vocabulary further ∧
      ((c.stateVariables.map (·.name)).Nodup → (declaredWrites c f ++ further).Nodup)

theorem isOpen_iff (f : FunctionDecl) :
    (f.isEntryPoint && f.isStateMutating && !f.isConstructor) = true ↔
      (f.visibility = .public ∨ f.visibility = .external) ∧
        (f.mutability ≠ .view ∧ f.mutability ≠ .pure) ∧ f.name ≠ "" ∧ f.name ≠ "constructor" := by
  simp only [FunctionDecl.isEntryPoint, FunctionDecl.isStateMutating, FunctionDecl.isConstructor,
    Bool.and_eq_true, Bool.or_eq_true, beq_iff_eq, Bool.not_eq_true', Bool.or_eq_false_iff,
    beq_eq_false_iff_ne, and_assoc]

theorem evidence_of_get? {evidence : Json.Members}
    (h : evidence.get? "modified_variables" =
      some (.texts (modifiedNames f.bodyText (criticalNames c.stateVariables)))) :
    ∃ further,
      evidence.get? "modified_variables" = some (.texts (declaredWrites c f ++ further)) ∧
        Further f.bodyText (declaredWrites c f) vocabulary further ∧
        ((c.stateVariables.map (·.name)).Nodup → (declaredWrites c f ++ further).Nodup) := by
  obtain ⟨further, hnames, hfurther⟩ := modifiedNames_criticalNames c f
  rw [hnames] at h
  exact ⟨further, h, hfurther, fun hnodup => hfurther.nodup (hnodup.filter _)⟩

theorem reportable_of_checkFunction
    (h : checkFunction c (criticalNames c.stateVariables) f = some found) :
    Reportable c f ∧ Reports c f found := by
  simp only [checkFunction] at h
  split_ifs at h with hopen hmodified hcallers hchecked
  · obtain ⟨hentry, hmutating, hnamed⟩ := (isOpen_iff f).mp hopen
    have hwrites := modifiedNames_ne_nil_iff.mp (mt List.isEmpty_iff.mpr hmodified)
    have hfree := (Bool.not_eq_true' _).mp hcallers
    cases h
    refine ⟨⟨hentry, hmutating, hnamed, hwrites, Or.inl hfree⟩, ?_, rfl, rfl, rfl, ?_⟩
    · rw [hfree]
      rfl
    · exact evidence_of_get? rfl
  · obtain ⟨hentry, hmutating, hnamed⟩ := (isOpen_iff f).mp hopen
    have hwrites := modifiedNames_ne_nil_iff.mp (mt List.isEmpty_iff.mpr hmodified)
    have hrestricted : Authorization.restrictsCallers f.modifiers f.bodyText = true := by
      simpa using hcallers
    have hunchecked : validatesInput f.bodyText = false ∧ f.parameters ≠ [] := by
      simpa using hchecked
    cases h
    refine ⟨⟨hentry, hmutating, hnamed, hwrites, Or.inr ⟨hrestricted, hunchecked⟩⟩, ?_, rfl, rfl,
      rfl, ?_⟩
    · rw [hrestricted]
      rfl
    · exact evidence_of_get? rfl

theorem not_reportable_of_checkFunction
    (h : checkFunction c (criticalNames c.stateVariables) f = none) : ¬ Reportable c f := by
  rintro ⟨hentry, hmutating, hnamed, hwrites, hweak⟩
  have hopen := (isOpen_iff f).mpr ⟨hentry, hmutating, hnamed⟩
  have hmodified : (modifiedNames f.bodyText (criticalNames c.stateVariables)).isEmpty = false :=
    List.isEmpty_eq_false_iff.mpr (modifiedNames_ne_nil_iff.mpr hwrites)
  rcases hweak with hfree | ⟨hrestricted, hunchecked, hparameters⟩
  · simp [checkFunction, hopen, hmodified, hfree] at h
  · simp [checkFunction, hopen, hmodified, hrestricted, hunchecked, hparameters] at h

theorem reportable_iff (c : ContractDecl) (f : FunctionDecl) : Reportable c f ↔
    (checkFunction c (criticalNames c.stateVariables) f).isSome = true := by
  cases h : checkFunction c (criticalNames c.stateVariables) f with
  | none => simpa using not_reportable_of_checkFunction h
  | some found => simpa using (reportable_of_checkFunction h).1

instance (c : ContractDecl) : DecidablePred (Reportable c) :=
  fun f => decidable_of_iff _ (reportable_iff c f).symm

/-- The detector reports the reportable functions in order, each once. The names that count as written
besides the declared ones contain a word of the vocabulary, and stand where they are assigned. -/
theorem findings_report_critical_writes (u : SourceUnit) :
    detector.analyze u = .ok (findings u) ∧
    List.Forall₂ (fun p found => Reports p.1 p.2 found)
      (u.listedFunctions.filter fun p => Reportable p.1 p.2) (findings u) ∧
    ∀ body word offset name, AssignsAt body word offset name →
      ContainsWord word name.toList ∧ name.toList <+: body.drop offset := by
  refine ⟨rfl, ?_, fun _ _ _ _ h => h.containsWord⟩
  exact u.forall₂_reported (fun c => checkFunction c (criticalNames c.stateVariables))
    (fun _ _ => reportable_of_checkFunction) fun _ => not_reportable_of_checkFunction

/-- A name of storage that is assigned inside an index of a local name with the same word: the scan
passes over it, and the function is not reported. -/
theorem assigned_inside_index_not_reported :
    let f : FunctionDecl := {
      name := "f"
      body := some "\x7b uint256[] memory fees = load(); fees[feeCount += 1] = 5; \x7d" }
    let c : ContractDecl := { name := "C", functions := [f] }
    AssignsAt f.bodyText "fee" 39 "feeCount" ∧ (wordAssignment "fee").PassesOver f.bodyText 39 ∧
      detector.analyze { contracts := [c] } = .ok [] := by
  intro f c
  have hassigned : ((wordAssignment "fee").matchAt f.bodyText 39).bind
      (·.group? f.bodyText "name") = some "feeCount".toList := by decide +kernel
  obtain ⟨m, hm, hname⟩ := Option.bind_eq_some_iff.mp hassigned
  have hnone : findings { contracts := [c] } = [] := by
    have hlength : (findings { contracts := [c] }).length = 0 := by decide +kernel
    exact List.length_eq_zero_iff.mp hlength
  exact ⟨⟨⟨m, hm, hname⟩, by decide +kernel⟩, by decide +kernel, congrArg Except.ok hnone⟩

end SolidityAudit.CriticalState
