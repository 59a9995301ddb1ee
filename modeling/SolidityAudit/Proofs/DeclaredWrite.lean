import SolidityAudit.Proofs.AssignmentSite

/-!
# Writes behind a declaration

A name stays declared: what is declared before an offset is declared before every later one, if the
offset does not cut a word in two. No write is found inside a word, so once a write is dropped since
its name is declared, all later writes to the name are dropped. At the offset of such a write no other
pattern finds a write to another name, and so no site is left there.
-/

namespace SolidityAudit
open Pattern Text

variable {members : Bool} {sign : List Char → Prop} {rest : List Char}

/-- Behind a name that is written, and blanks, stands neither a word nor a blank. -/
theorem Follows.exists_gap (hsign : IsSign sign) (h : Follows members sign rest) :
    ∃ gap c tail, rest = gap ++ c :: tail ∧ (∀ d ∈ gap, isBlank d = true) ∧ isBlank c = false ∧
      isWord c = false := by
  obtain ⟨accesses, gap, _, rfl, haccesses, hgap, hrest⟩ := h
  obtain ⟨c, tail, rfl, hword, hblank, _⟩ := hsign hrest
  exact haccesses.exists_gap hgap hblank hword

namespace Reentrancy

variable {p p' : Pattern} {body : List Char} {offset : Nat} {m m' : Match}

/-! ## Kinds of writes -/

/-- A write by a sign behind a name and its accesses. -/
def SignedWrite (p : Pattern) : Prop :=
  ∃ q sign, p = assignable.seq (blanks.seq q) ∧ q.isGroupless = true ∧ Announces q sign ∧
    ∀ {text}, sign text → ChangeSign text

theorem stateChangePatterns_cases (hp : p ∈ stateChangePatterns) :
    SignedWrite p ∨ p = prefixStep ∨ p = deletion := by
  simp only [stateChangePatterns, List.mem_cons, List.not_mem_nil, or_false] at hp
  rcases hp with rfl | rfl | rfl | rfl | rfl | rfl
  · exact Or.inl ⟨_, _, rfl, rfl, announces_assign, Or.inl⟩
  · exact Or.inl ⟨_, _, rfl, rfl, announces_compound, Or.inr ∘ Or.inl⟩
  · exact Or.inl ⟨_, _, rfl, rfl, announces_step, Or.inr ∘ Or.inr ∘ Or.inl⟩
  · exact Or.inr (Or.inl rfl)
  · exact Or.inr (Or.inr rfl)
  · exact Or.inl ⟨_, _, rfl, rfl, announces_element, Or.inr ∘ Or.inr ∘ Or.inr⟩

/-- The name that is remembered is the one that the accesses and the sign follow. -/
theorem SignedWrite.exists_target (hp : SignedWrite p) (h : p.matchAt body offset = some m) :
    ∃ target rest, m.group? body "target" = some target ∧ Source.IsName target ∧
      body.drop offset = target ++ rest ∧ Follows true ChangeSign rest := by
  obtain ⟨q, sign, rfl, hq, hannounces, hchange⟩ := hp
  obtain ⟨r', ⟨r₁, ⟨_, ⟨_, rfl⟩, _, ⟨_, hname, rfl⟩, haccesses⟩, hrest⟩, rfl⟩ :=
    exists_reaches_of_matchAt h
  obtain ⟨target, htarget, hstands, rfl⟩ := (reaches_iff_describes rfl).mp hname
  obtain ⟨rest, hahead⟩ := hstands
  have hfollows := (Announces.follows rfl describes_accesses_iff hannounces _).mp
    ⟨r', r₁, haccesses, hrest⟩
  change Follows true sign (Reading.advance _ target).ahead at hfollows
  rw [Reading.advance_ahead_of_eq hahead.symm] at hfollows
  refine ⟨target, rest, group?_eq_of_groups ⟨rest, hahead⟩ ?_, htarget, hahead.symm, ?_⟩
  · change r'.groups = _
    have hgroupless : (blanks.seq q).isGroupless = true := hq
    rw [groups_eq_of_reaches hgroupless hrest, groups_eq_of_reaches rfl haccesses]
    rfl
  · obtain ⟨accesses, gap, tail, htext, haccesses, hgap, hsign⟩ := hfollows
    exact ⟨accesses, gap, tail, htext, haccesses, hgap, hchange hsign⟩

/-! ## One target at an offset -/

theorem SignedWrite.not_prefixStep (hp : SignedWrite p) (h : p.matchAt body offset = some m) :
    prefixStep.matchAt body offset ≠ some m' := by
  intro h'
  obtain ⟨target, rest, _, hname, hahead, _⟩ := hp.exists_target h
  obtain ⟨r', hr', _⟩ := exists_reaches_of_matchAt h'
  exact not_reaches_prefixStep hname hahead hr'

theorem SignedWrite.not_deletion (hp : SignedWrite p) (h : p.matchAt body offset = some m) :
    deletion.matchAt body offset ≠ some m' := by
  intro h'
  obtain ⟨target, rest, _, hname, hahead, hfollows⟩ := hp.exists_target h
  obtain ⟨gap, c, tail, rfl, hgap, hblank, hword⟩ := hfollows.exists_gap changeSign_isSign
  obtain ⟨r', hr', _⟩ := exists_reaches_of_matchAt h'
  exact not_reaches_delete hname hgap hblank hword hahead hr'

theorem not_prefixStep_of_deletion (h : deletion.matchAt body offset = some m) :
    prefixStep.matchAt body offset ≠ some m' := by
  intro h'
  obtain ⟨_, ⟨_, ⟨_, rfl⟩, _, hdelete, _⟩, _⟩ := exists_reaches_of_matchAt h
  obtain ⟨r', hr', _⟩ := exists_reaches_of_matchAt h'
  have hname : Source.IsName "delete".toList := describes_identifier_iff.mpr
    ⟨'d', "elete".toList, rfl, by decide, List.all_eq_true.mp (by decide)⟩
  exact not_reaches_prefixStep hname (between_of_reaches_chars hdelete).ahead hr'

/-- All writes that are found at an offset are to one name. -/
theorem group?_target_unique (hp : p ∈ stateChangePatterns) (hp' : p' ∈ stateChangePatterns)
    (h : p.matchAt body offset = some m) (h' : p'.matchAt body offset = some m') :
    m.group? body "target" = m'.group? body "target" := by
  rcases stateChangePatterns_cases hp with hsigned | rfl | rfl <;>
    rcases stateChangePatterns_cases hp' with hsigned' | rfl | rfl
  · obtain ⟨target, rest, hgroup, hname, hahead, hfollows⟩ := hsigned.exists_target h
    obtain ⟨target', rest', hgroup', hname', hahead', hfollows'⟩ := hsigned'.exists_target h'
    obtain ⟨rfl, _⟩ := append_inj_of_stops hname.all_isWord hname'.all_isWord
      (hfollows.stops_isWord changeSign_isSign) (hfollows'.stops_isWord changeSign_isSign)
      (hahead.symm.trans hahead')
    rw [hgroup, hgroup']
  · exact absurd h' (hsigned.not_prefixStep h)
  · exact absurd h' (hsigned.not_deletion h)
  · exact absurd h (hsigned'.not_prefixStep h')
  · rw [Option.some.inj (h.symm.trans h')]
  · exact absurd h (not_prefixStep_of_deletion h')
  · exact absurd h (hsigned'.not_deletion h')
  · exact absurd h' (not_prefixStep_of_deletion h)
  · rw [Option.some.inj (h.symm.trans h')]

/-! ## Dropped writes -/

/-- No write is found inside a word. -/
theorem not_insideWord_of_matchAt (hp : p ∈ stateChangePatterns)
    (h : p.matchAt body offset = some m) : ¬ Source.InsideWord body offset := by
  have hedge : (Reading.start body offset).atWordEdge = true → ¬ Source.InsideWord body offset := by
    rintro hedge ⟨hbefore, hbehind⟩
    have hsame : (Reading.start body offset).atWordEdge = (true != true) :=
      congrArg₂ (· != ·) hbefore hbehind
    rw [hsame] at hedge
    cases hedge
  obtain ⟨r', hr', _⟩ := exists_reaches_of_matchAt h
  rcases stateChangePatterns_cases hp with ⟨q, sign, rfl, _⟩ | rfl | rfl
  · obtain ⟨_, ⟨_, ⟨hat, _⟩, _⟩, _⟩ := hr'
    exact hedge hat
  · obtain ⟨_, hstep, _⟩ := hr'
    obtain ⟨op, hop, rest, hahead⟩ := (announces_step _).mp ⟨_, hstep⟩
    rintro ⟨_, hbehind⟩
    change body.drop offset = op.toList ++ rest at hahead
    rw [hahead] at hbehind
    simp only [List.mem_cons, List.not_mem_nil, or_false] at hop
    rcases hop with rfl | rfl
    · cases hbehind
    · cases hbehind
  · obtain ⟨_, ⟨hat, _⟩, _⟩ := hr'
    exact hedge hat

def WritesTo (body name : List Char) (m : Match) : Prop :=
  (∃ p ∈ stateChangePatterns, m ∈ p.findAll body) ∧ m.group? body "target" = some name

/-- A name that is declared before an offset that does not fall inside a word is declared before every
later one. So all writes to a name behind one that is dropped since the name is declared are dropped
too, and none of them is left among the state changes. -/
theorem declared_stays_declared (body name : List Char) :
    (∀ offset offset', offset ≤ offset' → ¬ Source.InsideWord body offset →
      Source.declaredBefore body offset name = true →
        Source.declaredBefore body offset' name = true) ∧
    ∀ m m', WritesTo body name m → WritesTo body name m' → m.start ≤ m'.start →
      Source.declaredBefore body m.start name = true →
        Source.declaredBefore body m'.start name = true ∧ changeSite? body m' = none ∧
          ∀ s ∈ stateChanges body, s.offset ≠ m'.start := by
  refine ⟨fun _ _ hle hinside h => Source.declaredBefore_of_le hle hinside h, ?_⟩
  rintro m m' ⟨⟨p, hp, hm⟩, _⟩ ⟨⟨p', hp', hm'⟩, htarget⟩ hle hdeclared
  have hinside := not_insideWord_of_matchAt hp (matchAt_of_mem_findAll hm)
  have hlater := Source.declaredBefore_of_le hle hinside hdeclared
  have hlocal : Source.declaresLocally body m'.start (some name) = true := by
    rw [Source.declaresLocally, Option.any_some, hlater, Bool.or_true]
  refine ⟨hlater, ?_, fun s hs hoffset => ?_⟩
  · rw [changeSite?, htarget, if_pos hlocal]
  · obtain ⟨p'', hp'', m'', hm'', hstart, hkept⟩ := exists_mem_stateChanges_iff.mp ⟨s, hs, hoffset⟩
    have hat := matchAt_of_mem_findAll hm''
    rw [hstart] at hat
    rw [group?_target_unique hp'' hp' hat (matchAt_of_mem_findAll hm'), htarget, hlocal] at hkept
    cases hkept

/-- A local variable is assigned to and then deleted. -/
theorem declared_stays_declared_deleted :
    let body := "uint256 x = 1; x = 2; delete x;".toList
    (∃ m, WritesTo body "x".toList m ∧ m.start = 15) ∧
      Source.declaredBefore body 15 "x".toList = true ∧ ¬ Source.InsideWord body 15 ∧
      Source.declaredBefore body 31 "x".toList = true ∧
      ∃ m, WritesTo body "x".toList m ∧ m.start = 22 ∧ changeSite? body m = none ∧
        ∀ s ∈ stateChanges body, s.offset ≠ 22 := by
  intro body
  have hfound : ∀ {p : Pattern} {offset : Nat}, p ∈ stateChangePatterns →
      (p.findAll body).any (fun m => m.group? body "target" == some "x".toList &&
        m.start == offset) = true → ∃ m, WritesTo body "x".toList m ∧ m.start = offset := by
    intro p offset hp hany
    obtain ⟨m, hm, htarget⟩ := List.any_eq_true.mp hany
    rw [Bool.and_eq_true, beq_iff_eq, beq_iff_eq] at htarget
    exact ⟨m, ⟨⟨p, hp, hm⟩, htarget.1⟩, htarget.2⟩
  obtain ⟨m, hm, hstart⟩ := @hfound assignment 15 (by simp [stateChangePatterns]) (by decide +kernel)
  obtain ⟨m', hm', hstart'⟩ := @hfound deletion 22 (by simp [stateChangePatterns, deletion])
    (by decide +kernel)
  have hdeclared : Source.declaredBefore body 15 "x".toList = true := by decide +kernel
  have hinside : ¬ Source.InsideWord body 15 := by
    rintro ⟨hbefore, _⟩
    exact absurd hbefore (by decide +kernel)
  obtain ⟨hoffsets, hwrites⟩ := declared_stays_declared body "x".toList
  obtain ⟨_, hdropped, hnone⟩ := hwrites m m' hm hm' (by omega) (hstart ▸ hdeclared)
  rw [hstart'] at hnone
  exact ⟨⟨m, hm, hstart⟩, hdeclared, hinside, hoffsets 15 31 (by decide) hinside hdeclared, m', hm',
    hstart', hdropped, hnone⟩

end Reentrancy
end SolidityAudit
