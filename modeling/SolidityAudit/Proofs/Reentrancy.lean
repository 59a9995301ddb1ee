import Mathlib.Data.List.DropRight
import Mathlib.Tactic.SplitIfs
import SolidityAudit.Proofs.CharClass
import SolidityAudit.Proofs.FunctionCheck
import SolidityAudit.Proofs.Pattern
import SolidityAudit.Reentrancy.Detector

/-!
# Calls before writes

The sites of a body stand by increasing offset, whatever the order in which the patterns found them, so
the first call that a write follows is the first call at all. A function is reported exactly if it is
open, unguarded and has a call before a write.
-/

namespace SolidityAudit.Reentrancy
open Pattern

/-! ## The order of sites -/

variable {site s : Site} {sites ordered : List Site}

def Increasing (sites : List Site) : Prop := sites.Pairwise fun a b => a.offset < b.offset

def siteAt? (sites : List Site) (offset : Nat) : Option Site :=
  sites.find? fun s => s.offset = offset

theorem siteAt?_cons (offset : Nat) :
    siteAt? (s :: sites) offset =
      (if s.offset = offset then some s else none).or (siteAt? sites offset) := by
  by_cases h : s.offset = offset <;> simp [siteAt?, h]

theorem Increasing.mem_iff (h : Increasing sites) : s ∈ sites ↔ siteAt? sites s.offset = some s := by
  induction sites with
  | nil => simp [siteAt?]
  | cons head rest ih =>
      obtain ⟨hhead, hrest⟩ := List.pairwise_cons.mp h
      rw [siteAt?_cons, List.mem_cons, ih hrest]
      split_ifs with heq
      · have hfree : siteAt? rest s.offset ≠ some s := by
          intro hs
          have := hhead s ((ih hrest).mpr hs)
          omega
        simp [hfree, eq_comm]
      · have hne : s ≠ head := fun h => heq (h ▸ rfl)
        simp [hne]

theorem siteAt?_eq_none_of_lt {offset : Nat} (h : ∀ t ∈ sites, offset < t.offset) :
    siteAt? sites offset = none := by
  simp only [siteAt?, List.find?_eq_none, decide_eq_true_eq]
  intro t ht
  exact Nat.ne_of_gt (h t ht)

theorem siteAt?_insertSite (h : Increasing sites) (site : Site) (offset : Nat) :
    siteAt? (insertSite site sites) offset =
      (siteAt? sites offset).or (if site.offset = offset then some site else none) := by
  induction sites with
  | nil => simp [insertSite, siteAt?]
  | cons head rest ih =>
      obtain ⟨hhead, hrest⟩ := List.pairwise_cons.mp h
      unfold insertSite
      by_cases hlt : site.offset < head.offset
      · rw [if_pos hlt, siteAt?_cons]
        by_cases hat : site.offset = offset
        · have hnone : siteAt? (head :: rest) offset = none := by
            apply siteAt?_eq_none_of_lt
            intro t ht
            rcases List.mem_cons.mp ht with rfl | ht
            · omega
            · have := hhead t ht
              omega
          simp [hat, hnone]
        · simp [hat]
      · by_cases heq : site.offset = head.offset
        · rw [if_neg hlt, if_pos heq, siteAt?_cons, heq]
          by_cases hat : head.offset = offset <;> simp [hat]
        · rw [if_neg hlt, if_neg heq, siteAt?_cons, ih hrest, siteAt?_cons, Option.or_assoc]

theorem mem_of_mem_insertSite (h : s ∈ insertSite site sites) : s = site ∨ s ∈ sites := by
  induction sites with
  | nil => exact Or.inl (List.mem_singleton.mp h)
  | cons head rest ih =>
      unfold insertSite at h
      split_ifs at h
      · exact List.mem_cons.mp h
      · exact Or.inr h
      · rcases List.mem_cons.mp h with rfl | hrest
        · exact Or.inr List.mem_cons_self
        · exact (ih hrest).imp_right (List.mem_cons_of_mem head)

theorem Increasing.insertSite (h : Increasing sites) (site : Site) :
    Increasing (insertSite site sites) := by
  induction sites with
  | nil => exact List.pairwise_singleton _ _
  | cons head rest ih =>
      obtain ⟨hhead, hrest⟩ := List.pairwise_cons.mp h
      unfold Reentrancy.insertSite
      split_ifs with hlt heq
      · refine List.pairwise_cons.mpr ⟨?_, h⟩
        intro t ht
        rcases List.mem_cons.mp ht with rfl | ht
        · exact hlt
        · exact Nat.lt_trans hlt (hhead t ht)
      · exact h
      · refine List.pairwise_cons.mpr ⟨?_, ih hrest⟩
        intro t ht
        rcases mem_of_mem_insertSite ht with rfl | ht
        · omega
        · exact hhead t ht

theorem foldl_insertSite (h : Increasing ordered) :
    Increasing (sites.foldl (fun ordered site => insertSite site ordered) ordered) ∧
      ∀ offset, siteAt? (sites.foldl (fun ordered site => insertSite site ordered) ordered) offset =
        (siteAt? ordered offset).or (siteAt? sites offset) := by
  induction sites generalizing ordered with
  | nil => exact ⟨h, by simp [siteAt?]⟩
  | cons site rest ih =>
      obtain ⟨hincreasing, hat⟩ := ih (h.insertSite site)
      refine ⟨hincreasing, ?_⟩
      intro offset
      rw [List.foldl_cons, hat, siteAt?_insertSite h, siteAt?_cons, Option.or_assoc]

theorem increasing_orderSites (sites : List Site) : Increasing (orderSites sites) :=
  (foldl_insertSite List.Pairwise.nil).1

/-- Of the sites with one offset the first is kept. -/
theorem mem_orderSites_iff : s ∈ orderSites sites ↔ siteAt? sites s.offset = some s := by
  have hat : siteAt? (orderSites sites) s.offset = siteAt? sites s.offset :=
    (foldl_insertSite List.Pairwise.nil).2 s.offset
  rw [(increasing_orderSites sites).mem_iff, hat]

theorem exists_mem_orderSites_iff {offset : Nat} :
    (∃ s ∈ orderSites sites, s.offset = offset) ↔ ∃ s ∈ sites, s.offset = offset := by
  constructor
  · rintro ⟨s, hs, hoffset⟩
    exact ⟨s, List.mem_of_find?_eq_some (mem_orderSites_iff.mp hs), hoffset⟩
  · rintro ⟨s, hs, rfl⟩
    have hsome : (siteAt? sites s.offset).isSome = true :=
      List.find?_isSome.mpr ⟨s, hs, decide_eq_true rfl⟩
    obtain ⟨first, hfirst⟩ := Option.isSome_iff_exists.mp hsome
    have hoffset : first.offset = s.offset := by simpa using List.find?_some hfirst
    exact ⟨first, mem_orderSites_iff.mpr (hoffset ▸ hfirst), hoffset⟩

/-- Where no two sites share an offset, all of them are kept. -/
theorem mem_orderSites_of_unique
    (h : ∀ s ∈ sites, ∀ t ∈ sites, s.offset = t.offset → s = t) :
    s ∈ orderSites sites ↔ s ∈ sites := by
  constructor
  · intro hs
    exact List.mem_of_find?_eq_some (mem_orderSites_iff.mp hs)
  · intro hs
    obtain ⟨first, hfirst, hoffset⟩ := exists_mem_orderSites_iff.mpr ⟨s, hs, rfl⟩
    have hmem := List.mem_of_find?_eq_some (mem_orderSites_iff.mp hfirst)
    rwa [h s hs first hmem hoffset.symm]

/-- A site that takes the place of an equal one is as good as left out. -/
theorem replaceSite_eq_insertSite (h : ∀ t ∈ sites, site.offset = t.offset → site = t) :
    replaceSite site sites = insertSite site sites := by
  induction sites with
  | nil => rfl
  | cons head rest ih =>
      obtain ⟨hhead, hrest⟩ := List.forall_mem_cons.mp h
      unfold replaceSite insertSite
      split_ifs with hlt heq
      · rfl
      · rw [hhead heq]
      · rw [ih hrest]

theorem foldl_replaceSite
    (h : ∀ s ∈ ordered ++ sites, ∀ t ∈ ordered ++ sites, s.offset = t.offset → s = t) :
    sites.foldl (fun ordered site => replaceSite site ordered) ordered =
      sites.foldl (fun ordered site => insertSite site ordered) ordered := by
  induction sites generalizing ordered with
  | nil => rfl
  | cons site rest ih =>
      have hsite : site ∈ ordered ++ site :: rest :=
        List.mem_append_right ordered List.mem_cons_self
      have hfirst : replaceSite site ordered = insertSite site ordered :=
        replaceSite_eq_insertSite fun t ht => h site hsite t (List.mem_append_left _ ht)
      have hsub : ∀ s ∈ insertSite site ordered ++ rest, s ∈ ordered ++ site :: rest := by
        intro s hs
        rcases List.mem_append.mp hs with hs | hs
        · rcases mem_of_mem_insertSite hs with rfl | hs
          · exact hsite
          · exact List.mem_append_left _ hs
        · exact List.mem_append_right ordered (List.mem_cons_of_mem site hs)
      rw [List.foldl_cons, List.foldl_cons, hfirst]
      exact ih fun s hs t ht => h s (hsub s hs) t (hsub t ht)

/-! ## Calls -/

variable {body : List Char} {m m' : Match}

theorem externalCallPatterns_beginWith :
    ∀ p ∈ externalCallPatterns, BeginsWith (· == '.') p := by
  simp only [externalCallPatterns, List.forall_mem_cons, List.not_mem_nil, false_imp_iff,
    implies_true, and_true]
  exact ⟨.seq (.lit rfl rfl), .seq (.lit rfl rfl)⟩

theorem exists_word_of_mem_findAll {words : List String} {q : Pattern}
    (h : m ∈ (seq (lit ".") (seq (litOf words) q)).findAll body) :
    ∃ w ∈ words, ∃ rest, body.drop m.start = '.' :: w.toList ++ rest := by
  obtain ⟨r', ⟨r₁, hdot, r₂, hword, _⟩, _⟩ := exists_reaches_of_mem_findAll h
  obtain ⟨w, hw, hbetween⟩ := exists_between_of_reaches_litOf hword
  have hahead := ((between_of_reaches_chars hdot).trans hbetween).ahead
  exact ⟨w, hw, r₂.ahead, hahead⟩

/-- The two patterns for calls ask for different words after the dot. -/
theorem start_ne_of_mem_findAll {q q' : Pattern}
    (h : m ∈ (seq (lit ".") (seq (litOf ["call", "delegatecall", "staticcall"]) q)).findAll body)
    (h' : m' ∈ (seq (lit ".") (seq (litOf ["send", "transfer"]) q')).findAll body) :
    m.start ≠ m'.start := by
  intro hstart
  obtain ⟨w, hw, rest, heq⟩ := exists_word_of_mem_findAll h
  obtain ⟨w', hw', rest', heq'⟩ := exists_word_of_mem_findAll h'
  rw [hstart, heq'] at heq
  simp only [List.mem_cons, List.not_mem_nil, or_false] at hw hw'
  rcases hw with rfl | rfl | rfl <;> rcases hw' with rfl | rfl <;> simp at heq

theorem mem_callSites_iff : s ∈ callSites body ↔
    ∃ p ∈ externalCallPatterns, ∃ m ∈ p.findAll body, s = ⟨m.start, m.text body⟩ := by
  simp [callSites, List.mem_flatMap, eq_comm]

/-- No two matches of the patterns for calls begin at one offset. -/
theorem callSites_unique (body : List Char) :
    ∀ s ∈ callSites body, ∀ t ∈ callSites body, s.offset = t.offset → s = t := by
  intro s hs t ht hoffset
  obtain ⟨p, hp, m, hm, rfl⟩ := mem_callSites_iff.mp hs
  obtain ⟨p', hp', m', hm', rfl⟩ := mem_callSites_iff.mp ht
  have hstart : m.start = m'.start := hoffset
  suffices hsame : p = p' by
    subst hsame
    have hmatch := matchAt_of_mem_findAll hm
    rw [hstart, matchAt_of_mem_findAll hm'] at hmatch
    rw [Option.some.inj hmatch]
  simp only [externalCallPatterns, List.mem_cons, List.not_mem_nil, or_false] at hp hp'
  rcases hp with rfl | rfl <;> rcases hp' with rfl | rfl
  · rfl
  · exact absurd hstart (start_ne_of_mem_findAll hm hm')
  · exact absurd hstart.symm (start_ne_of_mem_findAll hm' hm)
  · rfl

/-- It does not matter that the last site with an offset is kept and not the first. -/
theorem externalCalls_eq_orderSites (body : List Char) :
    externalCalls body = orderSites (callSites body) :=
  foldl_replaceSite (by simpa using callSites_unique body)

/-- Every match of a pattern for calls is a site, and there are no others. -/
theorem mem_externalCalls_iff : s ∈ externalCalls body ↔
    ∃ p ∈ externalCallPatterns, ∃ m ∈ p.findAll body, s = ⟨m.start, m.text body⟩ := by
  rw [externalCalls_eq_orderSites, mem_orderSites_of_unique (callSites_unique body),
    mem_callSites_iff]

/-! ## Writes -/

theorem isBlank_eq_false_of_isIdentStart {c : Char} (h : Text.isIdentStart c = true) :
    Text.isBlank c = false :=
  Text.isBlank_eq_false_of_isWord (Text.isWord_of_isIdentStart h)

theorem assignable_beginsWith : BeginsWith Text.isIdentStart assignable := by
  apply BeginsWith.seq_wordEdge
  apply BeginsWith.seq
  apply BeginsWith.group
  apply BeginsWith.seq
  apply BeginsWith.one
  intro c hc
  exact hc

theorem stateChangePatterns_beginWith :
    ∀ p ∈ stateChangePatterns, BeginsWith (!Text.isBlank ·) p := by
  have hassignable : BeginsWith (!Text.isBlank ·) assignable := by
    apply assignable_beginsWith.imp
    intro c hc
    rw [isBlank_eq_false_of_isIdentStart hc]
    rfl
  have hstep : ∀ s ∈ ["++", "--"], ∃ c cs, s.toList = c :: cs ∧ (!Text.isBlank c) = true := by
    simp only [List.forall_mem_cons, List.not_mem_nil, false_imp_iff, implies_true, and_true]
    exact ⟨⟨'+', ['+'], rfl, by decide⟩, ⟨'-', ['-'], rfl, by decide⟩⟩
  simp only [stateChangePatterns, List.forall_mem_cons, List.not_mem_nil, false_imp_iff,
    implies_true, and_true]
  exact ⟨.seq hassignable, .seq hassignable, .seq hassignable, .seq (.litOf hstep),
    .seq_wordEdge (.seq (.lit rfl (by decide))), .seq hassignable⟩

theorem strip_prefix_of_begins {c : Char} {cs : List Char} (h : Text.isBlank c = false) :
    Text.strip (c :: cs) <+: c :: cs ∧ Text.strip (c :: cs) ≠ [] := by
  have hstrip : Text.strip (c :: cs) = (c :: cs).rdropWhile Text.isBlank := by
    have hkept : (c :: cs).dropWhile Text.isBlank = c :: cs := by simp [h]
    rw [Text.strip, hkept, List.rdropWhile]
  rw [hstrip]
  refine ⟨List.rdropWhile_prefix _ _, ?_⟩
  rw [ne_eq, List.rdropWhile_eq_nil_iff]
  intro hall
  have hc := hall c List.mem_cons_self
  rw [h] at hc
  cases hc

/-- At an offset stands a write exactly if a pattern for writes matches there and the target is not
presumed to be local. -/
theorem exists_mem_stateChanges_iff {offset : Nat} :
    (∃ s ∈ stateChanges body, s.offset = offset) ↔
      ∃ p ∈ stateChangePatterns, ∃ m ∈ p.findAll body, m.start = offset ∧
        Source.declaresLocally body offset (m.group? body "target") = false := by
  unfold stateChanges
  rw [exists_mem_orderSites_iff]
  simp only [List.mem_flatMap, List.mem_filterMap, changeSite?]
  constructor
  · rintro ⟨s, ⟨p, hp, m, hm, hs⟩, rfl⟩
    split_ifs at hs with hlocal
    cases hs
    exact ⟨p, hp, m, hm, rfl, Bool.eq_false_iff.mpr hlocal⟩
  · rintro ⟨p, hp, m, hm, rfl, hlocal⟩
    exact ⟨_, ⟨p, hp, m, hm, by rw [hlocal]; rfl⟩, rfl⟩

/-! ## Texts of sites -/

structure StandIn (body : List Char) (sites : List Site) : Prop where
  increasing : Increasing sites
  texts : ∀ s ∈ sites, s.text ≠ [] ∧ s.text <+: body.drop s.offset

theorem text_prefix_drop (m : Match) (body : List Char) : m.text body <+: body.drop m.start :=
  List.take_prefix _ _

theorem externalCalls_standIn (body : List Char) : StandIn body (externalCalls body) where
  increasing := externalCalls_eq_orderSites body ▸ increasing_orderSites _
  texts s hs := by
    obtain ⟨p, hp, m, hm, rfl⟩ := mem_externalCalls_iff.mp hs
    obtain ⟨c, piece, _, htext⟩ := (externalCallPatterns_beginWith p hp).text_eq hm
    exact ⟨by simp [htext], text_prefix_drop m body⟩

theorem stateChanges_standIn (body : List Char) : StandIn body (stateChanges body) where
  increasing := increasing_orderSites _
  texts s hs := by
    have hfound := List.mem_of_find?_eq_some (mem_orderSites_iff.mp hs)
    obtain ⟨p, hp, hsite⟩ := List.mem_flatMap.mp hfound
    obtain ⟨m, hm, hchange⟩ := List.mem_filterMap.mp hsite
    unfold changeSite? at hchange
    split_ifs at hchange
    cases hchange
    obtain ⟨c, piece, hc, htext⟩ := (stateChangePatterns_beginWith p hp).text_eq hm
    obtain ⟨hstarts, hne⟩ := @strip_prefix_of_begins c piece (by simpa using hc)
    rw [← htext] at hstarts hne
    exact ⟨hne, hstarts.trans (text_prefix_drop m body)⟩

/-! ## The reported pair -/

/-- A call and a write after it, such that no call stands before the call and no write between them. -/
structure FirstPair (calls changes : List Site) (call change : Site) : Prop where
  first : calls.head? = some call
  after : call.offset < change.offset
  mem : change ∈ changes
  least : ∀ other ∈ changes, call.offset < other.offset → change.offset ≤ other.offset

theorem find?_after_least {calls changes : List Site} (h : Increasing changes) {call change : Site}
    (hfirst : calls.head? = some call)
    (hfind : changes.find? (fun c => call.offset < c.offset) = some change) :
    FirstPair calls changes call change := by
  obtain ⟨hafter, before, rest, rfl, hbefore⟩ := List.find?_eq_some_iff_append.mp hfind
  refine ⟨hfirst, by simpa using hafter, by simp, ?_⟩
  intro other hother hlt
  rcases List.mem_append.mp hother with hother | hother
  · have := hbefore other hother
    simp at this
    omega
  · rcases List.mem_cons.mp hother with rfl | hother
    · exact Nat.le_refl _
    · have hrest := (List.pairwise_append.mp h).2.1
      exact Nat.le_of_lt ((List.pairwise_cons.mp hrest).1 other hother)

theorem firstPair_of_violation? {call change : Site} (h : violation? body = some (call, change)) :
    FirstPair (externalCalls body) (stateChanges body) call change := by
  have hcalls := (externalCalls_standIn body).increasing
  have hchanges := (stateChanges_standIn body).increasing
  obtain ⟨before, call', rest, hsplit, hpair, hbefore⟩ := List.findSome?_eq_some_iff.mp h
  obtain ⟨change', hfind, hsame⟩ := Option.map_eq_some_iff.mp hpair
  obtain ⟨rfl, rfl⟩ := Prod.mk.inj hsame
  have hafter : call'.offset < change'.offset := by simpa using List.find?_some hfind
  have hfirst : before = [] := by
    rw [List.eq_nil_iff_forall_not_mem]
    intro earlier hearlier
    rw [hsplit] at hcalls
    have hlt := (List.pairwise_append.mp hcalls).2.2 earlier hearlier call' List.mem_cons_self
    have hnone := hbefore earlier hearlier
    rw [Option.map_eq_none_iff, List.find?_eq_none] at hnone
    have := hnone change' (List.mem_of_find?_eq_some hfind)
    simp at this
    omega
  apply find?_after_least hchanges _ hfind
  rw [hsplit, hfirst]
  rfl

theorem violation?_isSome_iff : (violation? body).isSome = true ↔
    ∃ call ∈ externalCalls body, ∃ change ∈ stateChanges body, call.offset < change.offset := by
  simp [violation?, List.findSome?_isSome_iff]

/-! ## The detector -/

/-- A function that anyone can call, that may write state, that no word or idiom guards, and in which
a call stands before a write. -/
structure Exposed (f : FunctionDecl) : Prop where
  entry : f.visibility = .public ∨ f.visibility = .external
  mutating : f.mutability ≠ .view ∧ f.mutability ≠ .pure
  unguarded : ∀ p ∈ guardPatterns, p.occursIn f.bodyText = false ∧
    ∀ modifier ∈ f.modifiers, p.occursIn modifier.toList = false
  order : ∃ call ∈ externalCalls f.bodyText, ∃ change ∈ stateChanges f.bodyText,
    call.offset < change.offset

theorem hasGuard_eq_false_iff (modifiers : List String) (body : List Char) :
    hasGuard modifiers body = false ↔ ∀ p ∈ guardPatterns, p.occursIn body = false ∧
      ∀ modifier ∈ modifiers, p.occursIn modifier.toList = false := by
  simp only [hasGuard, anyOccursIn, Bool.or_eq_false_iff, List.any_eq_false, Bool.not_eq_true]
  constructor
  · rintro ⟨hmodifiers, hbody⟩ p hp
    exact ⟨hbody p hp, fun modifier hm => hmodifiers modifier hm p hp⟩
  · intro h
    exact ⟨fun modifier hm p hp => (h p hp).2 modifier hm, fun p hp => (h p hp).1⟩

theorem exposed_iff (f : FunctionDecl) : Exposed f ↔
    (f.isEntryPoint && f.isStateMutating && !hasGuard f.modifiers f.bodyText) = true ∧
      (violation? f.bodyText).isSome = true := by
  rw [violation?_isSome_iff]
  simp only [FunctionDecl.isEntryPoint, FunctionDecl.isStateMutating, Bool.and_eq_true,
    Bool.or_eq_true, beq_iff_eq, Bool.not_eq_true', Bool.or_eq_false_iff, beq_eq_false_iff_ne,
    hasGuard_eq_false_iff]
  constructor
  · rintro ⟨hentry, hmutating, hunguarded, horder⟩
    exact ⟨⟨⟨hentry, hmutating⟩, hunguarded⟩, horder⟩
  · rintro ⟨⟨⟨hentry, hmutating⟩, hunguarded⟩, horder⟩
    exact ⟨hentry, hmutating, hunguarded, horder⟩

instance : DecidablePred Exposed := fun f => decidable_of_iff _ (exposed_iff f).symm

/-- The finding on an exposed function: critical, placed at the function, and with the first call and
the first write after it as evidence. -/
structure Reports (c : ContractDecl) (f : FunctionDecl) (found : Finding) : Prop where
  severity : found.severity = .critical
  contract : found.contractName = c.name
  function : found.functionName = some f.name
  line : found.lineNumber = some f.lineStart
  evidence : ∃ call change,
    FirstPair (externalCalls f.bodyText) (stateChanges f.bodyText) call change ∧
      found.evidence = [("external_call", .str (String.ofList call.text)),
        ("state_change", .str (String.ofList change.text)), ("pattern", .str "CEI violation")]

theorem exposed_of_checkFunction_eq_some {c : ContractDecl} {f : FunctionDecl} {found : Finding}
    (h : checkFunction c f = some found) : Exposed f ∧ Reports c f found := by
  unfold checkFunction at h
  split_ifs at h with hopen
  obtain ⟨⟨call, change⟩, hpair, rfl⟩ := Option.map_eq_some_iff.mp h
  refine ⟨(exposed_iff f).mpr ⟨hopen, Option.isSome_of_eq_some hpair⟩, ?_⟩
  exact ⟨rfl, rfl, rfl, rfl, call, change, firstPair_of_violation? hpair, rfl⟩

theorem not_exposed_of_checkFunction_eq_none {c : ContractDecl} {f : FunctionDecl}
    (h : checkFunction c f = none) : ¬ Exposed f := by
  intro hf
  obtain ⟨hopen, hpair⟩ := (exposed_iff f).mp hf
  rw [checkFunction, if_pos hopen, Option.map_eq_none_iff] at h
  rw [h] at hpair
  cases hpair

/-- The detector reports the exposed functions in order, each once; and the calls and writes of a body
are the matches of the patterns, by increasing offset. -/
theorem findings_report_exposed (u : SourceUnit) :
    detector.analyze u = .ok (findings u) ∧
    List.Forall₂ (fun p found => Reports p.1 p.2 found)
      (u.listedFunctions.filter fun p => Exposed p.2) (findings u) ∧
    ∀ body, StandIn body (externalCalls body) ∧ StandIn body (stateChanges body) ∧
      (∀ s, s ∈ externalCalls body ↔
        ∃ p ∈ externalCallPatterns, ∃ m ∈ p.findAll body, s = ⟨m.start, m.text body⟩) ∧
      ∀ offset, (∃ s ∈ stateChanges body, s.offset = offset) ↔
        ∃ p ∈ stateChangePatterns, ∃ m ∈ p.findAll body, m.start = offset ∧
          Source.declaresLocally body offset (m.group? body "target") = false := by
  refine ⟨rfl, ?_, fun body => ⟨externalCalls_standIn body, stateChanges_standIn body,
    fun _ => mem_externalCalls_iff, fun _ => exists_mem_stateChanges_iff⟩⟩
  exact u.forall₂_reported checkFunction (fun _ _ => exposed_of_checkFunction_eq_some)
    fun _ => not_exposed_of_checkFunction_eq_none

end SolidityAudit.Reentrancy
