import SolidityAudit.Proofs.Pattern

/-!
# The search loses no match

`Pattern.run` tries the ways to match one after another and bounds the repetitions by the length of the
text. Where each repeated piece reads at least one character this bound cuts nothing off, so a match is
found at every place from which `Reaches` leads on. A plain pattern, one without edges and remembered
stretches, leads on by the texts that it describes, whatever stands around them.
-/

namespace SolidityAudit.Pattern

variable {p : Pattern} {r r' : Reading} {text : List Char} {m : Match} {offset : Nat}

/-! ## Enough repetitions -/

def consumes : Pattern → Bool
  | one _ => true
  | seq p q => p.consumes || q.consumes
  | alt p q => p.consumes && q.consumes
  | group _ p => p.consumes
  | nothing | many _ | wordEdge | textEnd | notBefore _ => false

def isProductive : Pattern → Bool
  | seq p q | alt p q => p.isProductive && q.isProductive
  | many p => p.consumes && p.isProductive
  | group _ p => p.isProductive
  | nothing | one _ | wordEdge | textEnd | notBefore _ => true

theorem length_le_of_reaches (h : p.Reaches r r') : r'.ahead.length ≤ r.ahead.length := by
  obtain ⟨piece, hpiece⟩ := exists_between_of_reaches h
  rw [hpiece.ahead, List.length_append]
  omega

theorem length_lt_of_reaches (hp : p.consumes = true) (h : p.Reaches r r') :
    r'.ahead.length < r.ahead.length := by
  induction p generalizing r r' with
  | one accepts =>
      obtain ⟨c, rest, hahead, _, rfl⟩ := h
      rw [hahead]
      exact Nat.lt_succ_self _
  | seq p q ihp ihq =>
      obtain ⟨middle, hfirst, hsecond⟩ := h
      have hle := length_le_of_reaches hfirst
      have hle' := length_le_of_reaches hsecond
      rcases Bool.or_eq_true_iff.mp hp with hp | hq
      · have := ihp hp hfirst
        omega
      · have := ihq hq hsecond
        omega
  | alt p q ihp ihq =>
      obtain ⟨hp, hq⟩ := Bool.and_eq_true_iff.mp hp
      exact h.elim (ihp hp) (ihq hq)
  | group label p ih =>
      obtain ⟨last, hlast, rfl⟩ := h
      change last.ahead.length < r.ahead.length
      exact ih hp hlast
  | nothing | many _ | wordEdge | textEnd | notBefore _ => cases hp

section Run

variable {α : Type} {fuel n : Nat} {next : Reading → Option α}

theorem isSome_runMany_of_reaches {step : Reading → (Reading → Option α) → Option α}
    {relation : Reading → Reading → Prop}
    (hstep : ∀ ⦃r r' next⦄, relation r r' → r.ahead.length ≤ n → (next r').isSome = true →
      (step r next).isSome = true)
    (hlt : ∀ ⦃r r'⦄, relation r r' → r'.ahead.length < r.ahead.length)
    (h : Relation.ReflTransGen relation r r') (hfuel : fuel ≤ n) (hr : r.ahead.length ≤ fuel)
    (hnext : (next r').isSome = true) : (runMany step fuel r next).isSome = true := by
  -- Each step shortens the text ahead, so the fuel outlasts the steps.
  induction h using Relation.ReflTransGen.head_induction_on generalizing fuel with
  | refl =>
      cases fuel with
      | zero => exact hnext
      | succ fuel => simp [runMany, hnext]
  | @head r r₁ hfirst _ ih =>
      have hshorter := hlt hfirst
      obtain ⟨fuel, rfl⟩ : ∃ k, fuel = k + 1 := Nat.exists_eq_add_one.mpr (by omega)
      have hrest : (runMany step fuel r₁ next).isSome = true := ih (by omega) (by omega)
      have hhere : (step r fun r₁ => runMany step fuel r₁ next).isSome = true :=
        hstep hfirst (by omega) hrest
      simp [runMany, hhere]

/-- A place that the pattern reaches and that the continuation accepts is enough for a result. -/
theorem isSome_run_of_reaches (hp : p.isProductive = true) (hfuel : r.ahead.length ≤ fuel)
    (h : p.Reaches r r') (hnext : (next r').isSome = true) : (p.run fuel r next).isSome = true := by
  induction p generalizing r r' next with
  | nothing =>
      cases h
      exact hnext
  | one accepts =>
      obtain ⟨c, rest, hahead, hc, rfl⟩ := h
      simpa [run, hahead, hc] using hnext
  | seq p q ihp ihq =>
      obtain ⟨hp, hq⟩ := Bool.and_eq_true_iff.mp hp
      obtain ⟨middle, hfirst, hsecond⟩ := h
      have hle := length_le_of_reaches hfirst
      exact ihp hp hfuel hfirst (ihq hq (by omega) hsecond hnext)
  | alt p q ihp ihq =>
      obtain ⟨hp, hq⟩ := Bool.and_eq_true_iff.mp hp
      rcases h with h | h
      · simp [run, ihp hp hfuel h hnext]
      · simp [run, ihq hq hfuel h hnext]
  | many p ih =>
      obtain ⟨hconsumes, hp⟩ := Bool.and_eq_true_iff.mp hp
      exact isSome_runMany_of_reaches (fun _ _ _ hfirst hle hnext => ih hp hle hfirst hnext)
        (fun _ _ => length_lt_of_reaches hconsumes) h (Nat.le_refl fuel) hfuel hnext
  | wordEdge | textEnd =>
      obtain ⟨hhere, rfl⟩ := h
      simpa [run, hhere] using hnext
  | notBefore refuses =>
      obtain ⟨hfree, rfl⟩ := h
      simpa [run, hfree] using hnext
  | group label p ih =>
      obtain ⟨last, hlast, rfl⟩ := h
      exact ih hp hfuel hlast hnext

end Run

theorem isSome_matchAt_iff (hp : p.isProductive = true) :
    (p.matchAt text offset).isSome = true ↔ ∃ r', p.Reaches (.start text offset) r' := by
  constructor
  · intro h
    obtain ⟨m, hm⟩ := Option.isSome_iff_exists.mp h
    obtain ⟨r', hr', _⟩ := exists_reaches_of_matchAt hm
    exact ⟨r', hr'⟩
  · rintro ⟨r', hr'⟩
    have hfuel : (Reading.start text offset).ahead.length ≤ text.length := by
      simp [Reading.start]
    exact isSome_run_of_reaches hp hfuel hr' rfl

/-! ## The leftmost match -/

theorem matchAt_of_findFrom {before ahead : List Char}
    (h : p.findFrom (before ++ ahead).length before.length before.getLast? ahead = some m) :
    p.matchAt (before ++ ahead) m.start = some m ∧ m.start ≤ (before ++ ahead).length := by
  induction ahead generalizing before with
  | nil =>
      have hat : p.matchAt (before ++ []) before.length = some m := by
        simpa [matchAt, findFrom] using h
      rw [start_of_matchAt hat]
      exact ⟨hat, by simp⟩
  | cons c rest ih =>
      simp only [findFrom, Option.orElse_eq_orElse, Option.orElse_eq_or, Option.or_eq_some_iff] at h
      rcases h with hhere | ⟨_, hlater⟩
      · have hat : p.matchAt (before ++ c :: rest) before.length = some m := by
          simpa [matchAt] using hhere
        rw [start_of_matchAt hat]
        exact ⟨hat, by simp⟩
      · have hih := @ih (before ++ [c])
        simp only [List.append_assoc, List.singleton_append, List.length_append,
          List.length_singleton, List.getLast?_concat] at hih hlater ⊢
        exact hih hlater

theorem matchAt_of_find? (h : p.find? text = some m) :
    p.matchAt text m.start = some m ∧ m.start ≤ text.length :=
  @matchAt_of_findFrom p m [] text h

theorem isSome_findFrom_of_matchAt {before ahead : List Char} {k : Nat} (hk : k ≤ ahead.length)
    (h : (p.matchAt (before ++ ahead) (before.length + k)).isSome = true) :
    (p.findFrom (before ++ ahead).length before.length before.getLast? ahead).isSome = true := by
  induction ahead generalizing before k with
  | nil =>
      obtain rfl : k = 0 := Nat.le_zero.mp hk
      simpa [matchAt, findFrom] using h
  | cons c rest ih =>
      simp only [findFrom, Option.orElse_eq_orElse, Option.orElse_eq_or, Option.isSome_or,
        Bool.or_eq_true]
      cases k with
      | zero => exact Or.inl (by simpa [matchAt] using h)
      | succ k =>
          have hih := @ih (before ++ [c]) k (Nat.le_of_succ_le_succ hk)
          have hsame : before.length + 1 + k = before.length + (k + 1) := by omega
          simp only [List.append_assoc, List.singleton_append, List.length_append,
            List.length_singleton, List.getLast?_concat, hsame] at hih h ⊢
          exact Or.inr (hih h)

theorem occursIn_iff_matchAt : p.occursIn text = true ↔
    ∃ offset ≤ text.length, (p.matchAt text offset).isSome = true := by
  constructor
  · intro h
    obtain ⟨m, hm⟩ := Option.isSome_iff_exists.mp h
    obtain ⟨hat, hle⟩ := matchAt_of_find? hm
    exact ⟨m.start, hle, Option.isSome_of_eq_some hat⟩
  · rintro ⟨offset, hle, hat⟩
    rw [← Nat.zero_add offset] at hat
    exact @isSome_findFrom_of_matchAt p [] text offset hle hat

/-- A productive pattern occurs in a text exactly if a match leads on from one of its places. -/
theorem occursIn_iff (hp : p.isProductive = true) : p.occursIn text = true ↔
    ∃ offset ≤ text.length, ∃ r', p.Reaches (.start text offset) r' := by
  rw [occursIn_iff_matchAt]
  simp only [isSome_matchAt_iff hp]

/-- Before a word there is an edge exactly if no word goes on there. -/
theorem Reading.atWordEdge_iff_of_begins {piece rest : List Char} (hahead : r.ahead = piece ++ rest)
    (hpiece : piece.head?.any Text.isWord = true) :
    r.atWordEdge = true ↔ r.previous.any Text.isWord = false := by
  cases piece with
  | nil => cases hpiece
  | cons c cs =>
      have hc : Text.isWord c = true := hpiece
      simp [Reading.atWordEdge, hahead, hc]

/-! ## Plain patterns -/

/-- Whether a pattern looks at nothing but the characters it reads, and remembers no stretch. -/
def isPlain : Pattern → Bool
  | seq p q | alt p q => p.isPlain && q.isPlain
  | many p => p.isPlain
  | nothing | one _ => true
  | wordEdge | textEnd | notBefore _ | group _ _ => false

def Describes : Pattern → List Char → Prop
  | nothing, piece => piece = []
  | one accepts, piece => ∃ c, accepts c = true ∧ piece = [c]
  | seq p q, piece => ∃ u v, piece = u ++ v ∧ Describes p u ∧ Describes q v
  | alt p q, piece => Describes p piece ∨ Describes q piece
  | many p, piece => ∃ pieces : List (List Char),
      piece = pieces.flatten ∧ ∀ u ∈ pieces, Describes p u
  | wordEdge, _ | textEnd, _ | notBefore _, _ | group _ _, _ => False

namespace Reading

def advance (r : Reading) (piece : List Char) : Reading :=
  ⟨r.offset + piece.length, piece.getLast?.or r.previous, r.ahead.drop piece.length, r.groups⟩

@[simp] theorem advance_nil (r : Reading) : r.advance [] = r := rfl

theorem advance_append (r : Reading) (u v : List Char) :
    r.advance (u ++ v) = (r.advance u).advance v := by
  simp [advance, List.getLast?_append, Option.or_assoc, Nat.add_assoc]

theorem advance_ahead_of_eq {piece rest : List Char} (h : r.ahead = piece ++ rest) :
    (r.advance piece).ahead = rest := by
  simp [advance, h]

end Reading

theorem append_prefix_iff {u v l : List Char} :
    u ++ v <+: l ↔ u <+: l ∧ v <+: l.drop u.length := by
  constructor
  · rintro ⟨rest, rfl⟩
    refine ⟨⟨v ++ rest, by simp⟩, ⟨rest, by simp⟩⟩
  · rintro ⟨⟨rest, rfl⟩, ⟨rest', hrest⟩⟩
    rw [List.drop_left] at hrest
    exact ⟨rest', by rw [← hrest, List.append_assoc]⟩

/-- A plain pattern leads exactly behind the texts that it describes. -/
theorem reaches_iff_describes (hp : p.isPlain = true) :
    p.Reaches r r' ↔ ∃ piece, p.Describes piece ∧ piece <+: r.ahead ∧ r' = r.advance piece := by
  induction p generalizing r r' with
  | nothing =>
      constructor
      · rintro rfl
        exact ⟨[], rfl, List.nil_prefix, rfl⟩
      · rintro ⟨_, rfl, _, rfl⟩
        rfl
  | one accepts =>
      constructor
      · rintro ⟨c, rest, hahead, hc, rfl⟩
        refine ⟨[c], ⟨c, hc, rfl⟩, ⟨rest, hahead.symm⟩, ?_⟩
        simp [Reading.advance, hahead]
      · rintro ⟨_, ⟨c, hc, rfl⟩, ⟨rest, hahead⟩, rfl⟩
        refine ⟨c, rest, hahead.symm, hc, ?_⟩
        simp [Reading.advance, ← hahead]
  | seq p q ihp ihq =>
      obtain ⟨hp, hq⟩ := Bool.and_eq_true_iff.mp hp
      constructor
      · rintro ⟨middle, hfirst, hsecond⟩
        obtain ⟨u, hu, hstands, rfl⟩ := (ihp hp).mp hfirst
        obtain ⟨v, hv, hstands', rfl⟩ := (ihq hq).mp hsecond
        exact ⟨u ++ v, ⟨u, v, rfl, hu, hv⟩, append_prefix_iff.mpr ⟨hstands, hstands'⟩,
          (r.advance_append u v).symm⟩
      · rintro ⟨_, ⟨u, v, rfl, hu, hv⟩, hstands, rfl⟩
        obtain ⟨hstands, hstands'⟩ := append_prefix_iff.mp hstands
        rw [Reading.advance_append]
        exact ⟨r.advance u, (ihp hp).mpr ⟨u, hu, hstands, rfl⟩,
          (ihq hq).mpr ⟨v, hv, hstands', rfl⟩⟩
  | alt p q ihp ihq =>
      obtain ⟨hp, hq⟩ := Bool.and_eq_true_iff.mp hp
      simp only [Reaches, Describes, ihp hp, ihq hq, or_and_right, exists_or]
  | many p ih =>
      constructor
      · intro h
        induction h with
        | refl => exact ⟨[], ⟨[], rfl, by simp⟩, List.nil_prefix, rfl⟩
        | tail _ hlast ihrest =>
            obtain ⟨_, ⟨pieces, rfl, hpieces⟩, hstands, rfl⟩ := ihrest
            obtain ⟨v, hv, hstands', rfl⟩ := (ih hp).mp hlast
            refine ⟨pieces.flatten ++ v, ⟨pieces ++ [v], by simp, ?_⟩,
              append_prefix_iff.mpr ⟨hstands, hstands'⟩, (r.advance_append _ v).symm⟩
            intro u hu
            rcases List.mem_append.mp hu with hu | hu
            · exact hpieces u hu
            · rwa [List.mem_singleton.mp hu]
      · rintro ⟨_, ⟨pieces, rfl, hpieces⟩, hstands, rfl⟩
        induction pieces generalizing r with
        | nil => exact .refl
        | cons u pieces ihpieces =>
            obtain ⟨hu, hpieces⟩ := List.forall_mem_cons.mp hpieces
            rw [List.flatten_cons] at hstands ⊢
            obtain ⟨hstands, hstands'⟩ := append_prefix_iff.mp hstands
            rw [Reading.advance_append]
            exact .head ((ih hp).mpr ⟨u, hu, hstands, rfl⟩) (ihpieces hpieces hstands')
  | wordEdge | textEnd | notBefore _ | group _ _ _ => cases hp

/-! ## The vocabulary -/

theorem describes_chars_iff {cs piece : List Char} : (chars cs).Describes piece ↔ piece = cs := by
  induction cs generalizing piece with
  | nil => exact Iff.rfl
  | cons c cs ih =>
      cases cs with
      | nil =>
          constructor
          · rintro ⟨d, hd, rfl⟩
            rw [beq_iff_eq.mp hd]
          · rintro rfl
            exact ⟨c, beq_self_eq_true c, rfl⟩
      | cons d cs =>
          constructor
          · rintro ⟨_, v, rfl, ⟨e, he, rfl⟩, hv⟩
            rw [ih.mp hv, beq_iff_eq.mp he, List.singleton_append]
          · rintro rfl
            exact ⟨[c], d :: cs, rfl, ⟨c, beq_self_eq_true c, rfl⟩, ih.mpr rfl⟩

theorem describes_many_one_iff {accepts : Char → Bool} {piece : List Char} :
    (many (one accepts)).Describes piece ↔ ∀ c ∈ piece, accepts c = true := by
  constructor
  · rintro ⟨pieces, rfl, hpieces⟩ c hc
    obtain ⟨u, hu, hcu⟩ := List.mem_flatten.mp hc
    obtain ⟨d, hd, rfl⟩ := hpieces u hu
    rwa [List.mem_singleton.mp hcu]
  · intro h
    refine ⟨piece.map fun c => [c], by simp [← List.flatMap_def], ?_⟩
    intro u hu
    obtain ⟨c, hc, rfl⟩ := List.mem_map.mp hu
    exact ⟨c, h c hc, rfl⟩

theorem describes_some1_one_iff {accepts : Char → Bool} {piece : List Char} :
    (some1 (one accepts)).Describes piece ↔ piece ≠ [] ∧ ∀ c ∈ piece, accepts c = true := by
  constructor
  · rintro ⟨_, v, rfl, ⟨c, hc, rfl⟩, hv⟩
    exact ⟨by simp, List.forall_mem_cons.mpr ⟨hc, describes_many_one_iff.mp hv⟩⟩
  · rintro ⟨hne, h⟩
    obtain ⟨c, rest, rfl⟩ := List.exists_cons_of_ne_nil hne
    obtain ⟨hc, hrest⟩ := List.forall_mem_cons.mp h
    exact ⟨[c], rest, rfl, ⟨c, hc, rfl⟩, describes_many_one_iff.mpr hrest⟩

theorem describes_many_charNotOf_iff {s : String} {c : Char} (hs : s.toList = [c])
    {piece : List Char} : (many (charNotOf s)).Describes piece ↔ c ∉ piece := by
  refine describes_many_one_iff.trans ?_
  simp only [hs, List.contains_cons, List.contains_nil, Bool.or_false, Bool.not_eq_true',
    beq_eq_false_iff_ne]
  constructor
  · intro h hc
    exact h c hc rfl
  · intro h d hd heq
    exact h (heq ▸ hd)

theorem describes_oneOf_iff {ps : List Pattern} {piece : List Char} :
    (oneOf ps).Describes piece ↔ ∃ p ∈ ps, p.Describes piece := by
  induction ps with
  | nil =>
      constructor
      · rintro ⟨_, hc, _⟩
        cases hc
      · rintro ⟨_, hp, _⟩
        cases hp
  | cons p ps ih =>
      cases ps with
      | nil => simp [oneOf]
      | cons q ps =>
          rw [List.exists_mem_cons_iff, ← ih]
          exact Iff.rfl

theorem describes_litOf_iff {ss : List String} {piece : List Char} :
    (litOf ss).Describes piece ↔ ∃ s ∈ ss, piece = s.toList := by
  simp [litOf, describes_oneOf_iff, lit, describes_chars_iff]

theorem describes_identifier_iff {piece : List Char} : identifier.Describes piece ↔
    ∃ c cs, piece = c :: cs ∧ Text.isIdentStart c = true ∧ ∀ d ∈ cs, Text.isWord d = true := by
  constructor
  · rintro ⟨_, cs, rfl, ⟨c, hc, rfl⟩, hcs⟩
    exact ⟨c, cs, rfl, hc, describes_many_one_iff.mp hcs⟩
  · rintro ⟨c, cs, rfl, hc, hcs⟩
    exact ⟨[c], cs, rfl, ⟨c, hc, rfl⟩, describes_many_one_iff.mpr hcs⟩

/-- What holds of single characters and passes to sequences holds of fixed texts. -/
theorem holds_chars {holds : Pattern → Bool} (hnothing : holds nothing = true)
    (hone : ∀ c : Char, holds (one (· == c)) = true)
    (hseq : ∀ p q, holds (seq p q) = (holds p && holds q)) (cs : List Char) :
    holds (chars cs) = true := by
  induction cs with
  | nil => exact hnothing
  | cons c cs ih =>
      cases cs with
      | nil => exact hone c
      | cons d cs => exact (hseq _ _).trans (Bool.and_eq_true_iff.mpr ⟨hone c, ih⟩)

theorem isPlain_chars (cs : List Char) : (chars cs).isPlain = true :=
  holds_chars rfl (fun _ => rfl) (fun _ _ => rfl) cs

theorem isProductive_chars (cs : List Char) : (chars cs).isProductive = true :=
  holds_chars rfl (fun _ => rfl) (fun _ _ => rfl) cs

/-! ## Patterns that ask for a sign -/

/-- The pattern leads on exactly where the text ahead begins with the sign. -/
def Announces (p : Pattern) (sign : List Char → Prop) : Prop :=
  ∀ r : Reading, (∃ r', p.Reaches r r') ↔ sign r.ahead

variable {q : Pattern} {sign : List Char → Prop}

theorem announces_of_isPlain (hp : p.isPlain = true) :
    Announces p fun text => ∃ piece rest, p.Describes piece ∧ text = piece ++ rest := by
  intro r
  constructor
  · rintro ⟨r', hr'⟩
    obtain ⟨piece, hpiece, ⟨rest, hahead⟩, _⟩ := (reaches_iff_describes hp).mp hr'
    exact ⟨piece, rest, hpiece, hahead.symm⟩
  · rintro ⟨piece, rest, hpiece, hahead⟩
    exact ⟨_, (reaches_iff_describes hp).mpr ⟨piece, hpiece, ⟨rest, hahead.symm⟩, rfl⟩⟩

theorem Announces.seq (hp : p.isPlain = true) (hq : Announces q sign) :
    Announces (p.seq q) fun text => ∃ piece rest, p.Describes piece ∧ text = piece ++ rest ∧
      sign rest := by
  intro r
  constructor
  · rintro ⟨r', r₁, hfirst, hsecond⟩
    obtain ⟨piece, hpiece, ⟨rest, hahead⟩, rfl⟩ := (reaches_iff_describes hp).mp hfirst
    have hrest := (hq _).mp ⟨r', hsecond⟩
    rw [Reading.advance_ahead_of_eq hahead.symm] at hrest
    exact ⟨piece, rest, hpiece, hahead.symm, hrest⟩
  · rintro ⟨piece, rest, hpiece, hahead, hrest⟩
    rw [← Reading.advance_ahead_of_eq hahead] at hrest
    obtain ⟨r', hr'⟩ := (hq _).mpr hrest
    exact ⟨r', _, (reaches_iff_describes hp).mpr ⟨piece, hpiece, ⟨rest, hahead.symm⟩, rfl⟩, hr'⟩

theorem Announces.congr {sign' : List Char → Prop} (hp : Announces p sign)
    (h : ∀ text, sign text ↔ sign' text) : Announces p sign' :=
  fun r => (hp r).trans (h r.ahead)

/-! ## More text behind -/

/-- Whether a pattern asks for nothing behind the text it reads but the edges of words. -/
def isOpenEnded : Pattern → Bool
  | seq p q | alt p q => p.isOpenEnded && q.isOpenEnded
  | many p | group _ p => p.isOpenEnded
  | textEnd | notBefore _ => false
  | nothing | one _ | wordEdge => true

theorem isOpenEnded_chars (cs : List Char) : (chars cs).isOpenEnded = true :=
  holds_chars rfl (fun _ => rfl) (fun _ _ => rfl) cs

def Reading.extend (r : Reading) (more : List Char) : Reading :=
  { r with ahead := r.ahead ++ more }

theorem atWordEdge_extend {more : List Char}
    (h : r.ahead ≠ [] ∨ more.head?.any Text.isWord = false) :
    (r.extend more).atWordEdge = r.atWordEdge := by
  have hhead : (r.ahead ++ more).head?.any Text.isWord = r.ahead.head?.any Text.isWord := by
    cases hahead : r.ahead with
    | nil => simpa [hahead] using h
    | cons c rest => rfl
  rw [Reading.atWordEdge, Reading.atWordEdge]
  exact congrArg _ hhead

/-- A match leads on in every text that goes on from the one given, unless the match stops at the end
of the text and the word there goes on. -/
theorem reaches_extend {more : List Char} (hp : p.isOpenEnded = true) (h : p.Reaches r r')
    (hmore : r'.ahead ≠ [] ∨ more.head?.any Text.isWord = false) :
    p.Reaches (r.extend more) (r'.extend more) := by
  have hearlier : ∀ {q : Pattern} {r r' : Reading}, q.Reaches r r' →
      (r'.ahead ≠ [] ∨ more.head?.any Text.isWord = false) →
      (r.ahead ≠ [] ∨ more.head?.any Text.isWord = false) := by
    intro q r r' h hmore
    refine hmore.imp_left fun hne => ?_
    have hle := length_le_of_reaches h
    have hpos := List.length_pos_iff.mpr hne
    exact List.length_pos_iff.mp (by omega)
  induction p generalizing r r' with
  | nothing =>
      cases h
      rfl
  | one accepts =>
      obtain ⟨c, rest, hahead, hc, rfl⟩ := h
      exact ⟨c, rest ++ more, by simp [Reading.extend, hahead], hc, rfl⟩
  | seq p q ihp ihq =>
      obtain ⟨hp, hq⟩ := Bool.and_eq_true_iff.mp hp
      obtain ⟨middle, hfirst, hsecond⟩ := h
      exact ⟨middle.extend more, ihp hp hfirst (hearlier hsecond hmore), ihq hq hsecond hmore⟩
  | alt p q ihp ihq =>
      obtain ⟨hp, hq⟩ := Bool.and_eq_true_iff.mp hp
      exact h.imp (ihp hp · hmore) (ihq hq · hmore)
  | many p ih =>
      induction h with
      | refl => exact .refl
      | tail _ hlast ihrest => exact .tail (ihrest (hearlier hlast hmore)) (ih hp hlast hmore)
  | wordEdge =>
      obtain ⟨hedge, rfl⟩ := h
      exact ⟨(atWordEdge_extend hmore).trans hedge, rfl⟩
  | textEnd | notBefore _ => cases hp
  | group label p ih =>
      obtain ⟨last, hlast, rfl⟩ := h
      exact ⟨last.extend more, ih hp hlast hmore, rfl⟩

end SolidityAudit.Pattern
