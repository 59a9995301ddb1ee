import Mathlib.Data.List.Forall2
import Mathlib.Logic.Relation
import SolidityAudit.Pattern.Build

/-!
# What a match says about a text

`Reaches p r r'` says that a match of `p` can lead from the place `r` to the place `r'`, without fuel
and without an order of preference. Every match that `Pattern.run` finds is one of these, and it reads
a piece of text between the two places. `Pattern.findAll` gives at each offset at most one match, the
one that `Pattern.matchAt` gives there.
-/

namespace SolidityAudit.Pattern

/-- A match of the pattern can lead from one place to another. -/
def Reaches : Pattern → Reading → Reading → Prop
  | nothing, r, r' => r' = r
  | one accepts, r, r' => ∃ c rest, r.ahead = c :: rest ∧ accepts c = true ∧
      r' = ⟨r.offset + 1, some c, rest, r.groups⟩
  | seq p q, r, r' => ∃ middle, Reaches p r middle ∧ Reaches q middle r'
  | alt p q, r, r' => Reaches p r r' ∨ Reaches q r r'
  | many p, r, r' => Relation.ReflTransGen (Reaches p) r r'
  | wordEdge, r, r' => r.atWordEdge = true ∧ r' = r
  | textEnd, r, r' => r.atTextEnd = true ∧ r' = r
  | notBefore refuses, r, r' => r.ahead.head?.any refuses = false ∧ r' = r
  | group label p, r, r' => ∃ last, Reaches p r last ∧ r' = last.remember label r.offset

section Run

variable {α : Type} {fuel : Nat} {p : Pattern} {r : Reading} {next : Reading → Option α} {a : α}

theorem exists_reaches_of_runMany
    {step : Reading → (Reading → Option α) → Option α} {relation : Reading → Reading → Prop}
    (hstep : ∀ r next a, step r next = some a → ∃ r', relation r r' ∧ next r' = some a)
    (h : runMany step fuel r next = some a) :
    ∃ r', Relation.ReflTransGen relation r r' ∧ next r' = some a := by
  induction fuel generalizing r with
  | zero => exact ⟨r, .refl, h⟩
  | succ fuel ih =>
      simp only [runMany, Option.orElse_eq_orElse, Option.orElse_eq_or, Option.or_eq_some_iff] at h
      rcases h with hmore | ⟨_, hstop⟩
      · obtain ⟨r₁, hr₁, hrest⟩ := hstep _ _ _ hmore
        obtain ⟨r', hr', hnext⟩ := ih hrest
        exact ⟨r', hr'.head hr₁, hnext⟩
      · exact ⟨r, .refl, hstop⟩

/-- A result of the continuation is its result at a place that the pattern reaches. -/
theorem exists_reaches_of_run (h : p.run fuel r next = some a) :
    ∃ r', p.Reaches r r' ∧ next r' = some a := by
  induction p generalizing r next a with
  | nothing => exact ⟨r, rfl, h⟩
  | one accepts =>
      unfold run at h
      split at h
      · next c rest hahead =>
          split at h
          · next hc => exact ⟨_, ⟨c, rest, hahead, hc, rfl⟩, h⟩
          · cases h
      · cases h
  | seq p q ihp ihq =>
      obtain ⟨middle, hp, hq⟩ := ihp h
      obtain ⟨r', hr', hnext⟩ := ihq hq
      exact ⟨r', ⟨middle, hp, hr'⟩, hnext⟩
  | alt p q ihp ihq =>
      simp only [run, Option.orElse_eq_orElse, Option.orElse_eq_or, Option.or_eq_some_iff] at h
      rcases h with hp | ⟨_, hq⟩
      · obtain ⟨r', hr', hnext⟩ := ihp hp
        exact ⟨r', Or.inl hr', hnext⟩
      · obtain ⟨r', hr', hnext⟩ := ihq hq
        exact ⟨r', Or.inr hr', hnext⟩
  | many p ih => exact exists_reaches_of_runMany (fun _ _ _ => ih) h
  | wordEdge =>
      unfold run at h
      split at h
      · next hedge => exact ⟨r, ⟨hedge, rfl⟩, h⟩
      · cases h
  | textEnd =>
      unfold run at h
      split at h
      · next hend => exact ⟨r, ⟨hend, rfl⟩, h⟩
      · cases h
  | notBefore refuses =>
      unfold run at h
      split at h
      · cases h
      · next hfree => exact ⟨r, ⟨Bool.eq_false_iff.mpr hfree, rfl⟩, h⟩
  | group label p ih =>
      obtain ⟨last, hlast, hnext⟩ := ih h
      exact ⟨_, ⟨last, hlast, rfl⟩, hnext⟩

end Run

/-- A repeated character class takes all characters up to one that it does not accept, if what comes
next agrees. -/
theorem runMany_one_of_stops {α : Type} {accepts : Char → Bool} {next : Reading → Option α} {b : α}
    {piece rest : List Char} {fuel n offset : Nat} {previous : Option Char}
    {groups : List (String × Span)} (hpiece : ∀ c ∈ piece, accepts c)
    (hrest : rest.head?.any accepts = false) (hn : piece.length ≤ n)
    (hnext : ∀ last, next ⟨offset + piece.length, last, rest, groups⟩ = some b) :
    runMany (run fuel (one accepts)) n ⟨offset, previous, piece ++ rest, groups⟩ next = some b := by
  induction piece generalizing n offset previous with
  | nil =>
    cases n with
    | zero => exact hnext previous
    | succ n =>
      have hstop : ∀ k : Reading → Option α,
          run fuel (one accepts) ⟨offset, previous, rest, groups⟩ k = none := by
        intro k
        cases rest with
        | nil => rfl
        | cons c rest =>
          have hc : accepts c = false := hrest
          simp only [run, hc, Bool.false_eq_true, if_false]
      rw [List.nil_append, runMany, hstop]
      exact hnext previous
  | cons c piece ih =>
    obtain ⟨n, rfl⟩ : ∃ k, n = k + 1 := Nat.exists_eq_add_one.2 (Nat.lt_of_lt_of_le (by simp) hn)
    have hlater : runMany (run fuel (one accepts)) n ⟨offset + 1, some c, piece ++ rest, groups⟩
        next = some b := by
      refine ih (fun c' hc' => hpiece c' (List.mem_cons_of_mem c hc')) (Nat.le_of_succ_le_succ hn) ?_
      intro last
      have hoffset : offset + 1 + piece.length = offset + (c :: piece).length := by
        rw [List.length_cons]
        omega
      rw [hoffset]
      exact hnext last
    have hc : accepts c := hpiece c List.mem_cons_self
    have hstep : ∀ k : Reading → Option α, run fuel (one accepts)
        ⟨offset, previous, c :: (piece ++ rest), groups⟩ k =
          k ⟨offset + 1, some c, piece ++ rest, groups⟩ := by
      intro k
      simp only [run, hc, if_true]
    rw [List.cons_append, runMany, hstep, hlater]
    rfl

/-! ## The text of a match -/

structure Between (piece : List Char) (r r' : Reading) : Prop where
  ahead : r.ahead = piece ++ r'.ahead
  offset : r'.offset = r.offset + piece.length

namespace Between

variable {u v : List Char} {r r₁ r' : Reading}

theorem refl (r : Reading) : Between [] r r := ⟨rfl, rfl⟩

theorem trans (h : Between u r r₁) (h' : Between v r₁ r') : Between (u ++ v) r r' where
  ahead := by rw [h.ahead, h'.ahead, List.append_assoc]
  offset := by rw [h'.offset, h.offset, List.length_append, Nat.add_assoc]

theorem drop_eq {text : List Char} (h : Between u r r') (hr : r.ahead = text.drop r.offset) :
    r'.ahead = text.drop r'.offset := by
  rw [h.offset, ← List.drop_drop, ← hr, h.ahead, List.drop_left]

/-- The text between two places of a text is the slice between their offsets. -/
theorem slice_eq {text : List Char} (h : Between u r r') (hr : r.ahead = text.drop r.offset) :
    Text.slice text r.offset r'.offset = u := by
  have hlength : r'.offset - r.offset = u.length := by
    have := h.offset
    omega
  rw [Text.slice, ← hr, h.ahead, hlength, List.take_left]

/-- The characters between two places of a text are those at the offsets from the first place on. -/
theorem getElem?_eq {text : List Char} {k : Nat} (h : Between u r r')
    (hr : r.ahead = text.drop r.offset) (hk : k < u.length) : text[r.offset + k]? = u[k]? := by
  rw [← List.getElem?_drop, ← hr, h.ahead, List.getElem?_append_left hk]

end Between

theorem exists_between_of_reaches {p : Pattern} {r r' : Reading} (h : p.Reaches r r') :
    ∃ piece, Between piece r r' := by
  induction p generalizing r r' with
  | nothing =>
      cases h
      exact ⟨[], .refl r⟩
  | one accepts =>
      obtain ⟨c, rest, hahead, _, rfl⟩ := h
      exact ⟨[c], hahead, rfl⟩
  | seq p q ihp ihq =>
      obtain ⟨middle, hp, hq⟩ := h
      obtain ⟨u, hu⟩ := ihp hp
      obtain ⟨v, hv⟩ := ihq hq
      exact ⟨u ++ v, hu.trans hv⟩
  | alt p q ihp ihq => exact h.elim ihp ihq
  | many p ih =>
      induction h with
      | refl => exact ⟨[], .refl r⟩
      | tail _ hlast ihrest =>
          obtain ⟨u, hu⟩ := ihrest
          obtain ⟨v, hv⟩ := ih hlast
          exact ⟨u ++ v, hu.trans hv⟩
  | wordEdge | textEnd | notBefore _ =>
      obtain ⟨_, rfl⟩ := h
      exact ⟨[], .refl _⟩
  | group label p ih =>
      obtain ⟨last, hlast, rfl⟩ := h
      obtain ⟨u, hu⟩ := ih hlast
      exact ⟨u, hu.ahead, hu.offset⟩

/-! ## Remembered stretches -/

def isGroupless : Pattern → Bool
  | seq p q | alt p q => p.isGroupless && q.isGroupless
  | many p => p.isGroupless
  | group _ _ => false
  | nothing | one _ | wordEdge | textEnd | notBefore _ => true

theorem groups_eq_of_reaches {p : Pattern} (hp : p.isGroupless = true) {r r' : Reading}
    (h : p.Reaches r r') : r'.groups = r.groups := by
  induction p generalizing r r' with
  | nothing =>
      cases h
      rfl
  | one accepts =>
      obtain ⟨c, rest, _, _, rfl⟩ := h
      rfl
  | seq p q ihp ihq =>
      obtain ⟨hp, hq⟩ := Bool.and_eq_true_iff.mp hp
      obtain ⟨middle, hmiddle, hr'⟩ := h
      rw [ihq hq hr', ihp hp hmiddle]
  | alt p q ihp ihq =>
      obtain ⟨hp, hq⟩ := Bool.and_eq_true_iff.mp hp
      exact h.elim (ihp hp) (ihq hq)
  | many p ih =>
      induction h with
      | refl => rfl
      | tail _ hlast ihrest => rw [ih hp hlast, ihrest]
  | wordEdge | textEnd | notBefore _ =>
      obtain ⟨_, rfl⟩ := h
      rfl
  | group label p _ => cases hp

/-! ## Fixed texts and first characters -/

/-- One character of each class in turn. -/
theorem exists_between_of_reaches_chain {α : Type} {accepts : α → Char → Bool} {classes : List α}
    {r r' : Reading} (h : (chain (classes.map fun a => one (accepts a))).Reaches r r') :
    ∃ piece, List.Forall₂ (fun a c => accepts a c = true) classes piece ∧ Between piece r r' := by
  induction classes generalizing r with
  | nil =>
      obtain rfl : r' = r := h
      exact ⟨[], .nil, .refl r'⟩
  | cons a classes ih =>
      have hone : ∀ {r₁}, (one (accepts a)).Reaches r r₁ →
          ∃ c, accepts a c = true ∧ Between [c] r r₁ := by
        rintro r₁ ⟨c, rest, hahead, hc, rfl⟩
        exact ⟨c, hc, hahead, rfl⟩
      cases classes with
      | nil =>
          obtain ⟨c, hc, hbetween⟩ := hone h
          exact ⟨[c], .cons hc .nil, hbetween⟩
      | cons b classes =>
          obtain ⟨r₁, hfirst, hrest⟩ := h
          obtain ⟨c, hc, hbetween⟩ := hone hfirst
          obtain ⟨piece, hpiece, hbetween'⟩ := ih hrest
          exact ⟨c :: piece, .cons hc hpiece, hbetween.trans hbetween'⟩

theorem between_of_reaches_chars {cs : List Char} {r r' : Reading} (h : (chars cs).Reaches r r') :
    Between cs r r' := by
  obtain ⟨piece, hpiece, hbetween⟩ := exists_between_of_reaches_chain h
  have hsame : List.Forall₂ (· = ·) cs piece := hpiece.imp fun _ _ h => (beq_iff_eq.mp h).symm
  rw [List.forall₂_eq_eq_eq] at hsame
  rwa [hsame]

theorem exists_of_reaches_oneOf {ps : List Pattern} {r r' : Reading} (h : (oneOf ps).Reaches r r') :
    ∃ p ∈ ps, p.Reaches r r' := by
  induction ps with
  | nil =>
      obtain ⟨_, _, _, hc, _⟩ := h
      cases hc
  | cons p ps ih =>
      cases ps with
      | nil => exact ⟨p, List.mem_cons_self, h⟩
      | cons q ps =>
          rcases h with hp | hrest
          · exact ⟨p, List.mem_cons_self, hp⟩
          · obtain ⟨p', hp', hr'⟩ := ih hrest
            exact ⟨p', List.mem_cons_of_mem p hp', hr'⟩

theorem exists_between_of_reaches_litOf {ss : List String} {r r' : Reading}
    (h : (litOf ss).Reaches r r') : ∃ s ∈ ss, Between s.toList r r' := by
  obtain ⟨p, hp, hr'⟩ := exists_of_reaches_oneOf h
  obtain ⟨s, hs, rfl⟩ := List.mem_map.mp hp
  exact ⟨s, hs, between_of_reaches_chars hr'⟩

/-- Any number of characters of a class. -/
theorem exists_between_of_reaches_many {accepts : Char → Bool} {r r' : Reading}
    (h : (many (one accepts)).Reaches r r') :
    ∃ piece, (∀ c ∈ piece, accepts c = true) ∧ Between piece r r' := by
  induction h with
  | refl => exact ⟨[], by simp, .refl r⟩
  | tail _ hlast ih =>
      obtain ⟨piece, hpiece, hbetween⟩ := ih
      obtain ⟨d, rest', hahead', hd, rfl⟩ := hlast
      refine ⟨piece ++ [d], ?_, hbetween.trans ⟨hahead', rfl⟩⟩
      intro e he
      rcases List.mem_append.mp he with he | he
      · exact hpiece e he
      · rwa [List.mem_singleton.mp he]

/-- One or more characters of a class. -/
theorem exists_between_of_reaches_some1 {accepts : Char → Bool} {r r' : Reading}
    (h : (some1 (one accepts)).Reaches r r') :
    ∃ piece, (∀ c ∈ piece, accepts c = true) ∧ Between piece r r' := by
  obtain ⟨r₁, ⟨c, rest, hahead, hc, rfl⟩, hmany⟩ := h
  obtain ⟨piece, hpiece, hbetween⟩ := exists_between_of_reaches_many hmany
  have hfirst : Between [c] r ⟨r.offset + 1, some c, rest, r.groups⟩ := ⟨hahead, rfl⟩
  exact ⟨[c] ++ piece, List.forall_mem_cons.mpr ⟨hc, hpiece⟩, hfirst.trans hbetween⟩

def BeginsWith (accepts : Char → Bool) (p : Pattern) : Prop :=
  ∀ ⦃r r'⦄, p.Reaches r r' → ∃ c piece, accepts c = true ∧ Between (c :: piece) r r'

namespace BeginsWith

variable {accepts : Char → Bool} {p q : Pattern}

theorem one {accepts' : Char → Bool} (h : ∀ c, accepts' c = true → accepts c = true) :
    BeginsWith accepts (.one accepts') := by
  rintro r r' ⟨c, rest, hahead, hc, rfl⟩
  exact ⟨c, [], h c hc, hahead, rfl⟩

theorem imp {accepts' : Char → Bool} (h : ∀ c, accepts c = true → accepts' c = true)
    (hp : BeginsWith accepts p) : BeginsWith accepts' p := by
  intro r r' hr
  obtain ⟨c, piece, hc, hbetween⟩ := hp hr
  exact ⟨c, piece, h c hc, hbetween⟩

theorem seq (h : BeginsWith accepts p) : BeginsWith accepts (.seq p q) := by
  rintro r r' ⟨middle, hp, hq⟩
  obtain ⟨c, piece, hc, hpiece⟩ := h hp
  obtain ⟨rest, hrest⟩ := exists_between_of_reaches hq
  exact ⟨c, piece ++ rest, hc, hpiece.trans hrest⟩

theorem seq_wordEdge (h : BeginsWith accepts q) : BeginsWith accepts (.seq .wordEdge q) := by
  rintro r r' ⟨middle, ⟨_, rfl⟩, hq⟩
  exact h hq

theorem alt (hp : BeginsWith accepts p) (hq : BeginsWith accepts q) :
    BeginsWith accepts (.alt p q) := by
  intro r r' h
  exact h.elim (hp ·) (hq ·)

theorem group {label : String} (h : BeginsWith accepts p) :
    BeginsWith accepts (.group label p) := by
  rintro r r' ⟨last, hlast, rfl⟩
  obtain ⟨c, piece, hc, hpiece⟩ := h hlast
  exact ⟨c, piece, hc, hpiece.ahead, hpiece.offset⟩

theorem litOf {ss : List String} (h : ∀ s ∈ ss, ∃ c cs, s.toList = c :: cs ∧ accepts c = true) :
    BeginsWith accepts (.litOf ss) := by
  intro r r' hr
  obtain ⟨s, hs, hbetween⟩ := exists_between_of_reaches_litOf hr
  obtain ⟨c, cs, hcs, hc⟩ := h s hs
  exact ⟨c, cs, hc, hcs ▸ hbetween⟩

theorem lit {s : String} {c : Char} {cs : List Char} (hcs : s.toList = c :: cs)
    (hc : accepts c = true) : BeginsWith accepts (.lit s) := by
  intro r r' hr
  exact ⟨c, cs, hc, hcs ▸ between_of_reaches_chars hr⟩

end BeginsWith

/-! ## Matches in a text -/

def Reading.start (text : List Char) (offset : Nat) : Reading :=
  ⟨offset, (text.take offset).getLast?, text.drop offset, []⟩

variable {p : Pattern} {text : List Char} {m : Match}

theorem exists_reaches_of_matchAt {offset : Nat} (h : p.matchAt text offset = some m) :
    ∃ r', p.Reaches (.start text offset) r' ∧ m = ⟨⟨offset, r'.offset⟩, r'.groups⟩ := by
  obtain ⟨r', hr', hm⟩ := exists_reaches_of_run h
  exact ⟨r', hr', (Option.some.inj hm).symm⟩

theorem start_of_matchAt {offset : Nat} (h : p.matchAt text offset = some m) :
    m.start = offset := by
  obtain ⟨r', _, rfl⟩ := exists_reaches_of_matchAt h
  rfl

theorem matchAt_of_mem_findAllFrom {skip : Nat} {before ahead : List Char}
    (h : m ∈ p.findAllFrom (before ++ ahead).length skip before.length before.getLast? ahead) :
    p.matchAt (before ++ ahead) m.start = some m := by
  induction ahead generalizing before skip with
  | nil => cases h
  | cons c rest ih =>
      have hmoved : ∀ skip, m ∈ p.findAllFrom (before ++ c :: rest).length skip (before.length + 1)
          (some c) rest → p.matchAt (before ++ c :: rest) m.start = some m := by
        intro skip hm
        have hih := @ih skip (before ++ [c])
        simp only [List.append_assoc, List.singleton_append, List.length_append,
          List.length_singleton, List.getLast?_concat] at hih hm
        exact hih hm
      unfold findAllFrom at h
      split at h
      · exact hmoved _ h
      · split at h
        · next m' hhere =>
            rcases List.mem_cons.mp h with rfl | hrest
            · have hat : p.matchAt (before ++ c :: rest) before.length = some m := by
                simpa [matchAt] using hhere
              rwa [start_of_matchAt hat]
            · exact hmoved _ hrest
        · exact hmoved _ h

/-- A match in a text is the match that begins at its offset. -/
theorem matchAt_of_mem_findAll (h : m ∈ p.findAll text) : p.matchAt text m.start = some m :=
  @matchAt_of_mem_findAllFrom p m 0 [] text h

/-- A match in a text leads from its start to its stop. -/
theorem exists_reaches_of_mem_findAll (h : m ∈ p.findAll text) :
    ∃ r', p.Reaches (.start text m.start) r' ∧ m.stop = r'.offset ∧ m.groups = r'.groups := by
  obtain ⟨r', hr', hm⟩ := exists_reaches_of_matchAt (matchAt_of_mem_findAll h)
  refine ⟨r', hr', ?_, ?_⟩
  · rw [hm]
    rfl
  · rw [hm]

/-- The text of a match begins as the pattern says. -/
theorem BeginsWith.text_eq {accepts : Char → Bool} (hp : BeginsWith accepts p)
    (h : m ∈ p.findAll text) : ∃ c piece, accepts c = true ∧ m.text text = c :: piece := by
  obtain ⟨r', hr', hstop, _⟩ := exists_reaches_of_mem_findAll h
  obtain ⟨c, piece, hc, hbetween⟩ := hp hr'
  refine ⟨c, piece, hc, ?_⟩
  have hslice : m.text text = Text.slice text m.start r'.offset := by rw [← hstop]; rfl
  rw [hslice]
  exact hbetween.slice_eq rfl

end SolidityAudit.Pattern
