import SolidityAudit.Proofs.Search

/-!
# Matches in a part of a text

Of the text around a match a pattern sees only whether a word goes on there and which character comes
next. A match in a part of a text is therefore a match in the whole text, unless the pattern minds the
character behind the part. A match in the whole text that does not leave the part is a match in the
part, and at a character that the pattern does not read no match can leave it.
-/

namespace SolidityAudit.Pattern

variable {p : Pattern} {r r' s s' : Reading} {before part more : List Char} {n k stop : Nat} {c : Char}

/-! ## Places in a part -/

/-- The place `s` of a text is the place `r` of a part of it, where `n` characters stand before the
part and `more` behind it. -/
structure Excerpt (n : Nat) (more : List Char) (r s : Reading) : Prop where
  offset : s.offset = n + r.offset
  ahead : s.ahead = r.ahead ++ more
  edge : s.previous.any Text.isWord = r.previous.any Text.isWord

/-- Whether the pattern takes a text that goes on with the given character for one that ends. -/
def isBlindTo (c : Char) : Pattern → Bool
  | seq p q | alt p q => p.isBlindTo c && q.isBlindTo c
  | many p | group _ p => p.isBlindTo c
  | wordEdge => !Text.isWord c
  | notBefore refuses => !refuses c
  | textEnd => false
  | nothing | one _ => true

namespace Excerpt

theorem head?_any (h : Excerpt n more r s) {accepts : Char → Bool}
    (hmore : ∀ c ∈ more.head?, accepts c = false) :
    s.ahead.head?.any accepts = r.ahead.head?.any accepts := by
  rw [h.ahead]
  cases hahead : r.ahead with
  | cons d rest => rfl
  | nil =>
      cases more with
      | nil => rfl
      | cons c rest => exact hmore c rfl

theorem atWordEdge_eq (h : Excerpt n more r s) (hmore : ∀ c ∈ more.head?, Text.isWord c = false) :
    s.atWordEdge = r.atWordEdge := by
  rw [Reading.atWordEdge, Reading.atWordEdge, h.edge, h.head?_any hmore]

/-- What leads on in the part leads on in the whole text. -/
theorem reaches (h : Excerpt n more r s) (hblind : ∀ c ∈ more.head?, p.isBlindTo c = true)
    (hr : p.Reaches r r') : ∃ s', p.Reaches s s' ∧ Excerpt n more r' s' := by
  induction p generalizing r r' s with
  | nothing =>
      cases hr
      exact ⟨s, rfl, h⟩
  | one accepts =>
      obtain ⟨c, rest, hahead, hc, rfl⟩ := hr
      refine ⟨_, ⟨c, rest ++ more, ?_, hc, rfl⟩, ?_, rfl, rfl⟩
      · rw [h.ahead, hahead, List.cons_append]
      · change s.offset + 1 = n + (r.offset + 1)
        rw [h.offset, Nat.add_assoc]
  | seq p q ihp ihq =>
      have hboth := fun c hc => Bool.and_eq_true_iff.mp (hblind c hc)
      obtain ⟨middle, hfirst, hsecond⟩ := hr
      obtain ⟨s₁, hs₁, h₁⟩ := ihp h (fun c hc => (hboth c hc).1) hfirst
      obtain ⟨s', hs', h'⟩ := ihq h₁ (fun c hc => (hboth c hc).2) hsecond
      exact ⟨s', ⟨s₁, hs₁, hs'⟩, h'⟩
  | alt p q ihp ihq =>
      have hboth := fun c hc => Bool.and_eq_true_iff.mp (hblind c hc)
      rcases hr with hr | hr
      · obtain ⟨s', hs', h'⟩ := ihp h (fun c hc => (hboth c hc).1) hr
        exact ⟨s', Or.inl hs', h'⟩
      · obtain ⟨s', hs', h'⟩ := ihq h (fun c hc => (hboth c hc).2) hr
        exact ⟨s', Or.inr hs', h'⟩
  | many p ih =>
      induction hr with
      | refl => exact ⟨s, .refl, h⟩
      | tail _ hlast ihrest =>
          obtain ⟨s₁, hs₁, h₁⟩ := ihrest
          obtain ⟨s', hs', h'⟩ := ih h₁ hblind hlast
          exact ⟨s', hs₁.tail hs', h'⟩
  | wordEdge =>
      obtain ⟨hedge, rfl⟩ := hr
      have hmore : ∀ c ∈ more.head?, Text.isWord c = false := fun c hc => by
        simpa [isBlindTo] using hblind c hc
      exact ⟨s, ⟨(h.atWordEdge_eq hmore).trans hedge, rfl⟩, h⟩
  | textEnd =>
      obtain ⟨hend, rfl⟩ := hr
      cases more with
      | nil =>
          have hahead : s.ahead = r'.ahead := by simpa using h.ahead
          exact ⟨s, ⟨by rwa [Reading.atTextEnd, hahead], rfl⟩, h⟩
      | cons c rest => cases hblind c rfl
  | notBefore refuses =>
      obtain ⟨hfree, rfl⟩ := hr
      have hmore : ∀ c ∈ more.head?, refuses c = false := fun c hc => by
        simpa [isBlindTo] using hblind c hc
      exact ⟨s, ⟨(h.head?_any hmore).trans hfree, rfl⟩, h⟩
  | group label p ih =>
      obtain ⟨last, hlast, rfl⟩ := hr
      obtain ⟨s', hs', h'⟩ := ih h hblind hlast
      exact ⟨_, ⟨s', hs', rfl⟩, h'.offset, h'.ahead, h'.edge⟩

/-- What leads on in the whole text and stops inside the part leads on in the part. -/
theorem reaches_of_inside (h : Excerpt n more r s) (hblind : ∀ c ∈ more.head?, p.isBlindTo c = true)
    (hs : p.Reaches s s') (hinside : more.length ≤ s'.ahead.length) :
    ∃ r', p.Reaches r r' ∧ Excerpt n more r' s' := by
  induction p generalizing r s s' with
  | nothing =>
      cases hs
      exact ⟨r, rfl, h⟩
  | one accepts =>
      obtain ⟨c, rest, hahead, hc, rfl⟩ := hs
      have hsplit : c :: rest = r.ahead ++ more := hahead.symm.trans h.ahead
      cases hr : r.ahead with
      | nil =>
          have hlength := congrArg List.length hsplit
          rw [hr, List.nil_append, List.length_cons] at hlength
          have hle : more.length ≤ rest.length := hinside
          omega
      | cons d tail =>
          rw [hr, List.cons_append] at hsplit
          obtain ⟨rfl, hrest⟩ := List.cons.inj hsplit
          refine ⟨_, ⟨c, tail, hr, hc, rfl⟩, ?_, hrest, rfl⟩
          change s.offset + 1 = n + (r.offset + 1)
          rw [h.offset, Nat.add_assoc]
  | seq p q ihp ihq =>
      have hboth := fun c hc => Bool.and_eq_true_iff.mp (hblind c hc)
      obtain ⟨middle, hfirst, hsecond⟩ := hs
      have hle := length_le_of_reaches hsecond
      obtain ⟨r₁, hr₁, h₁⟩ := ihp h (fun c hc => (hboth c hc).1) hfirst (by omega)
      obtain ⟨r', hr', h'⟩ := ihq h₁ (fun c hc => (hboth c hc).2) hsecond hinside
      exact ⟨r', ⟨r₁, hr₁, hr'⟩, h'⟩
  | alt p q ihp ihq =>
      have hboth := fun c hc => Bool.and_eq_true_iff.mp (hblind c hc)
      rcases hs with hs | hs
      · obtain ⟨r', hr', h'⟩ := ihp h (fun c hc => (hboth c hc).1) hs hinside
        exact ⟨r', Or.inl hr', h'⟩
      · obtain ⟨r', hr', h'⟩ := ihq h (fun c hc => (hboth c hc).2) hs hinside
        exact ⟨r', Or.inr hr', h'⟩
  | many p ih =>
      induction hs with
      | refl => exact ⟨r, .refl, h⟩
      | tail _ hlast ihrest =>
          have hle := length_le_of_reaches hlast
          obtain ⟨r₁, hr₁, h₁⟩ := ihrest (by omega)
          obtain ⟨r', hr', h'⟩ := ih h₁ hblind hlast hinside
          exact ⟨r', hr₁.tail hr', h'⟩
  | wordEdge =>
      obtain ⟨hedge, rfl⟩ := hs
      have hmore : ∀ c ∈ more.head?, Text.isWord c = false := fun c hc => by
        simpa [isBlindTo] using hblind c hc
      exact ⟨r, ⟨(h.atWordEdge_eq hmore).symm.trans hedge, rfl⟩, h⟩
  | textEnd =>
      obtain ⟨hend, rfl⟩ := hs
      cases more with
      | nil =>
          have hahead : s'.ahead = r.ahead := by simpa using h.ahead
          exact ⟨r, ⟨by rwa [Reading.atTextEnd, hahead] at hend, rfl⟩, h⟩
      | cons c rest => cases hblind c rfl
  | notBefore refuses =>
      obtain ⟨hfree, rfl⟩ := hs
      have hmore : ∀ c ∈ more.head?, refuses c = false := fun c hc => by
        simpa [isBlindTo] using hblind c hc
      exact ⟨r, ⟨(h.head?_any hmore).symm.trans hfree, rfl⟩, h⟩
  | group label p ih =>
      obtain ⟨last, hlast, rfl⟩ := hs
      obtain ⟨r', hr', h'⟩ := ih h hblind hlast hinside
      exact ⟨_, ⟨r', hr', rfl⟩, h'.offset, h'.ahead, h'.edge⟩

theorem of_start (hbefore : before.getLast?.any Text.isWord = false) (hk : k ≤ part.length) :
    Excerpt before.length more (.start part k)
      (.start (before ++ (part ++ more)) (before.length + k)) where
  offset := rfl
  ahead := by
    change (before ++ (part ++ more)).drop (before.length + k) = part.drop k ++ more
    rw [List.drop_length_add_append, List.drop_append_of_le_length hk]
  edge := by
    change ((before ++ (part ++ more)).take (before.length + k)).getLast?.any Text.isWord =
      (part.take k).getLast?.any Text.isWord
    rw [List.take_length_add_append, List.take_append_of_le_length hk, List.getLast?_append]
    cases (part.take k).getLast? with
    | none => exact hbefore
    | some c => rfl

end Excerpt

/-! ## Characters that are not read -/

def avoids (c : Char) : Pattern → Bool
  | seq p q | alt p q => p.avoids c && q.avoids c
  | many p | group _ p => p.avoids c
  | one accepts => !accepts c
  | nothing | wordEdge | textEnd | notBefore _ => true

/-- Whether the last character that a match reads is never the given one. -/
def endsOff (c : Char) : Pattern → Bool
  | seq p q => q.endsOff c && (q.consumes || p.endsOff c)
  | alt p q => p.endsOff c && q.endsOff c
  | many p | group _ p => p.endsOff c
  | one accepts => !accepts c
  | nothing | wordEdge | textEnd | notBefore _ => true

theorem exists_between_of_avoids (hp : p.avoids c = true) (h : p.Reaches r r') :
    ∃ piece, c ∉ piece ∧ Between piece r r' := by
  induction p generalizing r r' with
  | nothing =>
      cases h
      exact ⟨[], by simp, .refl r⟩
  | one accepts =>
      obtain ⟨d, rest, hahead, hd, rfl⟩ := h
      refine ⟨[d], ?_, hahead, rfl⟩
      intro hmem
      rw [← List.mem_singleton.mp hmem] at hd
      simp [avoids, hd] at hp
  | seq p q ihp ihq =>
      obtain ⟨hp, hq⟩ := Bool.and_eq_true_iff.mp hp
      obtain ⟨middle, hfirst, hsecond⟩ := h
      obtain ⟨u, hu, hbetween⟩ := ihp hp hfirst
      obtain ⟨v, hv, hbetween'⟩ := ihq hq hsecond
      refine ⟨u ++ v, ?_, hbetween.trans hbetween'⟩
      rw [List.mem_append, not_or]
      exact ⟨hu, hv⟩
  | alt p q ihp ihq =>
      obtain ⟨hp, hq⟩ := Bool.and_eq_true_iff.mp hp
      exact h.elim (ihp hp) (ihq hq)
  | many p ih =>
      induction h with
      | refl => exact ⟨[], by simp, .refl r⟩
      | tail _ hlast ihrest =>
          obtain ⟨u, hu, hbetween⟩ := ihrest
          obtain ⟨v, hv, hbetween'⟩ := ih hp hlast
          refine ⟨u ++ v, ?_, hbetween.trans hbetween'⟩
          rw [List.mem_append, not_or]
          exact ⟨hu, hv⟩
  | wordEdge | textEnd | notBefore _ =>
      obtain ⟨_, rfl⟩ := h
      exact ⟨[], by simp, .refl _⟩
  | group label p ih =>
      obtain ⟨last, hlast, rfl⟩ := h
      obtain ⟨u, hu, hbetween⟩ := ih hp hlast
      exact ⟨u, hu, hbetween.ahead, hbetween.offset⟩

/-- No match goes on behind a character that is not read. -/
theorem length_le_of_avoids (hp : p.avoids c = true) (h : p.Reaches s s')
    (hahead : s.ahead = part ++ c :: more) : (c :: more).length ≤ s'.ahead.length := by
  obtain ⟨piece, hpiece, hbetween⟩ := exists_between_of_avoids hp h
  have hsplit : piece ++ s'.ahead = part ++ c :: more := hbetween.ahead.symm.trans hahead
  rcases List.append_eq_append_iff.mp hsplit with ⟨rest, _, hrest⟩ | ⟨rest, rfl, hrest⟩
  · rw [hrest, List.length_append]
    omega
  · cases rest with
    | nil => exact Nat.le_of_eq (congrArg List.length hrest)
    | cons d rest =>
        obtain ⟨rfl, _⟩ := List.cons.inj hrest
        simp at hpiece

theorem getLast?_append_of_endsOff {u v : List Char} (hv : v.getLast? ≠ some c)
    (hu : v = [] → u.getLast? ≠ some c) : (u ++ v).getLast? ≠ some c := by
  cases v with
  | nil => simpa using hu rfl
  | cons d rest => rwa [List.getLast?_append_of_ne_nil _ (List.cons_ne_nil d rest)]

theorem exists_between_of_endsOff (hp : p.endsOff c = true) (h : p.Reaches r r') :
    ∃ piece, piece.getLast? ≠ some c ∧ Between piece r r' := by
  induction p generalizing r r' with
  | nothing =>
      cases h
      exact ⟨[], by simp, .refl r⟩
  | one accepts =>
      obtain ⟨d, rest, hahead, hd, rfl⟩ := h
      refine ⟨[d], ?_, hahead, rfl⟩
      intro heq
      obtain rfl : d = c := Option.some.inj heq
      simp [endsOff, hd] at hp
  | seq p q ihp ihq =>
      obtain ⟨hq, hp⟩ := Bool.and_eq_true_iff.mp hp
      obtain ⟨middle, hfirst, hsecond⟩ := h
      obtain ⟨v, hv, hbetween'⟩ := ihq hq hsecond
      rcases Bool.or_eq_true_iff.mp hp with hconsumes | hp
      · obtain ⟨u, hbetween⟩ := exists_between_of_reaches hfirst
        refine ⟨u ++ v, getLast?_append_of_endsOff hv ?_, hbetween.trans hbetween'⟩
        rintro rfl
        have hlt := length_lt_of_reaches hconsumes hsecond
        rw [hbetween'.ahead] at hlt
        exact absurd hlt (Nat.lt_irrefl _)
      · obtain ⟨u, hu, hbetween⟩ := ihp hp hfirst
        exact ⟨u ++ v, getLast?_append_of_endsOff hv fun _ => hu, hbetween.trans hbetween'⟩
  | alt p q ihp ihq =>
      obtain ⟨hp, hq⟩ := Bool.and_eq_true_iff.mp hp
      exact h.elim (ihp hp) (ihq hq)
  | many p ih =>
      induction h with
      | refl => exact ⟨[], by simp, .refl r⟩
      | tail _ hlast ihrest =>
          obtain ⟨u, hu, hbetween⟩ := ihrest
          obtain ⟨v, hv, hbetween'⟩ := ih hp hlast
          exact ⟨u ++ v, getLast?_append_of_endsOff hv fun _ => hu, hbetween.trans hbetween'⟩
  | wordEdge | textEnd | notBefore _ =>
      obtain ⟨_, rfl⟩ := h
      exact ⟨[], by simp, .refl _⟩
  | group label p ih =>
      obtain ⟨last, hlast, rfl⟩ := h
      obtain ⟨u, hu, hbetween⟩ := ih hp hlast
      exact ⟨u, hu, hbetween.ahead, hbetween.offset⟩

/-- A match whose last character is never the given one does not end where a text ends with it. -/
theorem ahead_ne_nil_of_endsOff (hp : p.endsOff c = true) (h : p.Reaches s s')
    (hahead : s.ahead = part ++ [c]) : s'.ahead ≠ [] := by
  intro hend
  obtain ⟨piece, hpiece, hbetween⟩ := exists_between_of_endsOff hp h
  have hwhole := hbetween.ahead
  rw [hend, List.append_nil, hahead] at hwhole
  rw [← hwhole] at hpiece
  exact hpiece List.getLast?_concat

/-! ## From offset to offset -/

def LeadsTo (p : Pattern) (text : List Char) (start stop : Nat) : Prop :=
  ∃ r', p.Reaches (.start text start) r' ∧ r'.offset = stop

theorem isSome_matchAt_iff_leadsTo {text : List Char} (hp : p.isProductive = true) :
    (p.matchAt text k).isSome = true ↔ ∃ stop, p.LeadsTo text k stop := by
  rw [isSome_matchAt_iff hp]
  constructor
  · rintro ⟨r', hr'⟩
    exact ⟨_, r', hr', rfl⟩
  · rintro ⟨_, r', hr', _⟩
    exact ⟨r', hr'⟩

/-- A text that follows a character which is not read has no part in the matches before it. -/
theorem leadsTo_append_cons_iff (hblind : p.isBlindTo c = true) (havoids : p.avoids c = true)
    (hk : k ≤ part.length) : p.LeadsTo (part ++ c :: more) k stop ↔ p.LeadsTo part k stop := by
  have hstart : Excerpt 0 (c :: more) (.start part k) (.start (part ++ c :: more) k) := by
    have h := @Excerpt.of_start [] part (c :: more) k rfl hk
    rwa [List.nil_append, List.length_nil, Nat.zero_add] at h
  have hmore : ∀ d ∈ (c :: more).head?, p.isBlindTo d = true := fun d hd => by
    rwa [← Option.some.inj hd]
  constructor
  · rintro ⟨s', hs', rfl⟩
    obtain ⟨r', hr', h'⟩ :=
      hstart.reaches_of_inside hmore hs' (length_le_of_avoids havoids hs' hstart.ahead)
    exact ⟨r', hr', by rw [h'.offset, Nat.zero_add]⟩
  · rintro ⟨r', hr', rfl⟩
    obtain ⟨s', hs', h'⟩ := hstart.reaches hmore hr'
    exact ⟨s', hs', by rw [h'.offset, Nat.zero_add]⟩

/-- A text whose last character belongs to no word has no part in the matches behind it. -/
theorem leadsTo_append_right_iff (hbefore : before.getLast?.any Text.isWord = false)
    (hk : k ≤ part.length) :
    p.LeadsTo (before ++ part) (before.length + k) stop ↔
      ∃ stop', p.LeadsTo part k stop' ∧ stop = before.length + stop' := by
  have hstart : Excerpt before.length [] (.start part k)
      (.start (before ++ part) (before.length + k)) := by
    have h := @Excerpt.of_start before part [] k hbefore hk
    rwa [List.append_nil] at h
  have hmore : ∀ d ∈ ([] : List Char).head?, p.isBlindTo d = true := by
    intro d hd
    cases hd
  constructor
  · rintro ⟨s', hs', rfl⟩
    obtain ⟨r', hr', h'⟩ := hstart.reaches_of_inside hmore hs' (Nat.zero_le _)
    exact ⟨_, ⟨r', hr', rfl⟩, h'.offset⟩
  · rintro ⟨_, ⟨r', hr', rfl⟩, rfl⟩
    obtain ⟨s', hs', h'⟩ := hstart.reaches hmore hr'
    exact ⟨s', hs', h'.offset⟩

end SolidityAudit.Pattern
