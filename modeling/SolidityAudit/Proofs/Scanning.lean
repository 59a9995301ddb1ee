import SolidityAudit.Proofs.Pattern

/-!
# Which matches a scan gives

A scan goes on behind each match that it gives. It therefore passes over the places inside such a
match, and `mem_findAll_iff` says that it loses no other: a match that begins at an offset is given
exactly if no match given before reaches over this offset.
-/

namespace SolidityAudit.Pattern

variable {p : Pattern} {text : List Char} {m : Match}

/-- The scan passes over an offset that lies inside a match which begins before it. -/
def PassesOver (p : Pattern) (text : List Char) (offset : Nat) : Prop :=
  ∃ m ∈ p.findAll text, m.start < offset ∧ offset < m.stop

instance (p : Pattern) (text : List Char) (offset : Nat) : Decidable (p.PassesOver text offset) :=
  inferInstanceAs (Decidable (∃ m ∈ p.findAll text, m.start < offset ∧ offset < m.stop))

/-! ## Scans from a place on -/

/-- The matches from a place on in a text that is cut in two at this place. -/
def scanFrom (p : Pattern) (before : List Char) (skip : Nat) (ahead : List Char) : List Match :=
  p.findAllFrom (before ++ ahead).length skip before.length before.getLast? ahead

section ScanFrom

variable {before ahead : List Char} {skip : Nat} {c : Char}

theorem findAllFrom_eq_scanFrom :
    p.findAllFrom (before ++ c :: ahead).length skip (before.length + 1) (some c) ahead =
      p.scanFrom (before ++ [c]) skip ahead := by
  simp [scanFrom]

theorem scanFrom_cons_skip :
    p.scanFrom before (skip + 1) (c :: ahead) = p.scanFrom (before ++ [c]) skip ahead :=
  findAllFrom_eq_scanFrom

theorem matchHere_eq_matchAt :
    p.matchHere (before ++ c :: ahead).length before.length before.getLast? (c :: ahead) =
      p.matchAt (before ++ c :: ahead) before.length := by
  simp [matchAt]

theorem scanFrom_cons_of_some (h : p.matchAt (before ++ c :: ahead) before.length = some m) :
    p.scanFrom before 0 (c :: ahead) =
      m :: p.scanFrom (before ++ [c]) (m.stop - before.length - 1) ahead := by
  rw [← matchHere_eq_matchAt] at h
  simp only [scanFrom, findAllFrom, h]
  rw [findAllFrom_eq_scanFrom, scanFrom]

theorem scanFrom_cons_of_none (h : p.matchAt (before ++ c :: ahead) before.length = none) :
    p.scanFrom before 0 (c :: ahead) = p.scanFrom (before ++ [c]) 0 ahead := by
  rw [← matchHere_eq_matchAt] at h
  simp only [scanFrom, findAllFrom, h]
  rw [findAllFrom_eq_scanFrom, scanFrom]

theorem bounds_of_mem_scanFrom (h : m ∈ p.scanFrom before skip ahead) :
    before.length + skip ≤ m.start ∧ m.start < (before ++ ahead).length := by
  induction ahead generalizing before skip with
  | nil => cases h
  | cons c rest ih =>
      have hlength : (before ++ [c] ++ rest).length = (before ++ c :: rest).length := by simp
      have hstep : (before ++ [c]).length = before.length + 1 := by simp
      cases skip with
      | succ skip =>
          rw [scanFrom_cons_skip] at h
          have hbounds := ih h
          omega
      | zero =>
          cases hat : p.matchAt (before ++ c :: rest) before.length with
          | none =>
              rw [scanFrom_cons_of_none hat] at h
              have hbounds := ih h
              omega
          | some m' =>
              rw [scanFrom_cons_of_some hat] at h
              rcases List.mem_cons.mp h with rfl | hrest
              · rw [start_of_matchAt hat]
                simp
              · have hbounds := ih hrest
                omega

theorem scanFrom_pairwise (p : Pattern) (before : List Char) (skip : Nat) (ahead : List Char) :
    (p.scanFrom before skip ahead).Pairwise fun a b => a.start < b.start ∧ a.stop ≤ b.start := by
  induction ahead generalizing before skip with
  | nil => exact List.Pairwise.nil
  | cons c rest ih =>
      cases skip with
      | succ skip =>
          rw [scanFrom_cons_skip]
          exact ih _ _
      | zero =>
          cases hat : p.matchAt (before ++ c :: rest) before.length with
          | none =>
              rw [scanFrom_cons_of_none hat]
              exact ih _ _
          | some m' =>
              rw [scanFrom_cons_of_some hat, List.pairwise_cons]
              refine ⟨?_, ih _ _⟩
              intro b hb
              have hlow := (bounds_of_mem_scanFrom hb).1
              have hstart := start_of_matchAt hat
              rw [List.length_append, List.length_singleton] at hlow
              omega

/-- A match behind the part to be skipped is given, if nothing given reaches over its start. -/
theorem mem_scanFrom_of_free (hat : p.matchAt (before ++ ahead) m.start = some m)
    (hlow : before.length + skip ≤ m.start) (hhigh : m.start < (before ++ ahead).length)
    (hfree : ∀ m' ∈ p.scanFrom before skip ahead, m'.start < m.start → m'.stop ≤ m.start) :
    m ∈ p.scanFrom before skip ahead := by
  -- The place moves on through the text ahead. A match found here is the one looked for, or `hfree`
  -- says that the part to be skipped after it ends before the one looked for begins.
  induction ahead generalizing before skip with
  | nil =>
      rw [List.append_nil] at hhigh
      omega
  | cons c rest ih =>
      have htext : before ++ [c] ++ rest = before ++ c :: rest := by simp
      have hstep : (before ++ [c]).length = before.length + 1 := by simp
      rw [← htext] at hhigh
      cases skip with
      | succ skip =>
          rw [scanFrom_cons_skip] at hfree ⊢
          exact ih (htext ▸ hat) (by omega) hhigh hfree
      | zero =>
          cases hhere : p.matchAt (before ++ c :: rest) before.length with
          | none =>
              have hne : m.start ≠ before.length := by
                intro heq
                rw [heq, hhere] at hat
                cases hat
              rw [scanFrom_cons_of_none hhere] at hfree ⊢
              exact ih (htext ▸ hat) (by omega) hhigh hfree
          | some m' =>
              have hstart := start_of_matchAt hhere
              rw [scanFrom_cons_of_some hhere] at hfree ⊢
              by_cases heq : m.start = before.length
              · rw [heq, hhere] at hat
                rw [Option.some.inj hat]
                exact List.mem_cons_self
              · have hstop := hfree m' List.mem_cons_self (by omega)
                exact List.mem_cons_of_mem _ (ih (htext ▸ hat) (by omega) hhigh
                  fun m₁ hm₁ => hfree m₁ (List.mem_cons_of_mem _ hm₁))

end ScanFrom

/-! ## Scans of a whole text -/

theorem findAll_pairwise (p : Pattern) (text : List Char) :
    (p.findAll text).Pairwise fun a b => a.start < b.start ∧ a.stop ≤ b.start :=
  scanFrom_pairwise p [] 0 text

theorem start_lt_length_of_mem_findAll (h : m ∈ p.findAll text) : m.start < text.length :=
  (@bounds_of_mem_scanFrom p m [] text 0 h).2

theorem stop_le_of_start_lt {a b : Match} (ha : a ∈ p.findAll text) (hb : b ∈ p.findAll text)
    (hlt : a.start < b.start) : a.stop ≤ b.start := by
  obtain ⟨i, hi, rfl⟩ := List.getElem_of_mem ha
  obtain ⟨j, hj, rfl⟩ := List.getElem_of_mem hb
  have hpairwise := List.pairwise_iff_getElem.mp (findAll_pairwise p text)
  rcases Nat.lt_trichotomy i j with hij | rfl | hji
  · exact (hpairwise i j hi hj hij).2
  · omega
  · have := (hpairwise j i hj hi hji).1
    omega

theorem not_passesOver_of_mem_findAll (h : m ∈ p.findAll text) : ¬ p.PassesOver text m.start := by
  rintro ⟨m', hm', hbefore, hover⟩
  have hstop := stop_le_of_start_lt hm' h hbefore
  omega

/-- A match that begins at an offset is given exactly if the scan does not pass over this offset. -/
theorem mem_findAll_iff : m ∈ p.findAll text ↔
    p.matchAt text m.start = some m ∧ m.start < text.length ∧ ¬ p.PassesOver text m.start := by
  constructor
  · intro h
    exact ⟨matchAt_of_mem_findAll h, start_lt_length_of_mem_findAll h,
      not_passesOver_of_mem_findAll h⟩
  · rintro ⟨hat, hlt, hfree⟩
    refine @mem_scanFrom_of_free p m [] text 0 hat (Nat.zero_le _) hlt ?_
    intro m' hm' hbefore
    rcases Nat.lt_or_ge m.start m'.stop with hover | hstop
    · exact absurd ⟨m', hm', hbefore, hover⟩ hfree
    · exact hstop

theorem lt_length_of_between {offset : Nat} {piece : List Char} {r' : Reading}
    (h : Between piece (.start text offset) r') (hpiece : piece ≠ []) : offset < text.length := by
  have hahead : text.drop offset = piece ++ r'.ahead := h.ahead
  apply Nat.lt_of_not_le
  intro hle
  rw [List.drop_eq_nil_of_le hle] at hahead
  exact hpiece (List.append_eq_nil_iff.mp hahead.symm).1

theorem BeginsWith.lt_length {accepts : Char → Bool} {offset : Nat} (hp : BeginsWith accepts p)
    (h : p.matchAt text offset = some m) : offset < text.length := by
  obtain ⟨r', hr', _⟩ := exists_reaches_of_matchAt h
  obtain ⟨c, piece, _, hbetween⟩ := hp hr'
  exact lt_length_of_between hbetween (List.cons_ne_nil c piece)

end SolidityAudit.Pattern
