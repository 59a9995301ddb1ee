import SolidityAudit.Proofs.Scanning
import SolidityAudit.Proofs.Search

/-!
# Scans of texts that follow one another

A pattern without word edges takes no notice of what stands before a match. Behind the first match of a
text its scan therefore goes on as a scan of the rest alone, with all offsets moved. The bound on the
repetitions is that of the longer text, but each bound that covers the text ahead gives the same result.
-/

namespace SolidityAudit

def Span.shift (n : Nat) (s : Span) : Span := ⟨n + s.start, n + s.stop⟩

theorem Span.text_shift (before part : List Char) (s : Span) :
    (s.shift before.length).text (before ++ part) = s.text part := by
  rw [Span.text, Span.text, Text.slice, Text.slice, Span.shift, List.drop_length_add_append,
    Nat.add_sub_add_left]

namespace Pattern

variable {p : Pattern} {r s : Reading} {n fuel fuel' : Nat}

def shiftGroups (n : Nat) (groups : List (String × Span)) : List (String × Span) :=
  groups.map fun entry => (entry.1, entry.2.shift n)

def Match.shift (n : Nat) (m : Match) : Match := ⟨m.span.shift n, shiftGroups n m.groups⟩

theorem lookup_shiftGroups (label : String) (groups : List (String × Span)) :
    (shiftGroups n groups).lookup label = (groups.lookup label).map (Span.shift n) := by
  induction groups with
  | nil => rfl
  | cons entry rest ih =>
      rw [shiftGroups, List.map_cons, List.lookup_cons, List.lookup_cons]
      cases label == entry.1 with
      | true => rfl
      | false => exact ih

theorem Match.group?_shift (before part : List Char) (m : Match) (label : String) :
    (m.shift before.length).group? (before ++ part) label = m.group? part label := by
  rw [Match.group?, Match.group?, Match.shift, lookup_shiftGroups, Option.map_map]
  congr 1
  funext span
  exact Span.text_shift before part span

/-! ## The search from a shifted place -/

def ignoresBefore : Pattern → Bool
  | seq p q | alt p q => p.ignoresBefore && q.ignoresBefore
  | many p | group _ p => p.ignoresBefore
  | wordEdge => false
  | nothing | one _ | textEnd | notBefore _ => true

/-- The place `s` is the place `r` with `n` more characters before it. -/
structure Shifted (n : Nat) (r s : Reading) : Prop where
  offset : s.offset = n + r.offset
  ahead : s.ahead = r.ahead
  groups : s.groups = shiftGroups n r.groups

theorem Shifted.remember (h : Shifted n r s) (label : String) (start : Nat) :
    Shifted n (r.remember label start) (s.remember label (n + start)) where
  offset := h.offset
  ahead := h.ahead
  groups := by
    change (label, Span.mk (n + start) s.offset) :: s.groups = _
    rw [h.offset, h.groups]
    rfl

section Run

variable {α β : Type} {f : α → β} {next : Reading → Option α} {next' : Reading → Option β}

/-- At the end of a text nothing is repeated that reads a character. -/
theorem runMany_of_ahead_nil {k : Nat} (hp : p.consumes = true) (hr : r.ahead = []) :
    runMany (p.run fuel) k r next = next r := by
  cases k with
  | zero => rfl
  | succ k =>
      have hnone : p.run fuel r (fun r' => runMany (p.run fuel) k r' next) = none := by
        rw [Option.eq_none_iff_forall_not_mem]
        intro a ha
        obtain ⟨r', hr', _⟩ := exists_reaches_of_run ha
        have hlt := length_lt_of_reaches hp hr'
        rw [hr] at hlt
        exact Nat.not_lt_zero _ hlt
      rw [runMany, hnone]
      rfl

theorem runMany_shift {k k' : Nat} (hp : p.consumes = true)
    (hstep : ∀ ⦃r s⦄ {next : Reading → Option α} {next' : Reading → Option β}, Shifted n r s →
      r.ahead.length ≤ fuel → r.ahead.length ≤ fuel' →
      (∀ r' s', p.Reaches r r' → Shifted n r' s' → next' s' = (next r').map f) →
      p.run fuel' s next' = (p.run fuel r next).map f)
    (h : Shifted n r s) (hk : r.ahead.length ≤ k) (hk' : r.ahead.length ≤ k') (hfuel : k ≤ fuel)
    (hfuel' : k' ≤ fuel')
    (hnext : ∀ r' s', (many p).Reaches r r' → Shifted n r' s' → next' s' = (next r').map f) :
    runMany (p.run fuel') k' s next' = (runMany (p.run fuel) k r next).map f := by
  induction k generalizing k' r s with
  | zero =>
      have hnil : r.ahead = [] := List.length_eq_zero_iff.mp (Nat.le_zero.mp hk)
      rw [runMany_of_ahead_nil hp (h.ahead.trans hnil), runMany]
      exact hnext r s .refl h
  | succ k ih =>
      cases k' with
      | zero =>
          have hnil : r.ahead = [] := List.length_eq_zero_iff.mp (Nat.le_zero.mp hk')
          rw [runMany_of_ahead_nil hp hnil, runMany]
          exact hnext r s .refl h
      | succ k' =>
          have hmore : p.run fuel' s (fun s' => runMany (p.run fuel') k' s' next') =
              (p.run fuel r fun r' => runMany (p.run fuel) k r' next).map f := by
            refine hstep h (by omega) (by omega) fun r' s' hfirst h' => ?_
            have hlt := length_lt_of_reaches hp hfirst
            exact ih h' (by omega) (by omega) (by omega) (by omega)
              fun r₁ s₁ hrest h₁ => hnext r₁ s₁ (.head hfirst hrest) h₁
          simp only [runMany, Option.orElse_eq_orElse, Option.orElse_eq_or, Option.map_or, hmore,
            hnext r s .refl h]

/-- From a place with more text before it the search takes the same way, with offsets moved, whatever
bounds are given that cover the text ahead. -/
theorem run_shift (hp : p.isProductive = true) (hignores : p.ignoresBefore = true)
    (h : Shifted n r s) (hfuel : r.ahead.length ≤ fuel) (hfuel' : r.ahead.length ≤ fuel')
    (hnext : ∀ r' s', p.Reaches r r' → Shifted n r' s' → next' s' = (next r').map f) :
    p.run fuel' s next' = (p.run fuel r next).map f := by
  induction p generalizing r s next next' with
  | nothing => exact hnext r s rfl h
  | one accepts =>
      unfold run
      rw [h.ahead]
      cases hahead : r.ahead with
      | nil => rfl
      | cons c rest =>
          by_cases hc : accepts c = true
          · have hplace : Shifted n ⟨r.offset + 1, some c, rest, r.groups⟩
                ⟨s.offset + 1, some c, rest, s.groups⟩ := by
              refine ⟨?_, rfl, h.groups⟩
              change s.offset + 1 = n + (r.offset + 1)
              rw [h.offset, Nat.add_assoc]
            simp only [hc, if_true]
            exact hnext _ _ ⟨c, rest, hahead, hc, rfl⟩ hplace
          · simp only [hc]
            rfl
  | seq p q ihp ihq =>
      obtain ⟨hp, hq⟩ := Bool.and_eq_true_iff.mp hp
      obtain ⟨hignores, hignores'⟩ := Bool.and_eq_true_iff.mp hignores
      refine ihp hp hignores h hfuel hfuel' fun r₁ s₁ hfirst h₁ => ?_
      have hle := length_le_of_reaches hfirst
      exact ihq hq hignores' h₁ (by omega) (by omega)
        fun r' s' hsecond => hnext r' s' ⟨r₁, hfirst, hsecond⟩
  | alt p q ihp ihq =>
      obtain ⟨hp, hq⟩ := Bool.and_eq_true_iff.mp hp
      obtain ⟨hignores, hignores'⟩ := Bool.and_eq_true_iff.mp hignores
      have hfirst := ihp hp hignores h hfuel hfuel' fun r' s' hr' => hnext r' s' (Or.inl hr')
      have hsecond := ihq hq hignores' h hfuel hfuel' fun r' s' hr' => hnext r' s' (Or.inr hr')
      simp only [run, Option.orElse_eq_orElse, Option.orElse_eq_or, Option.map_or, hfirst, hsecond]
  | many p ih =>
      obtain ⟨hconsumes, hp⟩ := Bool.and_eq_true_iff.mp hp
      exact runMany_shift hconsumes (fun _ _ _ _ h' => ih hp hignores h') h hfuel hfuel'
        (Nat.le_refl _) (Nat.le_refl _) hnext
  | wordEdge => cases hignores
  | textEnd =>
      have hend : s.atTextEnd = r.atTextEnd := by
        rw [Reading.atTextEnd, h.ahead, Reading.atTextEnd]
      unfold run
      rw [hend]
      cases hat : r.atTextEnd with
      | false => rfl
      | true => exact hnext r s ⟨hat, rfl⟩ h
  | notBefore refuses =>
      unfold run
      rw [h.ahead]
      cases hfree : r.ahead.head?.any refuses with
      | false => exact hnext r s ⟨hfree, rfl⟩ h
      | true => rfl
  | group label p ih =>
      refine ih hp hignores h hfuel hfuel' fun r' s' hr' h' => ?_
      rw [h.offset]
      exact hnext _ _ ⟨r', hr', rfl⟩ (h'.remember label r.offset)

end Run

/-! ## The scan behind a text -/

variable {before front u v rest : List Char} {m : Match} {skip : Nat}

theorem matchAt_append (hp : p.isProductive = true) (hignores : p.ignoresBefore = true)
    (before part : List Char) (k : Nat) : p.matchAt (before ++ part) (before.length + k) =
      (p.matchAt part k).map (Match.shift before.length) := by
  have hplace : Shifted before.length (.start part k)
      (.start (before ++ part) (before.length + k)) :=
    ⟨rfl, List.drop_length_add_append k, rfl⟩
  have hlength : (Reading.start part k).ahead.length ≤ part.length := by simp [Reading.start]
  have hmore : part.length ≤ (before ++ part).length := by simp
  refine run_shift hp hignores hplace hlength (Nat.le_trans hlength hmore) fun r' s' _ h' => ?_
  rw [Option.map_some, Match.shift, ← h'.groups, h'.offset]
  rfl

theorem scanFrom_append (hp : p.isProductive = true) (hignores : p.ignoresBefore = true)
    (before ahead : List Char) : p.scanFrom (before ++ front) skip ahead =
      (p.scanFrom front skip ahead).map (Match.shift before.length) := by
  induction ahead generalizing front skip with
  | nil => rfl
  | cons c ahead ih =>
      cases skip with
      | succ skip =>
          rw [scanFrom_cons_skip, scanFrom_cons_skip, List.append_assoc]
          exact ih
      | zero =>
          have hhere := matchAt_append hp hignores before (front ++ c :: ahead) front.length
          rw [← List.append_assoc, ← List.length_append] at hhere
          cases hat : p.matchAt (front ++ c :: ahead) front.length with
          | none =>
              rw [hat] at hhere
              rw [scanFrom_cons_of_none hhere, scanFrom_cons_of_none hat, List.append_assoc]
              exact ih
          | some m =>
              rw [hat] at hhere
              have hskip : (m.shift before.length).stop - (before ++ front).length - 1 =
                  m.stop - front.length - 1 := by
                rw [List.length_append]
                change before.length + m.stop - (before.length + front.length) - 1 = _
                rw [Nat.add_sub_add_left]
              rw [scanFrom_cons_of_some hhere, scanFrom_cons_of_some hat, List.append_assoc, hskip,
                List.map_cons]
              exact congrArg _ ih

theorem scanFrom_skip (before u rest : List Char) :
    p.scanFrom before u.length (u ++ rest) = p.scanFrom (before ++ u) 0 rest := by
  induction u generalizing before with
  | nil => rw [List.append_nil, List.nil_append, List.length_nil]
  | cons c u ih =>
      rw [List.length_cons, List.cons_append, scanFrom_cons_skip, ih, List.append_assoc,
        List.singleton_append]

theorem scanFrom_of_none
    (h : ∀ k < u.length, p.matchAt (before ++ (u ++ rest)) (before.length + k) = none) :
    p.scanFrom before 0 (u ++ rest) = p.scanFrom (before ++ u) 0 rest := by
  induction u generalizing before with
  | nil => rw [List.append_nil, List.nil_append]
  | cons c u ih =>
      have hhere : p.matchAt (before ++ c :: (u ++ rest)) before.length = none := h 0 (by simp)
      rw [List.cons_append, scanFrom_cons_of_none hhere, ih, List.append_assoc,
        List.singleton_append]
      intro k hk
      have hlater := h (k + 1) (by simpa using hk)
      rw [List.length_append, List.length_singleton, List.append_assoc, List.singleton_append,
        Nat.add_assoc, Nat.add_comm 1 k]
      exact hlater

/-- Behind its first match a text is scanned as the rest of it alone. -/
theorem findAll_of_first_match (hp : p.isProductive = true) (hignores : p.ignoresBefore = true)
    (hnone : ∀ k < u.length, p.matchAt (u ++ (v ++ rest)) k = none)
    (hmatch : p.matchAt (u ++ (v ++ rest)) u.length = some m)
    (hstop : m.stop = (u ++ v).length) (hv : v ≠ []) :
    p.findAll (u ++ (v ++ rest)) =
      m :: (p.findAll rest).map (Match.shift (u ++ v).length) := by
  obtain ⟨c, cs, rfl⟩ := List.exists_cons_of_ne_nil hv
  have hskip : m.stop - u.length - 1 = cs.length := by
    rw [hstop, List.length_append, List.length_cons]
    omega
  rw [List.cons_append] at hmatch
  change p.scanFrom [] 0 (u ++ (c :: cs ++ rest)) = _
  rw [scanFrom_of_none (by simpa using hnone), List.nil_append, List.cons_append,
    scanFrom_cons_of_some hmatch, hskip, scanFrom_skip, List.append_assoc, List.singleton_append]
  have hrest := @scanFrom_append p [] 0 hp hignores (u ++ c :: cs) rest
  rw [List.append_nil] at hrest
  exact congrArg _ hrest

end Pattern
end SolidityAudit
