import Mathlib.Data.List.Pairwise
import SolidityAudit.Proofs.ContractSpan
import SolidityAudit.Proofs.Search

/-!
# Stretches of contracts do not overlap

The declarations found are sorted by offset, and each stretch ends where the next begins. So no two
stretches share an offset, also after a later entry for a name has taken the place of an earlier one.
Where no name is found twice, nothing is lost and the stretches fill the source from the first
declaration on. The sort leaves no choice between declarations at one offset, so the table does not
depend on the order in which the contracts are listed.
-/

namespace SolidityAudit

namespace Span

variable {s t : Span}

theorem contains_iff {offset : Int} :
    s.contains offset = true ↔ s.start ≤ offset ∧ offset < s.stop := by
  simp [contains]

def Disjoint (s t : Span) : Prop :=
  ∀ offset : Int, ¬ (s.contains offset = true ∧ t.contains offset = true)

theorem Disjoint.symm (h : s.Disjoint t) : t.Disjoint s :=
  fun offset hboth => h offset hboth.symm

theorem disjoint_of_stop_le (h : s.stop ≤ t.start) : s.Disjoint t := by
  rintro offset ⟨hs, ht⟩
  rw [contains_iff] at hs ht
  omega

end Span

namespace Source

variable {source : List Char} {contracts : List ContractDecl} {length start : Nat}
  {starts : List (Nat × String)} {name : String} {span : Span} {offset : Int}

/-! ## The order of the declarations -/

theorem orderedStarts_iff {a b : Nat × String} :
    (decide (a.1 < b.1) || (a.1 == b.1 && !decide (b.2 < a.2))) = true ↔
      a.1 < b.1 ∨ a.1 = b.1 ∧ a.2 ≤ b.2 := by
  rw [Bool.or_eq_true, decide_eq_true_eq, Bool.and_eq_true, beq_iff_eq, Bool.not_eq_true',
    decide_eq_false_iff_not, String.not_lt]

theorem declarationStarts_sorted (source : List Char) (contracts : List ContractDecl) :
    (declarationStarts source contracts).Pairwise fun a b => a.1 < b.1 ∨ a.1 = b.1 ∧ a.2 ≤ b.2 := by
  refine (List.pairwise_mergeSort ?_ ?_ _).imp orderedStarts_iff.mp
  · intro a b c hab hbc
    rw [orderedStarts_iff] at hab hbc ⊢
    rcases hab with hab | ⟨hab, hnames⟩ <;> rcases hbc with hbc | ⟨hbc, hnames'⟩
    · exact Or.inl (by omega)
    · exact Or.inl (by omega)
    · exact Or.inl (by omega)
    · exact Or.inr ⟨by omega, String.le_trans hnames hnames'⟩
  · intro a b
    rw [Bool.or_eq_true, orderedStarts_iff, orderedStarts_iff]
    rcases Nat.lt_trichotomy a.1 b.1 with hlt | heq | hgt
    · exact Or.inl (Or.inl hlt)
    · rcases String.le_total a.2 b.2 with hle | hle
      · exact Or.inl (Or.inr ⟨heq, hle⟩)
      · exact Or.inr (Or.inr ⟨heq.symm, hle⟩)
    · exact Or.inr (Or.inl hgt)

theorem declarationStarts_increase (source : List Char) (contracts : List ContractDecl) :
    (declarationStarts source contracts).Pairwise fun a b => a.1 ≤ b.1 :=
  (declarationStarts_sorted source contracts).imp fun h => by omega

theorem declarationStart?_le_length {c : ContractDecl}
    (h : declarationStart? source c = some start) : start ≤ source.length := by
  obtain ⟨m, hm, rfl⟩ := Option.map_eq_some_iff.mp h
  rw [Option.orElse_eq_orElse, Option.orElse_eq_or, Option.or_eq_some_iff] at hm
  rcases hm with hm | ⟨_, hm⟩
  · exact (Pattern.matchAt_of_find? hm).2
  · exact (Pattern.matchAt_of_find? hm).2

theorem declarationStarts_le_length :
    ∀ s ∈ declarationStarts source contracts, s.1 ≤ source.length := by
  rintro ⟨start, name⟩ hs
  obtain ⟨c, _, hc, _⟩ := mem_declarationStarts.mp hs
  exact declarationStart?_le_length hc

/-! ## Stretches between declarations -/

theorem spansOfStarts_within (hsorted : starts.Pairwise fun a b => a.1 ≤ b.1)
    (hlength : ∀ s ∈ starts, s.1 ≤ length) :
    ∀ entry ∈ spansOfStarts length starts,
      entry.2.start ≤ entry.2.stop ∧ entry.2.stop ≤ length := by
  fun_induction spansOfStarts length starts with
  | case1 => simp
  | case2 start name => simpa using hlength
  | case3 start name next other rest ih =>
      obtain ⟨hfirst, hrest⟩ := List.pairwise_cons.mp hsorted
      obtain ⟨_, hlength⟩ := List.forall_mem_cons.mp hlength
      refine List.forall_mem_cons.mpr ⟨⟨?_, ?_⟩, ih hrest hlength⟩
      · exact hfirst (next, other) List.mem_cons_self
      · exact hlength (next, other) List.mem_cons_self

theorem spansOfStarts_follow (hsorted : starts.Pairwise fun a b => a.1 ≤ b.1) :
    (spansOfStarts length starts).Pairwise fun a b => a.2.stop ≤ b.2.start := by
  fun_induction spansOfStarts length starts with
  | case1 => exact .nil
  | case2 start name => exact List.pairwise_singleton _ _
  | case3 start name next other rest ih =>
      obtain ⟨_, hrest⟩ := List.pairwise_cons.mp hsorted
      refine List.pairwise_cons.mpr ⟨?_, ih hrest⟩
      rintro ⟨n, span⟩ hmem
      rcases List.mem_cons.mp (exists_start_of_mem_spansOfStarts hmem) with heq | hlater
      · exact Nat.le_of_eq (congrArg Prod.fst heq).symm
      · exact (List.pairwise_cons.mp hrest).1 _ hlater

theorem exists_contains_spansOfStarts_iff (hsorted : starts.Pairwise fun a b => a.1 ≤ b.1)
    (hlength : ∀ s ∈ starts, s.1 ≤ length) :
    (∃ entry ∈ spansOfStarts length starts, entry.2.contains offset = true) ↔
      (∃ s ∈ starts, (s.1 : Int) ≤ offset) ∧ offset < length := by
  simp only [Span.contains_iff]
  fun_induction spansOfStarts length starts with
  | case1 => simp
  | case2 start name => simp
  | case3 start name next other rest ih =>
      obtain ⟨hfirst, hrest⟩ := List.pairwise_cons.mp hsorted
      obtain ⟨_, hlength⟩ := List.forall_mem_cons.mp hlength
      have hnext : start ≤ next := hfirst (next, other) List.mem_cons_self
      have hbound : next ≤ length := hlength (next, other) List.mem_cons_self
      rw [List.exists_mem_cons_iff, ih hrest hlength]
      constructor
      · rintro (⟨hlow, hhigh⟩ | ⟨⟨s, hs, hlow⟩, hhigh⟩)
        · exact ⟨⟨_, List.mem_cons_self, hlow⟩, by dsimp only at hhigh; omega⟩
        · exact ⟨⟨s, List.mem_cons_of_mem _ hs, hlow⟩, hhigh⟩
      · rintro ⟨⟨s, hs, hlow⟩, hhigh⟩
        by_cases hbefore : offset < next
        · refine Or.inl ⟨?_, hbefore⟩
          rcases List.mem_cons.mp hs with rfl | hs
          · exact hlow
          · have := hfirst s hs
            dsimp only at this ⊢
            omega
        · exact Or.inr ⟨⟨(next, other), List.mem_cons_self, by dsimp only; omega⟩, hhigh⟩

theorem map_fst_spansOfStarts (length : Nat) (starts : List (Nat × String)) :
    (spansOfStarts length starts).map (·.1) = starts.map (·.2) := by
  fun_induction spansOfStarts length starts with
  | case1 => rfl
  | case2 start name => rfl
  | case3 start name next other rest ih => exact congrArg (name :: ·) ih

/-! ## The table -/

namespace SpanTable

variable {table : SpanTable} {entries : List (String × Span)}

theorem map_fst_insert (table : SpanTable) (name : String) (span : Span) :
    (table.insert name span).map (·.1) =
      if name ∈ table.map (·.1) then table.map (·.1) else table.map (·.1) ++ [name] := by
  induction table with
  | nil => rfl
  | cons head rest ih =>
      simp only [insert]
      by_cases heq : head.1 = name
      · simp [heq]
      · have hne : name ≠ head.1 := fun h => heq h.symm
        by_cases hmem : name ∈ rest.map (·.1) <;> simp_all

theorem nodup_foldl_insert (h : (table.map (·.1)).Nodup) :
    ((entries.foldl (fun table (name, span) => table.insert name span) table).map (·.1)).Nodup := by
  induction entries generalizing table with
  | nil => exact h
  | cons entry rest ih =>
      apply ih
      rw [map_fst_insert]
      split
      · exact h
      · next hnew =>
          refine List.nodup_append.mpr ⟨h, List.pairwise_singleton _ _, ?_⟩
          rintro a ha b hb rfl
          exact hnew (List.mem_singleton.mp hb ▸ ha)

theorem insert_of_notMem (h : name ∉ table.map (·.1)) :
    table.insert name span = table ++ [(name, span)] := by
  induction table with
  | nil => rfl
  | cons head rest ih =>
      rw [List.map_cons, List.mem_cons, not_or] at h
      have hne : (head.1 == name) = false := beq_eq_false_iff_ne.mpr (Ne.symm h.1)
      simp only [insert, hne, Bool.false_eq_true, if_false, List.cons_append]
      rw [ih h.2]

/-- Entries with new names are entered behind those that are there. -/
theorem foldl_insert_of_nodup (h : ((table ++ entries).map (·.1)).Nodup) :
    entries.foldl (fun table (name, span) => table.insert name span) table = table ++ entries := by
  induction entries generalizing table with
  | nil => simp
  | cons entry rest ih =>
      have hnew : entry.1 ∉ table.map (·.1) := by
        intro hmem
        rw [List.map_append, List.nodup_append] at h
        exact h.2.2 _ hmem _ List.mem_cons_self rfl
      have hhead : table.insert entry.1 entry.2 = table ++ [entry] := insert_of_notMem hnew
      rw [List.foldl_cons]
      change rest.foldl _ (table.insert entry.1 entry.2) = _
      rw [hhead, ih (by simpa using h), List.append_assoc, List.singleton_append]

def Owns (table : SpanTable) (name : String) (offset : Int) : Prop :=
  ∃ span, (name, span) ∈ table ∧ span.contains offset = true

/-- Different entries have different names and share no offset. -/
def Separate (table : SpanTable) : Prop :=
  table.Pairwise fun a b => a.1 ≠ b.1 ∧ a.2.Disjoint b.2

theorem Separate.owns_unique (h : table.Separate) {other : String} (hname : table.Owns name offset)
    (hother : table.Owns other offset) : name = other := by
  obtain ⟨span, hmem, hin⟩ := hname
  obtain ⟨span', hmem', hin'⟩ := hother
  by_contra hne
  have : Std.Symm fun a b : String × Span => a.1 ≠ b.1 ∧ a.2.Disjoint b.2 :=
    ⟨fun _ _ hab => ⟨hab.1.symm, hab.2.symm⟩⟩
  have hdisjoint := List.Pairwise.forall h hmem hmem' (fun heq => hne (congrArg Prod.fst heq))
  exact hdisjoint.2 offset ⟨hin, hin'⟩

theorem exists_owns_of_owner? (h : table.owner? offset = some name) : table.Owns name offset :=
  exists_span_of_owner?_eq_some h

theorem owner?_eq_none_iff : table.owner? offset = none ↔ ¬ ∃ name, table.Owns name offset := by
  simp [owner?, Owns]

/-- Which entry comes first does not matter where at most one contract owns an offset. -/
theorem Separate.owner?_eq_some_iff (h : table.Separate) :
    table.owner? offset = some name ↔ table.Owns name offset := by
  refine ⟨exists_owns_of_owner?, fun hname => ?_⟩
  cases howner : table.owner? offset with
  | none => exact absurd ⟨name, hname⟩ (owner?_eq_none_iff.mp howner)
  | some other => rw [h.owns_unique hname (exists_owns_of_owner? howner)]

theorem Separate.owner?_of_perm (h : table.Separate) {table' : SpanTable}
    (hperm : table'.Perm table) (offset : Int) : table'.owner? offset = table.owner? offset := by
  have h' : table'.Separate :=
    (hperm.pairwise_iff fun hab => ⟨hab.1.symm, hab.2.symm⟩).mpr h
  ext name
  rw [h.owner?_eq_some_iff, h'.owner?_eq_some_iff]
  simp only [Owns, hperm.mem_iff]

end SpanTable

/-! ## The table of a source -/

def foundNames (source : List Char) (contracts : List ContractDecl) : List String :=
  (contracts.filter fun c => (declarationStart? source c).isSome).map (·.name)

/-- The offset lies in the source, and a declaration is found at it or before it. -/
def FromFirstDeclaration (source : List Char) (contracts : List ContractDecl) (offset : Int) : Prop :=
  (∃ c ∈ contracts, ∃ start, declarationStart? source c = some start ∧ (start : Int) ≤ offset) ∧
    offset < source.length

theorem foundNames_perm : ((declarationStarts source contracts).map (·.2)).Perm
    (foundNames source contracts) := by
  have hfound : (contracts.filterMap fun c => (declarationStart? source c).map (·, c.name)).map
      (·.2) = foundNames source contracts := by
    unfold foundNames
    induction contracts with
    | nil => rfl
    | cons c rest ih => cases hc : declarationStart? source c <;> simp [hc, ih]
  rw [← hfound]
  exact (List.mergeSort_perm _ _).map _

theorem mem_spansOfStarts_of_mem_contractSpans {entry : String × Span}
    (h : entry ∈ contractSpans source contracts) :
    entry ∈ spansOfStarts source.length (declarationStarts source contracts) := by
  rcases SpanTable.mem_of_mem_foldl_insert h with hmem | hnil
  · exact hmem
  · cases hnil

theorem contractSpans_separate (source : List Char) (contracts : List ContractDecl) :
    (contractSpans source contracts).Separate := by
  have hnames : (contractSpans source contracts).Pairwise fun a b => a.1 ≠ b.1 :=
    List.pairwise_map.mp (@SpanTable.nodup_foldl_insert [] _ List.nodup_nil)
  have : Std.Symm fun a b : String × Span => a.2.Disjoint b.2 := ⟨fun _ _ h => h.symm⟩
  have hdisjoint : (spansOfStarts source.length (declarationStarts source contracts)).Pairwise
      fun a b => a.2.Disjoint b.2 :=
    (spansOfStarts_follow (declarationStarts_increase source contracts)).imp
      Span.disjoint_of_stop_le
  refine hnames.imp_of_mem ?_
  intro a b ha hb hne
  refine ⟨hne, List.Pairwise.forall hdisjoint (mem_spansOfStarts_of_mem_contractSpans ha)
    (mem_spansOfStarts_of_mem_contractSpans hb) ?_⟩
  rintro rfl
  exact hne rfl

theorem exists_owns_iff_of_nodup (h : (foundNames source contracts).Nodup) :
    (∃ name, (contractSpans source contracts).Owns name offset) ↔
      FromFirstDeclaration source contracts offset := by
  have hnodup : ((spansOfStarts source.length (declarationStarts source contracts)).map
      (·.1)).Nodup := by
    rw [map_fst_spansOfStarts]
    exact foundNames_perm.nodup_iff.mpr h
  have htable : contractSpans source contracts =
      spansOfStarts source.length (declarationStarts source contracts) :=
    @SpanTable.foldl_insert_of_nodup [] _ hnodup
  have hcover := @exists_contains_spansOfStarts_iff source.length _ offset
    (declarationStarts_increase source contracts) declarationStarts_le_length
  rw [← htable] at hcover
  have howns : (∃ name, (contractSpans source contracts).Owns name offset) ↔
      ∃ entry ∈ contractSpans source contracts, entry.2.contains offset = true := by
    simp [SpanTable.Owns]
  have hstarts : (∃ s ∈ declarationStarts source contracts, (s.1 : Int) ≤ offset) ↔
      ∃ c ∈ contracts, ∃ start, declarationStart? source c = some start ∧ (start : Int) ≤ offset := by
    simp only [Prod.exists, mem_declarationStarts]
    constructor
    · rintro ⟨start, _, ⟨c, hc, hstart, rfl⟩, hle⟩
      exact ⟨c, hc, start, hstart, hle⟩
    · rintro ⟨c, hc, start, hstart, hle⟩
      exact ⟨start, c.name, ⟨c, hc, hstart, rfl⟩, hle⟩
  rw [howns, hcover, hstarts, FromFirstDeclaration]

/-- The stretches lie in the source and share no offset, so the owner of an offset does not depend on
the order of the table. Where no name is found twice, each offset of the source from the first
declaration on has exactly one owner, and any other offset falls to the fallback. -/
theorem contractSpans_partition (source : List Char) (contracts : List ContractDecl) :
    (∀ entry ∈ contractSpans source contracts,
      entry.2.start ≤ entry.2.stop ∧ entry.2.stop ≤ source.length) ∧
    (contractSpans source contracts).Pairwise (fun a b => a.1 ≠ b.1 ∧ a.2.Disjoint b.2) ∧
    (∀ offset name, (contractSpans source contracts).owner? offset = some name ↔
      (contractSpans source contracts).Owns name offset) ∧
    (∀ table : SpanTable, table.Perm (contractSpans source contracts) → ∀ offset fallback,
      table.owner? offset = (contractSpans source contracts).owner? offset ∧
      table.ownerOr offset fallback = (contractSpans source contracts).ownerOr offset fallback) ∧
    ((foundNames source contracts).Nodup → ∀ offset,
      ((∃! name, (contractSpans source contracts).Owns name offset) ↔
        FromFirstDeclaration source contracts offset) ∧
      (¬ FromFirstDeclaration source contracts offset → ∀ fallback,
        (contractSpans source contracts).ownerOr offset fallback = fallback)) := by
  have hseparate := contractSpans_separate source contracts
  refine ⟨?_, hseparate, fun _ _ => hseparate.owner?_eq_some_iff, ?_, ?_⟩
  · intro entry hentry
    exact spansOfStarts_within (declarationStarts_increase source contracts)
      declarationStarts_le_length entry (mem_spansOfStarts_of_mem_contractSpans hentry)
  · intro table hperm offset fallback
    have howner := hseparate.owner?_of_perm hperm offset
    exact ⟨howner, by rw [SpanTable.ownerOr, howner, SpanTable.ownerOr]⟩
  · intro hnodup offset
    have hcover := @exists_owns_iff_of_nodup source contracts offset hnodup
    refine ⟨?_, ?_⟩
    · rw [← hcover]
      refine ⟨fun h => h.exists, ?_⟩
      rintro ⟨name, hname⟩
      exact ⟨name, hname, fun other hother => hseparate.owns_unique hother hname⟩
    · intro houtside fallback
      rw [← hcover] at houtside
      rw [SpanTable.ownerOr, SpanTable.owner?_eq_none_iff.mpr houtside, Option.getD_none]

/-- A comment before a library and a contract: the comment falls to the fallback, and the library's
text has one owner. -/
theorem contractSpans_partition_comment :
    let source := "//\nlibrary Math \x7b\x7d\ncontract Token \x7b\x7d".toList
    let contracts : List ContractDecl := [{ name := "Token" }, { name := "Math" }, { name := "None" }]
    (foundNames source contracts).Nodup ∧
      (∃! name, (contractSpans source contracts).Owns name 10) ∧
      (contractSpans source contracts).ownerOr 1 "Token" = "Token" := by
  intro source contracts
  have hnodup : (foundNames source contracts).Nodup := by decide +kernel
  have hmath : declarationStart? source { name := "Math" } = some 3 := by decide +kernel
  have hoffset := (contractSpans_partition source contracts).2.2.2.2 hnodup
  refine ⟨hnodup, (hoffset 10).1.mpr ⟨⟨_, ?_, 3, hmath, by decide⟩, by decide⟩, ?_⟩
  · exact List.mem_cons_of_mem _ List.mem_cons_self
  · apply (hoffset 1).2
    rintro ⟨⟨c, hc, start, hstart, hle⟩, _⟩
    have hlow : ∀ c ∈ contracts, (declarationStart? source c).all (3 ≤ ·) = true := by
      decide +kernel
    have := hlow c hc
    rw [hstart, Option.all_some, decide_eq_true_eq] at this
    omega

/-! ## The order of the contracts -/

variable {contracts' : List ContractDecl}

/-- Two declarations that may stand in either order are equal, so a sorted list of declarations is
determined by its entries. -/
theorem declarationStarts_eq_of_perm (source : List Char) (h : contracts.Perm contracts') :
    declarationStarts source contracts = declarationStarts source contracts' := by
  have hperm : (declarationStarts source contracts).Perm (declarationStarts source contracts') :=
    (List.mergeSort_perm _ _).trans ((h.filterMap _).trans (List.mergeSort_perm _ _).symm)
  refine List.Perm.eq_of_pairwise ?_ (declarationStarts_sorted source contracts)
    (declarationStarts_sorted source contracts') hperm
  rintro a b - - (hlt | ⟨hstart, hname⟩) (hlt' | ⟨hstart', hname'⟩)
  · omega
  · omega
  · omega
  · exact Prod.ext hstart (String.le_antisymm hname hname')

/-- Contracts listed in another order have the same table, entry by entry, and every offset has the
same owner, also where a name or a kind is listed more than once. -/
theorem contractSpans_ignore_listing (source : List Char) (h : contracts.Perm contracts') :
    contractSpans source contracts = contractSpans source contracts' ∧
    ∀ offset, (contractSpans source contracts).owner? offset =
        (contractSpans source contracts').owner? offset ∧
      ∀ fallback, (contractSpans source contracts).ownerOr offset fallback =
        (contractSpans source contracts').ownerOr offset fallback := by
  have htable : contractSpans source contracts = contractSpans source contracts' := by
    rw [contractSpans, declarationStarts_eq_of_perm source h, contractSpans]
  refine ⟨htable, fun offset => ⟨?_, fun fallback => ?_⟩⟩
  · rw [htable]
  · rw [htable]

/-- Two contracts with one name, of which the later one keeps its stretch, and two contracts that are
declared at one offset. -/
theorem contractSpans_ignore_listing_repeated :
    let source := "contract A \x7b\x7d library A \x7b\x7d interface B-C \x7b\x7d".toList
    let contracts : List ContractDecl := [
      { name := "A" }, { name := "A", kind := .library }, { name := "B", kind := .interface },
      { name := "B", kind := .library }, { name := "B-C", kind := .interface }]
    contracts.reverse.Perm contracts ∧
      contractSpans source contracts.reverse = contractSpans source contracts ∧
      contractSpans source contracts = [("A", ⟨14, 27⟩), ("B", ⟨27, 27⟩), ("B-C", ⟨27, 43⟩)] ∧
      (contractSpans source contracts.reverse).ownerOr 20 "B" = "A" := by
  intro source contracts
  have hperm : contracts.reverse.Perm contracts := List.reverse_perm contracts
  obtain ⟨hsame, howner⟩ := contractSpans_ignore_listing source hperm
  have htable : contractSpans source contracts =
      [("A", ⟨14, 27⟩), ("B", ⟨27, 27⟩), ("B-C", ⟨27, 43⟩)] := by
    rw [contractSpans, declarationStarts, List.mergeSort_of_pairwise (by decide +kernel)]
    decide +kernel
  refine ⟨hperm, hsame, htable, ?_⟩
  rw [(howner 20).2, htable]
  decide

end Source
end SolidityAudit
