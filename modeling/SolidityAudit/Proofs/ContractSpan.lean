import SolidityAudit.Source.ContractSpan

/-!
# Owners of offsets

A table of stretches is built by entering one declaration after another, so it holds nothing but
stretches of declarations that were found. The owner of an offset is therefore one of the contracts
that were looked for, or the fallback.
-/

namespace SolidityAudit.Source

namespace SpanTable

theorem eq_or_mem_of_mem_insert {table : SpanTable} {name : String} {span : Span}
    {entry : String × Span} (h : entry ∈ table.insert name span) :
    entry = (name, span) ∨ entry ∈ table := by
  induction table with
  | nil => exact Or.inl (List.mem_singleton.mp h)
  | cons head rest ih =>
      simp only [insert] at h
      split at h
      · next heq =>
          rcases List.mem_cons.mp h with rfl | hrest
          · exact Or.inl (by rw [beq_iff_eq.mp heq])
          · exact Or.inr (List.mem_cons_of_mem head hrest)
      · rcases List.mem_cons.mp h with rfl | hrest
        · exact Or.inr List.mem_cons_self
        · exact (ih hrest).imp_right (List.mem_cons_of_mem head)

/-- Entering declarations one after another adds no stretch of its own. -/
theorem mem_of_mem_foldl_insert {entries : List (String × Span)} {table : SpanTable}
    {entry : String × Span}
    (h : entry ∈ entries.foldl (fun table (name, span) => table.insert name span) table) :
    entry ∈ entries ∨ entry ∈ table := by
  induction entries generalizing table with
  | nil => exact Or.inr h
  | cons first rest ih =>
      rcases ih h with hrest | htable
      · exact Or.inl (List.mem_cons_of_mem first hrest)
      · rcases eq_or_mem_of_mem_insert htable with rfl | hmem
        · exact Or.inl List.mem_cons_self
        · exact Or.inr hmem

theorem exists_span_of_owner?_eq_some {table : SpanTable} {offset : Int} {name : String}
    (h : table.owner? offset = some name) :
    ∃ span, (name, span) ∈ table ∧ span.contains offset = true := by
  obtain ⟨⟨n, span⟩, hfind, rfl⟩ := Option.map_eq_some_iff.mp h
  exact ⟨span, List.mem_of_find?_eq_some hfind, by simpa using List.find?_some hfind⟩

end SpanTable

theorem exists_start_of_mem_spansOfStarts {length : Nat} {starts : List (Nat × String)}
    {name : String} {span : Span} (h : (name, span) ∈ spansOfStarts length starts) :
    (span.start, name) ∈ starts := by
  fun_induction spansOfStarts length starts with
  | case1 => cases h
  | case2 start n =>
      cases List.mem_singleton.mp h
      exact List.mem_singleton_self _
  | case3 start n next other rest ih =>
      rcases List.mem_cons.mp h with heq | hrest
      · cases heq
        exact List.mem_cons_self
      · exact List.mem_cons_of_mem _ (ih hrest)

theorem mem_declarationStarts {source : List Char} {contracts : List ContractDecl} {start : Nat}
    {name : String} :
    (start, name) ∈ declarationStarts source contracts ↔
      ∃ c ∈ contracts, declarationStart? source c = some start ∧ c.name = name := by
  simp only [declarationStarts, List.mem_mergeSort, List.mem_filterMap, Option.map_eq_some_iff,
    Prod.mk.injEq]
  constructor
  · rintro ⟨c, hc, s, hs, rfl, rfl⟩
    exact ⟨c, hc, hs, rfl⟩
  · rintro ⟨c, hc, hs, rfl⟩
    exact ⟨c, hc, start, hs, rfl, rfl⟩

/-- A stretch in the table of a source begins at the declaration of a contract with its name. -/
theorem exists_declaration_of_mem_contractSpans {source : List Char}
    {contracts : List ContractDecl} {name : String} {span : Span}
    (h : (name, span) ∈ contractSpans source contracts) :
    ∃ c ∈ contracts, declarationStart? source c = some span.start ∧ c.name = name := by
  rcases SpanTable.mem_of_mem_foldl_insert h with hspan | hnil
  · exact mem_declarationStarts.mp (exists_start_of_mem_spansOfStarts hspan)
  · cases hnil

/-- The owner of an offset is a contract that was looked for, if the fallback is one. -/
theorem ownerOr_contractSpans_mem {source : List Char} {contracts : List ContractDecl}
    {fallback : String} (hfallback : fallback ∈ contracts.map (·.name)) (offset : Int) :
    (contractSpans source contracts).ownerOr offset fallback ∈ contracts.map (·.name) := by
  unfold SpanTable.ownerOr
  cases howner : (contractSpans source contracts).owner? offset with
  | none => exact hfallback
  | some name =>
      obtain ⟨span, hspan, _⟩ := SpanTable.exists_span_of_owner?_eq_some howner
      obtain ⟨c, hc, _, rfl⟩ := exists_declaration_of_mem_contractSpans hspan
      exact List.mem_map_of_mem hc

end SolidityAudit.Source
