import Mathlib.Data.List.Forall2
import SolidityAudit.SourceUnit.Load

/-!
# What a loaded unit satisfies

A check that passes is taken apart into the checks of its parts, and put together from them. From
this it follows that every function of a unit that was read starts on a line, counted from one.
-/

namespace SolidityAudit

deriving instance DecidableEq for Checked

namespace Checked

variable {α β : Type}

theorem seq_eq_apply (f : Checked (α → β)) (a : Checked α) : (f <*> a) = f.apply a := rfl

theorem functorMap_eq_map (f : α → β) (a : Checked α) : (f <$> a) = a.map f := rfl

theorem map_eq_ok_iff {f : α → β} {a : Checked α} {b : β} :
    a.map f = ok b ↔ ∃ x, a = ok x ∧ f x = b := by
  cases a <;> simp [map]

theorem apply_eq_ok_iff {f : Checked (α → β)} {a : Checked α} {b : β} :
    f.apply a = ok b ↔ ∃ g x, f = ok g ∧ a = ok x ∧ g x = b := by
  cases f <;> cases a <;> simp [apply]

theorem andThen_eq_ok_iff {a : Checked α} {next : α → Checked β} {b : β} :
    a.andThen next = ok b ↔ ∃ x, a = ok x ∧ next x = ok b := by
  cases a <;> simp [andThen]

theorem under_eq_ok_iff {step : Step} {a : Checked α} {x : α} :
    a.under step = ok x ↔ a = ok x := by
  cases a <;> simp [under]

theorem map_ok {f : α → β} {x : Checked α} {a : α} (h : x = ok a) : x.map f = ok (f a) := by
  rw [h, map]

theorem apply_ok {f : Checked (α → β)} {g : α → β} {x : Checked α} {a : α} (hf : f = ok g)
    (hx : x = ok a) : f.apply x = ok (g a) := by
  rw [hf, hx, apply]

/-- The items of a list pass if each of them passes. -/
theorem items_eq_ok_iff {check : β → Checked α} {position : Nat} {bs : List β} {as : List α} :
    items check position bs = ok as ↔ List.Forall₂ (fun b a => check b = ok a) bs as := by
  constructor
  · intro h
    induction bs generalizing position as with
    | nil =>
        cases h
        exact .nil
    | cons b rest ih =>
        obtain ⟨cons, tail, hb, htail, rfl⟩ := apply_eq_ok_iff.mp h
        obtain ⟨head, hhead, rfl⟩ := map_eq_ok_iff.mp hb
        exact .cons (under_eq_ok_iff.mp hhead) (ih htail)
  · intro h
    induction h generalizing position with
    | nil => rfl
    | cons hb _ ih => exact apply_ok (map_ok (under_eq_ok_iff.mpr hb)) ih

theorem exists_json_of_list_eq_ok {item : Json → Checked α} {v : Json} {as : List α}
    (h : list item v = ok as) : ∀ a ∈ as, ∃ w, item w = ok a := by
  cases v with
  | list vs =>
      intro a ha
      have hitems := items_eq_ok_iff.mp h
      clear h
      induction hitems with
      | nil => cases ha
      | cons hb _ ih =>
          rcases List.mem_cons.mp ha with rfl | ha
          · exact ⟨_, hb⟩
          · exact ih ha
  | null | bool _ | int _ | real _ | str _ | object _ => simp [list, fail] at h

theorem exists_members_of_record_eq_ok {members : Json.Members → Checked α} {v : Json} {a : α}
    (h : record members v = ok a) : ∃ ms, members ms = ok a := by
  cases v with
  | object ms => exact ⟨ms, h⟩
  | null | bool _ | int _ | real _ | str _ | list _ => simp [record, fail] at h

/-- A member that may be left out has its default, or it passed its check. -/
theorem optional_eq_ok {ms : Json.Members} {spellings : List String} {value : Json → Checked α}
    {default a : α} (h : optional ms spellings value default = ok a) :
    a = default ∨ ∃ v, value v = ok a := by
  unfold optional at h
  split at h
  · exact Or.inr ⟨_, under_eq_ok_iff.mp h⟩
  · cases h
    exact Or.inl rfl

theorem choice_eq_ok {ofTag? : String → Option α} {tag : String} {a : α} (h : ofTag? tag = some a) :
    choice ofTag? (.str tag) = ok a := by
  simp [choice, h]

theorem positive_int {n : Nat} (h : 1 ≤ n) : positive (.int n) = ok n := by
  have hn : (1 : Int) ≤ n := by omega
  simp [positive, whole, andThen, hn]

theorem one_le_of_positive_eq_ok {v : Json} {n : Nat} (h : positive v = ok n) : 1 ≤ n := by
  obtain ⟨k, _, hk⟩ := andThen_eq_ok_iff.mp h
  split at hk
  · cases hk
    omega
  · simp [fail] at hk

end Checked

open Checked

namespace FunctionDecl

theorem one_le_lineStart_of_load {v : Json} {f : FunctionDecl} (h : load v = .ok f) :
    1 ≤ f.lineStart := by
  obtain ⟨ms, hms⟩ := exists_members_of_record_eq_ok h
  obtain ⟨make, line, hmake, hline, rfl⟩ := apply_eq_ok_iff.mp hms
  have hfield : (make line).lineStart = line := by
    simp only [seq_eq_apply, functorMap_eq_map, apply_eq_ok_iff, map_eq_ok_iff] at hmake
    obtain ⟨_, _, ⟨_, _, ⟨_, _, ⟨_, _, ⟨_, _, ⟨_, _, rfl⟩, _, rfl⟩, _, rfl⟩, _, rfl⟩, _, rfl⟩, _,
      rfl⟩ := hmake
    rfl
  rw [hfield]
  rcases optional_eq_ok hline with rfl | ⟨w, hw⟩
  · exact Nat.le_refl 1
  · exact one_le_of_positive_eq_ok hw

end FunctionDecl

namespace ContractDecl

theorem exists_load_function {v : Json} {c : ContractDecl} (h : load v = .ok c)
    {f : FunctionDecl} (hf : f ∈ c.functions) : ∃ w, FunctionDecl.load w = .ok f := by
  obtain ⟨ms, hms⟩ := exists_members_of_record_eq_ok h
  obtain ⟨make, functions, hmake, hfunctions, rfl⟩ := apply_eq_ok_iff.mp hms
  have hfield : (make functions).functions = functions := by
    simp only [seq_eq_apply, functorMap_eq_map, apply_eq_ok_iff, map_eq_ok_iff] at hmake
    obtain ⟨_, _, ⟨_, _, ⟨_, _, ⟨_, _, rfl⟩, _, rfl⟩, _, rfl⟩, _, rfl⟩ := hmake
    rfl
  rw [hfield] at hf
  rcases optional_eq_ok hfunctions with rfl | ⟨w, hw⟩
  · cases hf
  · exact exists_json_of_list_eq_ok hw f hf

end ContractDecl

namespace SourceUnit

def LinesFromOne (u : SourceUnit) : Prop :=
  ∀ c ∈ u.contracts, ∀ f ∈ c.functions, 1 ≤ f.lineStart

theorem exists_load_contract {v : Json} {u : SourceUnit} (h : load v = .ok u)
    {c : ContractDecl} (hc : c ∈ u.contracts) : ∃ w, ContractDecl.load w = .ok c := by
  obtain ⟨ms, hms⟩ := exists_members_of_record_eq_ok h
  obtain ⟨make, name, hmake, _, rfl⟩ := apply_eq_ok_iff.mp hms
  obtain ⟨make', contracts, hmake', hcontracts, rfl⟩ := apply_eq_ok_iff.mp hmake
  have hfield : (make' contracts name).contracts = contracts := by
    simp only [seq_eq_apply, functorMap_eq_map, apply_eq_ok_iff, map_eq_ok_iff] at hmake'
    obtain ⟨_, _, ⟨_, _, rfl⟩, _, rfl⟩ := hmake'
    rfl
  rw [hfield] at hc
  rcases optional_eq_ok hcontracts with rfl | ⟨w, hw⟩
  · cases hc
  · exact exists_json_of_list_eq_ok hw c hc

theorem linesFromOne_of_load {v : Json} {u : SourceUnit} (h : load v = .ok u) :
    u.LinesFromOne := by
  intro c hc f hf
  obtain ⟨w, hw⟩ := exists_load_contract h hc
  obtain ⟨w', hw'⟩ := ContractDecl.exists_load_function hw hf
  exact FunctionDecl.one_le_lineStart_of_load hw'

theorem linesFromOne_of_loadText {text : List Char} {u : SourceUnit} (h : loadText text = .ok u) :
    u.LinesFromOne := by
  unfold loadText at h
  split at h
  · exact linesFromOne_of_load h
  · simp [fail] at h

theorem linesFromOne_of_loadPayload {v : Json} {u : SourceUnit} (h : loadPayload v = .ok u) :
    u.LinesFromOne := by
  cases v with
  | str s => exact linesFromOne_of_loadText h
  | null | bool _ | int _ | real _ | list _ | object _ => exact linesFromOne_of_load h

end SourceUnit
end SolidityAudit
