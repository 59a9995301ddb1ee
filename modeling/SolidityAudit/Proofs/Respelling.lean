import SolidityAudit.Proofs.Loading
import SolidityAudit.Scan.Environment

/-!
# Spellings of keys

A unit is written with every key, and a key of several words may be spelled with underscores between
the words or without them. A unit that was read is read again from what is written of it, whichever
of its keys are respelled: a member is found under both spellings of its key, since no two keys of a
record share one.
-/

namespace SolidityAudit

namespace Json

def joinWords : List Char → List Char
  | '_' :: c :: rest => c.toUpper :: joinWords rest
  | c :: rest => c :: joinWords rest
  | [] => []

def joinedKey (key : String) : String := String.ofList (joinWords key.toList)

def spell (joined : Bool) (key : String) : String := if joined then joinedKey key else key

mutual

/-- A value with its keys respelled. The key at a path is joined where `joined` says so, and `place`
is the path to the value. -/
def respell (joined : List Step → Bool) (place : List Step) : Json → Json
  | list items => list (respellItems joined place 0 items)
  | object members => object (respellMembers joined place members)
  | v => v

def respellItems (joined : List Step → Bool) (place : List Step) (position : Nat) :
    List Json → List Json
  | [] => []
  | item :: rest =>
    respell joined (place ++ [.index position]) item ::
      respellItems joined place (position + 1) rest

def respellMembers (joined : List Step → Bool) (place : List Step) :
    List (String × Json) → List (String × Json)
  | [] => []
  | (key, value) :: rest =>
    (spell (joined (place ++ [.key key])) key, respell joined (place ++ [.key key]) value) ::
      respellMembers joined place rest

end

/-! ## No key joined -/

mutual

theorem respell_none (place : List Step) (v : Json) : respell (fun _ => false) place v = v := by
  cases v with
  | list items => rw [respell, respellItems_none]
  | object members => rw [respell, respellMembers_none]
  | null | bool _ | int _ | real _ | str _ => rfl

theorem respellItems_none (place : List Step) (position : Nat) (items : List Json) :
    respellItems (fun _ => false) place position items = items := by
  cases items with
  | nil => rfl
  | cons item rest => rw [respellItems, respell_none, respellItems_none]

theorem respellMembers_none (place : List Step) (members : Members) :
    respellMembers (fun _ => false) place members = members := by
  cases members with
  | nil => rfl
  | cons m rest =>
      obtain ⟨key, value⟩ := m
      rw [respellMembers, respell_none, respellMembers_none]
      rfl

end

/-! ## Members under both spellings -/

def IsSpelling (key s : String) : Prop := s = key ∨ s = joinedKey key

instance (key s : String) : Decidable (IsSpelling key s) := inferInstanceAs (Decidable (_ ∨ _))

theorem isSpelling_spell (joined : Bool) (key : String) : IsSpelling key (spell joined key) := by
  cases joined with
  | false => exact Or.inl rfl
  | true => exact Or.inr rfl

def Apart (key key' : String) : Prop := ¬ IsSpelling key key' ∧ ¬ IsSpelling key (joinedKey key')

instance (key key' : String) : Decidable (Apart key key') := inferInstanceAs (Decidable (_ ∧ _))

theorem Apart.not_isSpelling {key key' s : String} (h : Apart key key') (hs : IsSpelling key s) :
    ¬ IsSpelling key' s := by
  rintro (rfl | rfl)
  · exact h.1 hs
  · exact h.2 hs

/-- A list holds both spellings of a key and nothing else. -/
def Spells (key : String) (spellings : List String) : Prop :=
  key ∈ spellings ∧ joinedKey key ∈ spellings ∧ ∀ s ∈ spellings, IsSpelling key s

instance (key : String) (spellings : List String) : Decidable (Spells key spellings) :=
  inferInstanceAs (Decidable (_ ∧ _ ∧ _))

theorem Spells.spell_mem {key : String} {spellings : List String} (h : Spells key spellings)
    (joined : Bool) : spell joined key ∈ spellings := by
  cases joined with
  | false => exact h.1
  | true => exact h.2.1

variable {joined : List Step → Bool} {place : List Step} {ms : Members} {key s : String}
  {v w : Json}

theorem respellMembers_eq_map (joined : List Step → Bool) (place : List Step) (ms : Members) :
    respellMembers joined place ms = ms.map fun m =>
      (spell (joined (place ++ [.key m.1])) m.1, respell joined (place ++ [.key m.1]) m.2) := by
  induction ms with
  | nil => rfl
  | cons m rest ih => rw [respellMembers, ih, List.map_cons]

/-- A respelled member is found under the spelling that its key has. -/
theorem get?_respellMembers (h : (ms.map (·.1)).Pairwise Apart) (hv : ms.get? key = some v) :
    Members.get? (respellMembers joined place ms) (spell (joined (place ++ [.key key])) key) =
      some (respell joined (place ++ [.key key]) v) := by
  obtain ⟨before, after, rfl, _⟩ := List.lookup_eq_some_iff.mp hv
  have hbefore := (List.pairwise_append.mp (List.pairwise_map.mp h)).2.2
  rw [respellMembers_eq_map, List.map_append, List.map_cons]
  refine List.lookup_eq_some_iff.mpr ⟨_, _, rfl, ?_⟩
  rintro p hp
  obtain ⟨m, hm, rfl⟩ := List.mem_map.mp hp
  have hapart := hbefore m hm (key, v) List.mem_cons_self
  have hspelled := isSpelling_spell (joined (place ++ [.key m.1])) m.1
  rw [bne_iff_ne]
  intro (heq : spell _ key = spell _ m.1)
  rw [← heq] at hspelled
  exact hapart.not_isSpelling hspelled (isSpelling_spell _ key)

/-- What is found under a spelling of a key is the respelled member with this key. -/
theorem eq_of_get?_respellMembers (h : (ms.map (·.1)).Pairwise Apart) (hv : ms.get? key = some v)
    (hs : IsSpelling key s) (hw : Members.get? (respellMembers joined place ms) s = some w) :
    w = respell joined (place ++ [.key key]) v := by
  obtain ⟨before, after, rfl, _⟩ := List.lookup_eq_some_iff.mp hv
  obtain ⟨_, hafter, hbefore⟩ := List.pairwise_append.mp (List.pairwise_map.mp h)
  have hmem : (s, w) ∈ respellMembers joined place (before ++ (key, v) :: after) := by
    obtain ⟨_, _, heq, _⟩ := List.lookup_eq_some_iff.mp hw
    rw [heq]
    simp
  rw [respellMembers_eq_map] at hmem
  obtain ⟨m, hm, heq⟩ := List.mem_map.mp hmem
  obtain ⟨rfl, rfl⟩ := Prod.mk.inj heq
  have hspelled := isSpelling_spell (joined (place ++ [.key m.1])) m.1
  rcases List.mem_append.mp hm with hm | hm
  · exact absurd hs ((hbefore m hm (key, v) List.mem_cons_self).not_isSpelling hspelled)
  · rcases List.mem_cons.mp hm with rfl | hm
    · rfl
    · exact absurd hspelled (((List.pairwise_cons.mp hafter).1 m hm).not_isSpelling hs)

end Json

namespace Checked
open Json

variable {α : Type} {joined : List Step → Bool} {place : List Step} {ms : Members} {v : Json}
  {spellings : List String} {value : Json → Checked α} {a default : α}

theorem exists_member?_respellMembers (joined : List Step → Bool) (place : List Step)
    (h : (ms.map (·.1)).Pairwise Apart) (key : String)
    (hkey : Spells key spellings) (hv : ms.get? key = some v) :
    ∃ used, member? (respellMembers joined place ms) spellings =
      some (used, respell joined (place ++ [.key key]) v) := by
  have hsome : (member? (respellMembers joined place ms) spellings).isSome = true := by
    refine List.findSome?_isSome_iff.mpr ⟨_, hkey.spell_mem (joined (place ++ [.key key])), ?_⟩
    rw [get?_respellMembers h hv]
    rfl
  obtain ⟨⟨used, w⟩, hfound⟩ := Option.isSome_iff_exists.mp hsome
  obtain ⟨s, hs, hmember⟩ := List.exists_of_findSome?_eq_some hfound
  obtain ⟨w', hw, heq⟩ := Option.map_eq_some_iff.mp hmember
  obtain ⟨rfl, rfl⟩ := Prod.mk.inj heq
  rw [eq_of_get?_respellMembers h hv (hkey.2.2 s hs) hw] at hfound
  exact ⟨s, hfound⟩

theorem required_respellMembers (h : (ms.map (·.1)).Pairwise Apart) (key : String)
    (hkey : Spells key spellings) (hv : ms.get? key = some v)
    (ha : value (respell joined (place ++ [.key key]) v) = ok a) :
    required (respellMembers joined place ms) spellings value = ok a := by
  obtain ⟨used, hused⟩ := exists_member?_respellMembers joined place h key hkey hv
  simp only [required, hused, ha, under]

theorem optional_respellMembers (h : (ms.map (·.1)).Pairwise Apart) (key : String)
    (hkey : Spells key spellings) (hv : ms.get? key = some v)
    (ha : value (respell joined (place ++ [.key key]) v) = ok a) :
    optional (respellMembers joined place ms) spellings value default = ok a := by
  obtain ⟨used, hused⟩ := exists_member?_respellMembers joined place h key hkey hv
  simp only [optional, hused, ha, under]

/-! ## What is written is read back -/

theorem record_respell {members : Members → Checked α} (hv : v = .object v.membersOf) :
    record members (v.respell joined place) =
      members (respellMembers joined place v.membersOf) := by
  rw [hv, respell, record]
  rfl

theorem nullable_text_respell (s : Option String) (place : List Step) :
    nullable text (respell joined place (.ofText? s)) = ok s := by
  cases s <;> rfl

theorem list_respell {write : α → Json} {as : List α}
    (h : ∀ a ∈ as, ∀ place, value (respell joined place (write a)) = ok a) (place : List Step) :
    list value (respell joined place (.list (as.map write))) = ok as := by
  rw [respell]
  apply items_eq_ok_iff.mpr
  generalize 0 = position
  induction as generalizing position with
  | nil => exact .nil
  | cons a rest ih =>
      obtain ⟨ha, hrest⟩ := List.forall_mem_cons.mp h
      exact .cons (ha _) (ih hrest (position + 1))

end Checked

open Checked Json

section
variable (joined : List Step → Bool) (place : List Step)

theorem Parameter.load_respell_dump (p : Parameter) :
    load (p.dump.respell joined place) = .ok p := by
  -- The keys are the same for all values; without the values they can be compared by evaluation.
  have hkeys : (p.dump.membersOf.map (·.1)).Pairwise Apart := by
    change ["name", "type"].Pairwise Apart
    decide
  rw [load, record_respell rfl]
  refine apply_ok (map_ok ?_) ?_
  · exact optional_respellMembers hkeys "name" (by decide) rfl rfl
  · exact optional_respellMembers hkeys "type" (by decide) rfl rfl

theorem StateVariable.load_respell_dump (v : StateVariable) :
    load (v.dump.respell joined place) = .ok v := by
  have hkeys : (v.dump.membersOf.map (·.1)).Pairwise Apart := by
    change ["name", "type"].Pairwise Apart
    decide
  rw [load, record_respell rfl]
  refine apply_ok (map_ok ?_) ?_
  · exact required_respellMembers hkeys "name" (by decide) rfl rfl
  · exact optional_respellMembers hkeys "type" (by decide) rfl rfl

theorem Visibility.ofTag?_tag (v : Visibility) : ofTag? v.tag = some v := by
  cases v <;> rfl

theorem Mutability.ofTag?_tag (m : Mutability) : ofTag? m.tag = some m := by
  cases m <;> rfl

theorem ContractKind.ofTag?_tag (k : ContractKind) : ofTag? k.tag = some k := by
  cases k <;> rfl

theorem FunctionDecl.load_respell_dump {f : FunctionDecl} (hline : 1 ≤ f.lineStart) :
    load (f.dump.respell joined place) = .ok f := by
  have hkeys : (f.dump.membersOf.map (·.1)).Pairwise Apart := by
    change ["name", "visibility", "state_mutability", "modifiers", "parameters", "body",
      "line_start"].Pairwise Apart
    decide
  rw [load, record_respell rfl]
  refine apply_ok (apply_ok (apply_ok (apply_ok (apply_ok (apply_ok
    (map_ok ?_) ?_) ?_) ?_) ?_) ?_) ?_
  · exact optional_respellMembers hkeys "name" (by decide) rfl rfl
  · exact optional_respellMembers hkeys "visibility" (by decide) rfl
      (choice_eq_ok f.visibility.ofTag?_tag)
  · exact optional_respellMembers hkeys "state_mutability" (by decide) rfl
      (choice_eq_ok f.mutability.ofTag?_tag)
  · exact optional_respellMembers hkeys "modifiers" (by decide) rfl
      (list_respell (fun _ _ _ => rfl) _)
  · exact optional_respellMembers hkeys "parameters" (by decide) rfl
      (list_respell (fun p _ place => p.load_respell_dump joined place) _)
  · exact optional_respellMembers hkeys "body" (by decide) rfl (nullable_text_respell f.body _)
  · exact optional_respellMembers hkeys "line_start" (by decide) rfl (positive_int hline)

theorem ContractDecl.load_respell_dump {c : ContractDecl}
    (hlines : ∀ f ∈ c.functions, 1 ≤ f.lineStart) :
    load (c.dump.respell joined place) = .ok c := by
  have hkeys : (c.dump.membersOf.map (·.1)).Pairwise Apart := by
    change ["name", "kind", "inherits", "state_variables", "functions"].Pairwise Apart
    decide
  rw [load, record_respell rfl]
  refine apply_ok (apply_ok (apply_ok (apply_ok (map_ok ?_) ?_) ?_) ?_) ?_
  · exact required_respellMembers hkeys "name" (by decide) rfl rfl
  · exact optional_respellMembers hkeys "kind" (by decide) rfl (choice_eq_ok c.kind.ofTag?_tag)
  · exact optional_respellMembers hkeys "inherits" (by decide) rfl
      (list_respell (fun _ _ _ => rfl) _)
  · exact optional_respellMembers hkeys "state_variables" (by decide) rfl
      (list_respell (fun v _ place => v.load_respell_dump joined place) _)
  · exact optional_respellMembers hkeys "functions" (by decide) rfl
      (list_respell (fun f hf place => f.load_respell_dump joined place (hlines f hf)) _)

theorem SourceUnit.load_respell_dump {u : SourceUnit} (hlines : u.LinesFromOne) :
    load (u.dump.respell joined place) = .ok u := by
  have hkeys : (u.dump.membersOf.map (·.1)).Pairwise Apart := by
    change ["source", "pragma", "contracts", "name"].Pairwise Apart
    decide
  rw [load, record_respell rfl]
  refine apply_ok (apply_ok (apply_ok (map_ok ?_) ?_) ?_) ?_
  · exact optional_respellMembers hkeys "source" (by decide) rfl rfl
  · exact optional_respellMembers hkeys "pragma" (by decide) rfl (nullable_text_respell u.pragma _)
  · exact optional_respellMembers hkeys "contracts" (by decide) rfl
      (list_respell (fun c hc place => c.load_respell_dump joined place (hlines c hc)) _)
  · exact optional_respellMembers hkeys "name" (by decide) rfl (nullable_text_respell u.name _)

end

namespace SourceUnit

/-- A unit that was read is read again from what is written of it, whichever of its keys are
respelled, each on its own; and what is written of a unit is read as this unit exactly if its
functions start on lines counted from one. -/
theorem load_retracts_onto_dump (u : SourceUnit) :
    (∀ v, loadPayload v = .ok u → loadPayload u.dump = .ok u ∧
      ∀ joined, loadPayload (u.dump.respell joined []) = .ok u) ∧
    (loadPayload u.dump = .ok u ↔ u.LinesFromOne) := by
  have hspelled : u.LinesFromOne →
      ∀ joined, loadPayload (u.dump.respell joined []) = .ok u :=
    fun hlines joined => load_respell_dump joined [] hlines
  have hplain : u.LinesFromOne → loadPayload u.dump = .ok u := by
    intro hlines
    rw [← respell_none [] u.dump]
    exact hspelled hlines _
  refine ⟨?_, linesFromOne_of_loadPayload, hplain⟩
  intro v hv
  have hlines := linesFromOne_of_loadPayload hv
  exact ⟨hplain hlines, hspelled hlines⟩

/-- A unit read with a line given as a text and one given as a truth value. Of its functions the
second is written with joined keys and the first is not. -/
theorem load_retracts_onto_dump_mixed :
    let u : SourceUnit := {
      contracts := [{
        name := "C", stateVariables := [{ name := "x" }], functions := [{ lineStart := 7 }, {}] }] }
    let v : Json := .object [("contracts", .list [.object [
      ("name", .str "C"), ("stateVariables", .list [.object [("name", .str "x")]]),
      ("functions", .list [
        .object [("lineStart", .str " 7.0")], .object [("line_start", .bool true)]])]])]
    let w : Json := .object [("source", .str ""), ("pragma", .null), ("contracts", .list [.object [
      ("name", .str "C"), ("kind", .str "contract"), ("inherits", .list []),
      ("state_variables", .list [.object [("name", .str "x"), ("type", .str "")]]),
      ("functions", .list [
        .object [("name", .str ""), ("visibility", .str "public"),
          ("state_mutability", .str "nonpayable"), ("modifiers", .list []),
          ("parameters", .list []), ("body", .null), ("line_start", .int 7)],
        .object [("name", .str ""), ("visibility", .str "public"),
          ("stateMutability", .str "nonpayable"), ("modifiers", .list []),
          ("parameters", .list []), ("body", .null), ("lineStart", .int 1)]])]]), ("name", .null)]
    loadPayload v = .ok u ∧ loadPayload w = .ok u := by
  intro u v w
  have hload : loadPayload v = .ok u := rfl
  have hmixed : u.dump.respell (·.contains (.index 1)) [] = w := rfl
  exact ⟨hload, hmixed ▸ ((load_retracts_onto_dump u).1 v hload).2 _⟩

end SourceUnit
end SolidityAudit
