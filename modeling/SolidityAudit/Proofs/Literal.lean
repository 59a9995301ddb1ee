import Mathlib.Algebra.Group.Nat.Defs
import Mathlib.Tactic.SplitIfs
import SolidityAudit.Json.Literal

/-!
# Literals can be read in one way only

A literal determines its value and the place where it ends. For texts this is shown by reading the
escapes back; numbers end where no digit follows; lists and objects end with their bracket, since a
comma stands before every item but the first. Numbers of the binary format are left out: the values
here are `Plain`.
-/

namespace SolidityAudit

namespace Text

def hexValue (c : Char) : Nat :=
  if c.isDigit then c.toNat - '0'.toNat else c.toNat - 'a'.toNat + 10

def readHex (cs : List Char) : Nat := cs.foldl (fun n c => 16 * n + hexValue c) 0

theorem hexValue_hexDigit {n : Nat} (h : n < 16) : hexValue (hexDigit n) = n := by
  revert n
  decide

@[simp] theorem length_hexDigits (width n : Nat) : (hexDigits width n).length = width := by
  induction width generalizing n with
  | zero => rfl
  | succ width ih => simp [hexDigits, ih]

theorem readHex_hexDigits (width n : Nat) : readHex (hexDigits width n) = n % 16 ^ width := by
  induction width generalizing n with
  | zero => simp [hexDigits, readHex, Nat.mod_one]
  | succ width ih =>
      have hlast : readHex (hexDigits (width + 1) n) =
          16 * readHex (hexDigits width (n / 16)) + hexValue (hexDigit (n % 16)) := by
        simp [hexDigits, readHex, List.foldl_append]
      rw [hlast, ih, hexValue_hexDigit (Nat.mod_lt n (by decide)), Nat.pow_succ,
        Nat.mul_comm (16 ^ width), Nat.mod_mul]
      omega

end Text

namespace Json

/-! ## Texts -/

def escapeWidth : Char → Option Nat
  | 'x' => some 2
  | 'u' => some 4
  | 'U' => some 8
  | _ => none

def letterMeaning : Char → Char
  | 'n' => '\n'
  | 'r' => '\r'
  | 't' => '\t'
  | c => c

def unescape : List Char → Option (Char × List Char)
  | '\\' :: mark :: rest =>
    match escapeWidth mark with
    | some width => some (Char.ofNat (Text.readHex (rest.take width)), rest.drop width)
    | none => some (letterMeaning mark, rest)
  | c :: rest => some (c, rest)
  | [] => none

theorem unescape_hexDigits {mark c : Char} {width : Nat} (hmark : escapeWidth mark = some width)
    (hc : c.toNat < 16 ^ width) (rest : List Char) :
    unescape ('\\' :: mark :: Text.hexDigits width c.toNat ++ rest) = some (c, rest) := by
  have hlength := Text.length_hexDigits width c.toNat
  have htake : (Text.hexDigits width c.toNat ++ rest).take width = Text.hexDigits width c.toNat :=
    List.take_left' hlength
  have hdrop : (Text.hexDigits width c.toNat ++ rest).drop width = rest := List.drop_left' hlength
  simp only [List.cons_append, unescape, hmark, htake, hdrop, Text.readHex_hexDigits,
    Nat.mod_eq_of_lt hc, Char.ofNat_toNat]

theorem unescape_of_ne {c : Char} (h : c ≠ '\\') (rest : List Char) :
    unescape (c :: rest) = some (c, rest) := by
  unfold unescape
  split
  · next heq => exact absurd (List.cons.inj heq).1 h
  · next heq =>
      obtain ⟨rfl, rfl⟩ := List.cons.inj heq
      rfl
  · next heq => cases heq

def IsQuote (q : Char) : Prop := q = '\'' ∨ q = '"'

theorem isQuote_literalQuote (cs : List Char) : IsQuote (literalQuote cs) := by
  unfold literalQuote IsQuote
  split_ifs <;> simp

variable {q : Char} {r s : List Char}

theorem unescape_literalChar (hq : IsQuote q) (c : Char) (rest : List Char) :
    unescape (literalChar q c ++ rest) = some (c, rest) := by
  unfold literalChar
  split_ifs with hquoted hfeed hreturn htab hshown hbyte hplane
  · have hletter : escapeWidth c = none ∧ letterMeaning c = c := by
      rcases hquoted with rfl | rfl
      · rcases hq with rfl | rfl <;> exact ⟨rfl, rfl⟩
      · exact ⟨rfl, rfl⟩
    simp [unescape, hletter]
  · rw [hfeed]
    rfl
  · rw [hreturn]
    rfl
  · rw [htab]
    rfl
  · exact unescape_of_ne (fun h => hquoted (Or.inr h)) rest
  · exact unescape_hexDigits rfl hbyte rest
  · exact unescape_hexDigits rfl hplane rest
  · have hlong : c.toNat < 16 ^ 8 := Nat.lt_of_lt_of_eq c.val.toNat_lt (by decide)
    exact unescape_hexDigits rfl hlong rest

/-- The quote ends a text literal, since no character is written so that it begins with the quote. -/
theorem literalChar_ne_quote (hq : IsQuote q) (c : Char) :
    ∃ d cs, literalChar q c = d :: cs ∧ d ≠ q := by
  have hslash : '\\' ≠ q := by rcases hq with rfl | rfl <;> decide
  unfold literalChar
  split_ifs with hquoted
  all_goals try exact ⟨'\\', _, rfl, hslash⟩
  exact ⟨c, [], rfl, fun h => hquoted (Or.inl h)⟩

theorem flatMap_literalChar_append_inj (hq : IsQuote q) {cs ds : List Char}
    (h : cs.flatMap (literalChar q) ++ q :: r = ds.flatMap (literalChar q) ++ q :: s) :
    cs = ds ∧ r = s := by
  induction cs generalizing ds with
  | nil =>
      cases ds with
      | nil => exact ⟨rfl, (List.cons.inj h).2⟩
      | cons d ds =>
          obtain ⟨e, es, he, hne⟩ := literalChar_ne_quote hq d
          simp only [List.flatMap_nil, List.nil_append, List.flatMap_cons, he, List.cons_append] at h
          exact absurd (List.cons.inj h).1.symm hne
  | cons c cs ih =>
      cases ds with
      | nil =>
          obtain ⟨e, es, he, hne⟩ := literalChar_ne_quote hq c
          simp only [List.flatMap_nil, List.nil_append, List.flatMap_cons, he, List.cons_append] at h
          exact absurd (List.cons.inj h).1 hne
      | cons d ds =>
          simp only [List.flatMap_cons, List.append_assoc] at h
          have hread := congrArg unescape h
          rw [unescape_literalChar hq, unescape_literalChar hq] at hread
          obtain ⟨rfl, hrest⟩ := Prod.mk.inj (Option.some.inj hread)
          obtain ⟨rfl, hrs⟩ := ih hrest
          exact ⟨rfl, hrs⟩

theorem literalText_append_inj {cs ds : List Char}
    (h : literalText cs ++ r = literalText ds ++ s) : cs = ds ∧ r = s := by
  simp only [literalText, List.cons_append, List.append_assoc, List.nil_append] at h
  obtain ⟨hquote, hrest⟩ := List.cons.inj h
  rw [← hquote] at hrest
  exact flatMap_literalChar_append_inj (isQuote_literalQuote cs) hrest

/-! ## Numbers -/

def NoDigitNext (r : List Char) : Prop := ∀ c ∈ r.head?, c.isDigit = false

theorem noDigitNext_cons {c : Char} (h : c.isDigit = false) : NoDigitNext (c :: r) := by
  simpa [NoDigitNext] using h

theorem toDigits_append_inj {a b : Nat} (hr : NoDigitNext r) (hs : NoDigitNext s)
    (h : Nat.toDigits 10 a ++ r = Nat.toDigits 10 b ++ s) : a = b ∧ r = s := by
  have hdigits : ∀ n t, NoDigitNext t →
      (Nat.toDigits 10 n ++ t).takeWhile Char.isDigit = Nat.toDigits 10 n := by
    intro n t ht
    have hstop : t.takeWhile Char.isDigit = [] := by
      cases t with
      | nil => rfl
      | cons c t => simp [ht c rfl]
    rw [List.takeWhile_append_of_pos, hstop, List.append_nil]
    intro c hc
    exact Nat.isDigit_of_mem_toDigits (by decide) (Nat.le_refl 10) hc
  have hsame := congrArg (List.takeWhile Char.isDigit) h
  rw [hdigits a r hr, hdigits b s hs] at hsame
  rw [hsame] at h
  refine ⟨?_, List.append_cancel_left h⟩
  rw [← Nat.ofDigitChars_ten_toDigits (n := a), hsame, Nat.ofDigitChars_ten_toDigits]

theorem exists_digit_toDigits (n : Nat) :
    ∃ c cs, Nat.toDigits 10 n = c :: cs ∧ c.isDigit = true := by
  obtain ⟨c, cs, heq⟩ := List.exists_cons_of_ne_nil (@Nat.toDigits_ne_nil n 10)
  have hmem : c ∈ Nat.toDigits 10 n := heq ▸ List.mem_cons_self
  exact ⟨c, cs, heq, Nat.isDigit_of_mem_toDigits (by decide) (Nat.le_refl 10) hmem⟩

theorem intText_append_inj {a b : Int} (hr : NoDigitNext r) (hs : NoDigitNext s)
    (h : intText a ++ r = intText b ++ s) : a = b ∧ r = s := by
  have hsign : ∀ n t t', '-' :: t ≠ Nat.toDigits 10 n ++ t' := by
    intro n t t' heq
    obtain ⟨c, cs, hdigits, hc⟩ := exists_digit_toDigits n
    rw [hdigits, List.cons_append] at heq
    rw [← (List.cons.inj heq).1] at hc
    cases hc
  unfold intText at h
  split_ifs at h with ha hb hb
  · obtain ⟨habs, hrs⟩ := toDigits_append_inj hr hs (List.cons.inj h).2
    exact ⟨by omega, hrs⟩
  · exact absurd h (hsign _ _ _)
  · exact absurd h.symm (hsign _ _ _)
  · obtain ⟨habs, hrs⟩ := toDigits_append_inj hr hs h
    exact ⟨by omega, hrs⟩

/-! ## Lists of pieces -/

theorem joinWith_cons (separator piece : List Char) (pieces : List (List Char)) :
    joinWith separator (piece :: pieces) = piece ++ pieces.flatMap (separator ++ ·) := by
  induction pieces generalizing piece with
  | nil => simp [joinWith]
  | cons next rest ih => simp [joinWith, ih]

section Pieces

variable {α : Type} {code : α → List Char} {close : Char} {xs ys : List α}

/-- Two notations that are followed by no digit agree only if they are the same notation. -/
def SeparateFrom (code : α → List Char) (x y : α) : Prop :=
  ∀ ⦃r s⦄, NoDigitNext r → NoDigitNext s → code x ++ r = code y ++ s → x = y ∧ r = s

theorem noDigitNext_pieces (hdigit : close.isDigit = false) (xs : List α) (r : List Char) :
    NoDigitNext (xs.flatMap (fun x => ", ".toList ++ code x) ++ close :: r) := by
  cases xs with
  | nil => exact noDigitNext_cons hdigit
  | cons x xs => exact noDigitNext_cons rfl

theorem pieces_append_inj (hcomma : close ≠ ',') (hdigit : close.isDigit = false)
    (hcode : ∀ x ∈ xs, ∀ y ∈ ys, SeparateFrom code x y)
    (h : xs.flatMap (fun x => ", ".toList ++ code x) ++ close :: r =
      ys.flatMap (fun y => ", ".toList ++ code y) ++ close :: s) : xs = ys ∧ r = s := by
  induction xs generalizing ys with
  | nil =>
      cases ys with
      | nil => exact ⟨rfl, (List.cons.inj h).2⟩
      | cons y ys => exact absurd (List.cons.inj h).1 hcomma
  | cons x xs ih =>
      cases ys with
      | nil => exact absurd (List.cons.inj h).1.symm hcomma
      | cons y ys =>
          simp only [List.flatMap_cons, List.append_assoc] at h
          have hpiece := List.append_cancel_left h
          obtain ⟨rfl, hrest⟩ := hcode x List.mem_cons_self y List.mem_cons_self
            (noDigitNext_pieces hdigit xs r) (noDigitNext_pieces hdigit ys s) hpiece
          have hcode' : ∀ x ∈ xs, ∀ y ∈ ys, SeparateFrom code x y := fun x hx y hy =>
            hcode x (List.mem_cons_of_mem _ hx) y (List.mem_cons_of_mem _ hy)
          obtain ⟨rfl, hrs⟩ := ih hcode' hrest
          exact ⟨rfl, hrs⟩

/-- Pieces between brackets determine the list, if no piece begins with the closing bracket. -/
theorem joinWith_append_inj (hcomma : close ≠ ',') (hdigit : close.isDigit = false)
    (hopen : ∀ a ∈ xs ++ ys, ∃ c cs, code a = c :: cs ∧ c ≠ close)
    (hcode : ∀ x ∈ xs, ∀ y ∈ ys, SeparateFrom code x y)
    (h : joinWith [',', ' '] (xs.map code) ++ close :: r =
      joinWith [',', ' '] (ys.map code) ++ close :: s) : xs = ys ∧ r = s := by
  cases xs with
  | nil =>
      cases ys with
      | nil => exact ⟨rfl, (List.cons.inj h).2⟩
      | cons y ys =>
          obtain ⟨c, cs, hc, hne⟩ := hopen y (by simp)
          rw [List.map_cons, joinWith_cons, hc] at h
          exact absurd (List.cons.inj h).1.symm hne
  | cons x xs =>
      cases ys with
      | nil =>
          obtain ⟨c, cs, hc, hne⟩ := hopen x (by simp)
          rw [List.map_cons, joinWith_cons, hc] at h
          exact absurd (List.cons.inj h).1 hne
      | cons y ys =>
          simp only [List.map_cons, joinWith_cons, List.flatMap_map] at h
          have hpieces : (x :: xs).flatMap (fun x => ", ".toList ++ code x) ++ close :: r =
              (y :: ys).flatMap (fun y => ", ".toList ++ code y) ++ close :: s := by
            simpa using h
          exact pieces_append_inj hcomma hdigit hcode hpieces

end Pieces

/-! ## Values -/

/-- A value in which no number of the binary format occurs. -/
inductive Plain : Json → Prop
  | null : Plain .null
  | bool (b : Bool) : Plain (.bool b)
  | int (n : Int) : Plain (.int n)
  | str (s : String) : Plain (.str s)
  | list {items : List Json} (h : ∀ v ∈ items, Plain v) : Plain (.list items)
  | object {members : Members} (h : ∀ m ∈ members, Plain m.2) : Plain (.object members)

def kind : Json → Nat
  | .null => 0
  | .bool _ => 1
  | .int _ | .real _ => 2
  | .str _ => 3
  | .list _ => 4
  | .object _ => 5

def kindOf (c : Char) : Nat :=
  if c = 'N' then 0
  else if c = 'T' ∨ c = 'F' then 1
  else if c = '\'' ∨ c = '"' then 3
  else if c = '[' then 4
  else if c = '\x7b' then 5
  else 2

theorem kindOf_of_isDigit {c : Char} (h : c.isDigit = true) : kindOf c = 2 := by
  have hne : ∀ d : Char, d.isDigit = false → c ≠ d := by
    rintro d hd rfl
    rw [h] at hd
    cases hd
  simp [kindOf, hne]

def closings : List Char := [']', '\x7d', ')']

/-- A literal begins with a character that tells its kind, and never with one that closes. -/
theorem exists_opening {v : Json} (hv : Plain v) :
    ∃ c cs, literal v = c :: cs ∧ kindOf c = v.kind ∧ c ∉ closings := by
  cases hv with
  | null => exact ⟨'N', _, by rw [literal]; rfl, rfl, by decide⟩
  | bool b => cases b <;> exact ⟨_, _, by rw [literal]; rfl, rfl, by decide⟩
  | int n =>
      rw [literal, intText]
      obtain ⟨c, cs, hdigits, hc⟩ := exists_digit_toDigits n.natAbs
      split_ifs
      · exact ⟨'-', _, rfl, rfl, by decide⟩
      · refine ⟨c, cs, hdigits, kindOf_of_isDigit hc, ?_⟩
        intro hmem
        have hclosing : ∀ d ∈ closings, d.isDigit = false := by
          simp only [closings, List.forall_mem_cons]
          exact ⟨rfl, rfl, rfl, List.forall_mem_nil _⟩
        rw [hclosing c hmem] at hc
        cases hc
  | str s =>
      rw [literal, literalText]
      rcases isQuote_literalQuote s.toList with hq | hq
      · exact ⟨'\'', _, by rw [hq]; rfl, rfl, by decide⟩
      · exact ⟨'"', _, by rw [hq]; rfl, rfl, by decide⟩
  | list h => exact ⟨'[', _, by rw [literal]; rfl, rfl, by decide⟩
  | object h => exact ⟨'\x7b', _, by rw [literal]; rfl, rfl, by decide⟩

theorem kind_eq_of_literal_append {v w : Json} (hv : Plain v) (hw : Plain w)
    (h : literal v ++ r = literal w ++ s) : v.kind = w.kind := by
  obtain ⟨c, cs, hc, hkind, _⟩ := exists_opening hv
  obtain ⟨d, ds, hd, hkind', _⟩ := exists_opening hw
  rw [hc, hd] at h
  rw [← hkind, ← hkind', (List.cons.inj h).1]

theorem literalItems_eq_map (items : List Json) : literalItems items = items.map literal := by
  induction items with
  | nil => rfl
  | cons v rest ih => rw [literalItems, ih, List.map_cons]

def literalMember (m : String × Json) : List Char :=
  literalText m.1.toList ++ [':', ' '] ++ literal m.2

theorem literalMembers_eq_map (members : Members) :
    literalMembers members = members.map literalMember := by
  induction members with
  | nil => rfl
  | cons m rest ih => rw [literalMembers, ih, List.map_cons, literalMember]

/-- A key and a value, with a separator between them and a text after them. -/
theorem entry_append_inj {separator : List Char} {a b : String × Json}
    (hvalue : SeparateFrom literal a.2 b.2) (hr : NoDigitNext r) (hs : NoDigitNext s)
    (h : literalText a.1.toList ++ (separator ++ (literal a.2 ++ r)) =
      literalText b.1.toList ++ (separator ++ (literal b.2 ++ s))) : a = b ∧ r = s := by
  obtain ⟨hkey, hrest⟩ := literalText_append_inj h
  obtain ⟨hval, hrs⟩ := hvalue hr hs (List.append_cancel_left hrest)
  exact ⟨Prod.ext (String.toList_inj.mp hkey) hval, hrs⟩

theorem literal_list_append_inj {items items' : List Json} (hitems : ∀ v ∈ items, Plain v)
    (hitems' : ∀ v ∈ items', Plain v)
    (hcode : ∀ v ∈ items, ∀ w ∈ items', SeparateFrom literal v w)
    (h : literal (.list items) ++ r = literal (.list items') ++ s) : items = items' ∧ r = s := by
  simp only [literal, literalItems_eq_map, List.cons_append, List.append_assoc, List.nil_append,
    List.cons.injEq, true_and] at h
  have hopen : ∀ a ∈ items ++ items', ∃ c cs, literal a = c :: cs ∧ c ≠ ']' := by
    intro a ha
    have hplain : Plain a := (List.mem_append.mp ha).elim (hitems a) (hitems' a)
    obtain ⟨c, cs, hc, _, hclosing⟩ := exists_opening hplain
    exact ⟨c, cs, hc, fun heq => hclosing (heq ▸ by decide)⟩
  exact joinWith_append_inj (by decide) rfl hopen hcode h

theorem literal_object_append_inj {members members' : Members}
    (hcode : ∀ a ∈ members, ∀ b ∈ members', SeparateFrom literal a.2 b.2)
    (h : literal (.object members) ++ r = literal (.object members') ++ s) :
    members = members' ∧ r = s := by
  simp only [literal, literalMembers_eq_map, List.cons_append, List.append_assoc, List.nil_append,
    List.cons.injEq, true_and] at h
  have hopen : ∀ a ∈ members ++ members', ∃ c cs, literalMember a = c :: cs ∧ c ≠ '\x7d' := by
    intro a _
    have hquote : literalQuote a.1.toList ≠ '\x7d' := by
      rcases isQuote_literalQuote a.1.toList with hq | hq <;> rw [hq] <;> decide
    exact ⟨_, _, rfl, hquote⟩
  have hmember : ∀ a ∈ members, ∀ b ∈ members', SeparateFrom literalMember a b := by
    intro a ha b hb r s hr hs hab
    simp only [literalMember, List.append_assoc] at hab
    exact entry_append_inj (hcode a ha b hb) hr hs hab
  exact joinWith_append_inj (by decide) rfl hopen hmember h

/-- A literal determines its value and what follows, if that does not begin with a digit. -/
theorem literal_separateFrom {v : Json} (hv : Plain v) :
    ∀ {w}, Plain w → SeparateFrom literal v w := by
  induction hv with
  | null =>
      intro w hw r s _ _ h
      have hkind := kind_eq_of_literal_append .null hw h
      cases hw with
      | null => exact ⟨rfl, List.append_cancel_left h⟩
      | _ => cases hkind
  | bool b =>
      intro w hw r s _ _ h
      have hkind := kind_eq_of_literal_append (.bool b) hw h
      cases hw with
      | bool b' =>
          rw [literal, literal] at h
          cases b <;> cases b'
          · exact ⟨rfl, List.append_cancel_left h⟩
          · exact absurd (List.cons.inj h).1 (by decide)
          · exact absurd (List.cons.inj h).1 (by decide)
          · exact ⟨rfl, List.append_cancel_left h⟩
      | _ => cases hkind
  | int n =>
      intro w hw r s hr hs h
      have hkind := kind_eq_of_literal_append (.int n) hw h
      cases hw with
      | int m =>
          rw [literal, literal] at h
          obtain ⟨rfl, hrs⟩ := intText_append_inj hr hs h
          exact ⟨rfl, hrs⟩
      | _ => cases hkind
  | str t =>
      intro w hw r s _ _ h
      have hkind := kind_eq_of_literal_append (.str t) hw h
      cases hw with
      | str t' =>
          rw [literal, literal] at h
          obtain ⟨htext, hrs⟩ := literalText_append_inj h
          exact ⟨by rw [String.toList_inj.mp htext], hrs⟩
      | _ => cases hkind
  | list hitems ih =>
      intro w hw r s _ _ h
      have hkind := kind_eq_of_literal_append (.list hitems) hw h
      cases hw with
      | list hitems' =>
          obtain ⟨rfl, hrs⟩ := literal_list_append_inj hitems hitems'
            (fun v hv w hw => ih v hv (hitems' w hw)) h
          exact ⟨rfl, hrs⟩
      | _ => cases hkind
  | object hmembers ih =>
      intro w hw r s _ _ h
      have hkind := kind_eq_of_literal_append (.object hmembers) hw h
      cases hw with
      | object hmembers' =>
          obtain ⟨rfl, hrs⟩ := literal_object_append_inj
            (fun a ha b hb => ih a ha (hmembers' b hb)) h
          exact ⟨rfl, hrs⟩
      | _ => cases hkind

end Json
end SolidityAudit
