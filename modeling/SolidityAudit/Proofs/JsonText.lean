import SolidityAudit.Json.Reader
import SolidityAudit.Proofs.Literal

/-!
# Texts in JSON read back

A text is written in printable ASCII: other characters as an escape of one letter or as the escapes of
their UTF-16 units. The reader takes each escape back to its character, whatever follows it, so it stops
at the closing quote and nowhere before. From this follows, member by member, that an object of texts
is read back as it was written.
-/

namespace SolidityAudit.Json

open Reader

variable {n : Nat} {c : Char}

/-! ## Escapes -/

theorem hexValue?_hexDigit (h : n < 16) : hexValue? (Text.hexDigit n) = some n := by
  have hall : ∀ n < 16, hexValue? (Text.hexDigit n) = some n := by decide
  exact hall n h

theorem hexValue4?_hex4 (h : n < 0x10000) :
    hexValue4? (Text.hexDigit (n / 0x1000 % 16)) (Text.hexDigit (n / 0x100 % 16))
      (Text.hexDigit (n / 16 % 16)) (Text.hexDigit (n % 16)) = some n := by
  unfold hexValue4?
  rw [hexValue?_hexDigit (by omega), hexValue?_hexDigit (by omega), hexValue?_hexDigit (by omega),
    hexValue?_hexDigit (by omega)]
  refine congrArg some ?_
  omega

theorem readText_unit {a b c d : Char} (rest : List Char) (hvalue : hexValue4? a b c d = some n)
    (hhigh : isHighSurrogate n = false) (hlow : isLowSurrogate n = false) :
    readText ('\\' :: 'u' :: a :: b :: c :: d :: rest) =
      (readText rest).map fun (t, r) => (Char.ofNat n :: t, r) := by
  by_cases hmore : ∃ e f g h more, rest = '\\' :: 'u' :: e :: f :: g :: h :: more
  · obtain ⟨e, f, g, h, more, rfl⟩ := hmore
    rw [readText, hvalue]
    simp only [hhigh, hlow, Bool.false_eq_true, if_false]
  · rw [readText, hvalue]
    · simp only [hhigh, hlow, Bool.or_false, Bool.false_eq_true, if_false]
    · intro e f g h more hrest
      exact hmore ⟨e, f, g, h, more, hrest⟩

theorem readText_pair {a b c d e f g h : Char} {m : Nat} (rest : List Char)
    (hfirst : hexValue4? a b c d = some n) (hsecond : hexValue4? e f g h = some m)
    (hhigh : isHighSurrogate n = true) (hlow : isLowSurrogate m = true) :
    readText ('\\' :: 'u' :: a :: b :: c :: d :: '\\' :: 'u' :: e :: f :: g :: h :: rest) =
      (readText rest).map fun (t, r) => (pairChar n m :: t, r) := by
  rw [readText, hfirst]
  simp only [hhigh, hlow, hsecond, if_true]

theorem readText_letter {a : Char} (rest : List Char) (hletter : simpleEscape? a = some c) :
    readText ('\\' :: a :: rest) = (readText rest).map fun (t, r) => (c :: t, r) := by
  have hu : a ≠ 'u' := by
    rintro rfl
    cases hletter
  rw [readText, hletter]
  · intro x1 x2 x3 x4 x5 x6 x7 x8 x9 h
    exact absurd h hu
  · intro x1 x2 x3 x4 x5 h
    exact absurd h hu

theorem readText_plain {c : Char} (rest : List Char) (hprintable : 0x20 ≤ c.toNat) (hquote : c ≠ '"')
    (hbackslash : c ≠ '\\') :
    readText (c :: rest) = (readText rest).map fun (t, r) => (c :: t, r) := by
  rw [readText]
  · rw [if_neg (by omega)]
  · exact hquote
  all_goals
    intros
    contradiction

/-- What is written for a character is read as the character, whatever follows. -/
def ReadsAs (written : List Char) (c : Char) : Prop :=
  ∀ rest, readText (written ++ rest) = (readText rest).map fun (t, r) => (c :: t, r)

theorem not_surrogate_toNat (c : Char) :
    isHighSurrogate c.toNat = false ∧ isLowSurrogate c.toNat = false := by
  have hvalid : c.toNat < 0xD800 ∨ 0xDFFF < c.toNat ∧ c.toNat < 0x110000 := c.valid
  simp only [isHighSurrogate, isLowSurrogate, Bool.and_eq_false_iff, decide_eq_false_iff_not]
  omega

theorem pairChar_units (h : 0x10000 ≤ c.toNat) :
    pairChar (0xD800 + (c.toNat - 0x10000) / 0x400) (0xDC00 + (c.toNat - 0x10000) % 0x400) = c := by
  unfold pairChar
  rw [Nat.add_sub_cancel_left, Nat.add_sub_cancel_left]
  have hsum : 0x10000 + (c.toNat - 0x10000) / 0x400 * 0x400 + (c.toNat - 0x10000) % 0x400 =
      c.toNat := by omega
  rw [hsum, Char.ofNat_toNat]

theorem readsAs_charEscape (c : Char) : ReadsAs (charEscape c) c := by
  intro rest
  have hvalid : c.toNat < 0xD800 ∨ 0xDFFF < c.toNat ∧ c.toNat < 0x110000 := c.valid
  unfold charEscape
  dsimp only
  by_cases hsmall : c.toNat < 0x10000
  · obtain ⟨hhigh, hlow⟩ := not_surrogate_toNat c
    have hread := readText_unit rest (hexValue4?_hex4 hsmall) hhigh hlow
    rw [Char.ofNat_toNat] at hread
    rw [if_pos hsmall]
    exact hread
  · rw [if_neg hsmall]
    have hread := readText_pair rest
      (hexValue4?_hex4 (n := 0xD800 + (c.toNat - 0x10000) / 0x400) (by omega))
      (hexValue4?_hex4 (n := 0xDC00 + (c.toNat - 0x10000) % 0x400) (by omega))
      (by simp only [isHighSurrogate, Bool.and_eq_true, decide_eq_true_eq]; omega)
      (by simp only [isLowSurrogate, Bool.and_eq_true, decide_eq_true_eq]; omega)
    rw [pairChar_units (by omega)] at hread
    exact hread

def IsPrintableAscii (c : Char) : Prop := 0x20 ≤ c.toNat ∧ c.toNat < 0x7f

instance : DecidablePred IsPrintableAscii := fun _ => inferInstanceAs (Decidable (_ ∧ _))

theorem exists_letter_of_letterEscape? {written : List Char} (h : letterEscape? c = some written) :
    ∃ a, written = ['\\', a] ∧ simpleEscape? a = some c ∧ IsPrintableAscii a := by
  unfold letterEscape? at h
  split_ifs at h <;> cases h <;> subst c <;>
    exact ⟨_, rfl, rfl, by decide⟩

theorem readsAs_escapeAscii (c : Char) : ReadsAs (escapeAscii c) c := by
  unfold escapeAscii
  cases hletter : letterEscape? c with
  | some written =>
      obtain ⟨a, rfl, ha, _⟩ := exists_letter_of_letterEscape? hletter
      exact fun rest => readText_letter rest ha
  | none =>
      dsimp only
      split_ifs with hprintable
      · have hquote : c ≠ '"' := by
          rintro rfl
          cases hletter
        have hbackslash : c ≠ '\\' := by
          rintro rfl
          cases hletter
        exact fun rest => readText_plain rest hprintable.1 hquote hbackslash
      · exact readsAs_charEscape c

theorem isPrintableAscii_hexDigit (h : n < 16) : IsPrintableAscii (Text.hexDigit n) := by
  have hall : ∀ n < 16, IsPrintableAscii (Text.hexDigit n) := by decide
  exact hall n h

theorem isPrintableAscii_unitEscape (n : Nat) : ∀ d ∈ unitEscape n, IsPrintableAscii d := by
  intro d hd
  simp only [unitEscape, hex4, List.mem_cons, List.not_mem_nil, or_false] at hd
  rcases hd with rfl | rfl | rfl | rfl | rfl | rfl
  · decide
  · decide
  all_goals exact isPrintableAscii_hexDigit (Nat.mod_lt _ (by decide))

theorem isPrintableAscii_escapeAscii (c : Char) : ∀ d ∈ escapeAscii c, IsPrintableAscii d := by
  unfold escapeAscii
  cases hletter : letterEscape? c with
  | some written =>
      obtain ⟨a, rfl, _, ha⟩ := exists_letter_of_letterEscape? hletter
      intro d hd
      simp only [List.mem_cons, List.not_mem_nil, or_false] at hd
      rcases hd with rfl | rfl
      · decide
      · exact ha
  | none =>
      dsimp only
      split_ifs with hprintable
      · intro d hd
        rw [List.mem_singleton.mp hd]
        exact hprintable
      · unfold charEscape
        dsimp only
        split_ifs
        · exact isPrintableAscii_unitEscape _
        · intro d hd
          rcases List.mem_append.mp hd with hd | hd
          · exact isPrintableAscii_unitEscape _ d hd
          · exact isPrintableAscii_unitEscape _ d hd

/-! ## Texts -/

/-- The closing quote is the first one that is read as such. -/
theorem readText_escaped (cs rest : List Char) :
    readText (cs.flatMap escapeAscii ++ '"' :: rest) = some (cs, rest) := by
  induction cs with
  | nil => rw [List.flatMap_nil, List.nil_append, readText]
  | cons c cs ih =>
      rw [List.flatMap_cons, List.append_assoc, readsAs_escapeAscii c, ih]
      rfl

theorem isPrintableAscii_quote (cs : List Char) :
    ∀ d ∈ quote escapeAscii cs, IsPrintableAscii d := by
  have hquote : IsPrintableAscii '"' := by decide
  intro d hd
  simp only [quote, List.cons_append, List.mem_cons, List.mem_append, List.mem_flatMap,
    List.not_mem_nil, or_false] at hd
  rcases hd with rfl | ⟨c, _, hd⟩ | rfl
  · exact hquote
  · exact isPrintableAscii_escapeAscii c d hd
  · exact hquote

/-! ## Objects of texts -/

def textMembers (entries : List (String × String)) : Members :=
  entries.map fun entry => (entry.1, str entry.2)

def memberText (entry : String × String) : List Char :=
  quote escapeAscii entry.1.toList ++ [':', ' '] ++ quote escapeAscii entry.2.toList

theorem renderMembers_textMembers (entries : List (String × String)) :
    renderMembers (textMembers entries) = entries.map memberText := by
  induction entries with
  | nil => rfl
  | cons entry rest ih =>
      rw [textMembers, List.map_cons, renderMembers, List.map_cons]
      exact congrArg _ ih

def laterText (entries : List (String × String)) : List Char :=
  entries.flatMap fun entry => ',' :: ' ' :: memberText entry

theorem renderChars_textMembers_cons (entry : String × String) (entries : List (String × String)) :
    renderChars (object (textMembers (entry :: entries))) =
      '\x7b' :: (memberText entry ++ (laterText entries ++ ['\x7d'])) := by
  rw [renderChars, renderMembers_textMembers, List.map_cons, joinWith_cons, List.flatMap_map]
  simp [laterText]

theorem Members.set_of_notMem {ms : Members} {key : String} (value : Json)
    (h : key ∉ ms.map (·.1)) : ms.set key value = ms ++ [(key, value)] := by
  induction ms with
  | nil => rfl
  | cons m ms ih =>
      rw [List.map_cons, List.mem_cons, not_or] at h
      rw [Members.set, if_neg (by simpa using Ne.symm h.1), ih h.2, List.cons_append]

theorem readValue_quote (fuel depth : Nat) (s : String) (rest : List Char) :
    readValue (fuel + 1) depth (' ' :: (quote escapeAscii s.toList ++ rest)) = some (str s, rest) := by
  have hskip : skipSpace (' ' :: (quote escapeAscii s.toList ++ rest)) =
      '"' :: (s.toList.flatMap escapeAscii ++ '"' :: rest) := by
    simp [skipSpace, isSpace, quote]
  rw [readValue, hskip]
  simp only [readText_escaped, Option.map_some, String.ofList_toList]

theorem isPrintableAscii_memberText (entry : String × String) :
    ∀ d ∈ memberText entry, IsPrintableAscii d := by
  intro d hd
  rw [memberText, List.append_assoc, List.mem_append, List.mem_append] at hd
  rcases hd with hd | hd | hd
  · exact isPrintableAscii_quote _ d hd
  · simp only [List.mem_cons, List.not_mem_nil, or_false] at hd
    rcases hd with rfl | rfl
    · decide
    · decide
  · exact isPrintableAscii_quote _ d hd

theorem isPrintableAscii_laterText (entries : List (String × String)) :
    ∀ d ∈ laterText entries, IsPrintableAscii d := by
  intro d hd
  obtain ⟨entry, _, hd⟩ := List.mem_flatMap.mp hd
  rw [List.mem_cons, List.mem_cons] at hd
  rcases hd with rfl | rfl | hd
  · decide
  · decide
  · exact isPrintableAscii_memberText entry d hd

theorem isPrintableAscii_renderChars_textMembers (entries : List (String × String)) :
    ∀ d ∈ renderChars (object (textMembers entries)), IsPrintableAscii d := by
  have hopen : IsPrintableAscii '\x7b' := by decide
  have hclose : IsPrintableAscii '\x7d' := by decide
  intro d hd
  cases entries with
  | nil =>
      have hmem : d ∈ ['\x7b', '\x7d'] := hd
      simp only [List.mem_cons, List.not_mem_nil, or_false] at hmem
      rcases hmem with rfl | rfl
      · exact hopen
      · exact hclose
  | cons entry entries =>
      rw [renderChars_textMembers_cons, List.mem_cons, List.mem_append, List.mem_append,
        List.mem_singleton] at hd
      rcases hd with rfl | hd | hd | rfl
      · exact hopen
      · exact isPrintableAscii_memberText entry d hd
      · exact isPrintableAscii_laterText entries d hd
      · exact hclose

section Members

variable {fuel depth : Nat} {before : Members} {entry : String × String} {cs rest : List Char}

theorem memberText_append (entry : String × String) (rest : List Char) :
    memberText entry ++ rest = '"' :: (entry.1.toList.flatMap escapeAscii ++
      '"' :: ':' :: ' ' :: (quote escapeAscii entry.2.toList ++ rest)) := by
  simp [memberText, quote]

theorem readMembers_last (hcs : skipSpace cs = memberText entry ++ '\x7d' :: rest) :
    readMembers (fuel + 2) depth before cs = some (before.set entry.1 (str entry.2), rest) := by
  rw [readMembers, hcs, memberText_append]
  simp [readText_escaped, skipSpace, isSpace, readValue_quote]

theorem readMembers_more (hcs : skipSpace cs = memberText entry ++ ',' :: rest) :
    readMembers (fuel + 2) depth before cs =
      readMembers (fuel + 1) depth (before.set entry.1 (str entry.2)) rest := by
  rw [readMembers, hcs, memberText_append]
  simp [readText_escaped, skipSpace, isSpace, readValue_quote]

theorem set_of_nodup {entries : List (String × String)}
    (hkeys : (before.map (·.1) ++ (entry :: entries).map (·.1)).Nodup) :
    before.set entry.1 (str entry.2) = before ++ textMembers [entry] := by
  apply Members.set_of_notMem
  intro hmem
  exact (List.nodup_append.mp hkeys).2.2 _ hmem _ (by simp) rfl

/-- Members with different names are added one after another, each in its place. -/
theorem readMembers_textMembers {entries : List (String × String)}
    (hcs : skipSpace cs = memberText entry ++ (laterText entries ++ '\x7d' :: rest))
    (hkeys : (before.map (·.1) ++ (entry :: entries).map (·.1)).Nodup) :
    readMembers (fuel + entries.length + 2) depth before cs =
      some (before ++ textMembers (entry :: entries), rest) := by
  induction entries generalizing before entry cs with
  | nil =>
      rw [← set_of_nodup hkeys]
      exact readMembers_last hcs
  | cons next entries ih =>
      have hnext : skipSpace (' ' :: (memberText next ++ (laterText entries ++ '\x7d' :: rest))) =
          memberText next ++ (laterText entries ++ '\x7d' :: rest) := by
        rw [memberText_append]
        rfl
      have hmore : skipSpace cs = memberText entry ++
          ',' :: ' ' :: (memberText next ++ (laterText entries ++ '\x7d' :: rest)) := by
        rw [hcs, laterText, List.flatMap_cons, List.append_assoc]
        rfl
      have hrest := @ih (before ++ textMembers [entry]) next _ hnext (by simpa [textMembers] using hkeys)
      rw [← set_of_nodup hkeys] at hrest
      refine (readMembers_more hmore).trans (hrest.trans ?_)
      rw [set_of_nodup hkeys, List.append_assoc]
      rfl

end Members

theorem length_le_laterText (entries : List (String × String)) :
    entries.length ≤ (laterText entries).length := by
  induction entries with
  | nil => exact Nat.zero_le _
  | cons entry entries ih =>
      rw [laterText] at ih ⊢
      rw [List.flatMap_cons, List.length_append, List.length_cons, List.length_cons, List.length_cons]
      omega

theorem readValue_textMembers {entry : String × String} {entries : List (String × String)}
    (hkeys : ((entry :: entries).map (·.1)).Nodup) (fuel depth : Nat) (rest : List Char) :
    readValue (fuel + entries.length + 3) (depth + 1)
      ('\x7b' :: (memberText entry ++ (laterText entries ++ '\x7d' :: rest))) =
        some (object (textMembers (entry :: entries)), rest) := by
  have hbrace : ∀ cs, skipSpace ('\x7b' :: cs) = '\x7b' :: cs := fun _ => rfl
  have hquote : ∀ cs, skipSpace ('"' :: cs) = '"' :: cs := fun _ => rfl
  have hbody : skipSpace (memberText entry ++ (laterText entries ++ '\x7d' :: rest)) =
      memberText entry ++ (laterText entries ++ '\x7d' :: rest) := by
    rw [memberText_append, hquote]
  have hmembers := @readMembers_textMembers fuel depth [] entry _ rest entries hbody hkeys
  rw [memberText_append] at hmembers ⊢
  rw [readValue, hbrace]
  simp [hquote, hmembers]

/-- An object of texts with different names is read back. -/
theorem parse?_render_textMembers {entries : List (String × String)}
    (hkeys : (entries.map (·.1)).Nodup) (depth : Nat) :
    parse? (depth + 1) (renderChars (object (textMembers entries))) =
      some (object (textMembers entries)) := by
  cases entries with
  | nil => rfl
  | cons entry entries =>
      rw [renderChars_textMembers_cons, parse?]
      have hlong : ∃ fuel, ('\x7b' :: (memberText entry ++ (laterText entries ++ ['\x7d']))).length + 1 =
          fuel + entries.length + 3 := by
        have hlater := length_le_laterText entries
        refine ⟨(memberText entry).length + (laterText entries).length - entries.length, ?_⟩
        simp only [List.length_cons, List.length_append, List.length_nil]
        omega
      obtain ⟨fuel, hfuel⟩ := hlong
      rw [hfuel, readValue_textMembers hkeys]
      rfl

end SolidityAudit.Json
