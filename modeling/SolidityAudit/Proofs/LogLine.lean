import SolidityAudit.Logging.Record
import SolidityAudit.Proofs.JsonText
import SolidityAudit.Text.Basic

/-!
# One line for each entry

The line of a log entry holds nothing but printable ASCII, so no character in it ends a line, and the
lines of a log are the lines of its entries. The texts of an entry are read back from its line as they
were.
-/

namespace SolidityAudit

/-! ## Lines -/

namespace Text

theorem endsLine_eq_false {c : Char} (h : Json.IsPrintableAscii c) : endsLine c = false := by
  obtain ⟨hlow, hhigh⟩ := h
  apply Bool.eq_false_iff.mpr
  intro hends
  simp only [endsLine, Bool.or_eq_true, beq_iff_eq, or_assoc] at hends
  rcases hends with rfl | rfl | rfl | rfl | rfl | rfl | rfl | rfl | rfl | rfl
  all_goals simp at hlow hhigh

theorem linesFrom_cons_of_not_endsLine {c : Char} (hc : endsLine c = false)
    (line rest : List Char) : linesFrom line (c :: rest) = linesFrom (c :: line) rest := by
  rw [linesFrom.eq_def line (c :: rest)]
  split
  · next h => cases h
  · next h =>
      cases h
      cases hc
  · next h =>
      cases h
      rw [hc]
      exact if_neg Bool.false_ne_true

theorem linesFrom_append_feed {cs : List Char} (h : ∀ c ∈ cs, endsLine c = false)
    (line rest : List Char) :
    linesFrom line (cs ++ '\n' :: rest) = (line.reverse ++ cs) :: lines rest := by
  induction cs generalizing line with
  | nil =>
      rw [List.append_nil]
      rfl
  | cons c cs ih =>
      obtain ⟨hc, hcs⟩ := List.forall_mem_cons.mp h
      rw [List.cons_append, linesFrom_cons_of_not_endsLine hc, ih hcs, List.reverse_cons,
        List.append_assoc, List.singleton_append]

theorem lines_flatMap_feed {pieces : List (List Char)}
    (h : ∀ piece ∈ pieces, ∀ c ∈ piece, endsLine c = false) :
    lines (pieces.flatMap fun piece => piece ++ ['\n']) = pieces := by
  induction pieces with
  | nil => rfl
  | cons piece pieces ih =>
      obtain ⟨hpiece, hpieces⟩ := List.forall_mem_cons.mp h
      rw [List.flatMap_cons, List.append_assoc, List.singleton_append, lines,
        linesFrom_append_feed hpiece, ih hpieces]
      rfl

end Text

/-! ## Entries -/

namespace LogEntry

def texts (e : LogEntry) : List (String × String) :=
  [("time", e.time), ("level", e.level), ("logger", e.logger), ("message", e.message)] ++
    e.exception.toList.map fun text => ("exception", text)

theorem members_eq (e : LogEntry) : e.members = Json.textMembers e.texts := by
  simp [members, texts, Json.textMembers]

theorem toList_line (e : LogEntry) :
    e.line.toList = Json.renderChars (.object (Json.textMembers e.texts)) := by
  rw [line, Json.render, String.toList_ofList, members_eq]

theorem nodup_names (e : LogEntry) : (e.texts.map (·.1)).Nodup := by
  unfold texts
  cases e.exception with
  | none => simp
  | some text => simp

theorem isPrintableAscii_line (e : LogEntry) : ∀ c ∈ e.line.toList, Json.IsPrintableAscii c := by
  rw [toList_line]
  exact Json.isPrintableAscii_renderChars_textMembers e.texts

def log (entries : List LogEntry) : List Char :=
  entries.flatMap fun e => e.line.toList ++ ['\n']

theorem lines_log (entries : List LogEntry) :
    Text.lines (log entries) = entries.map (·.line.toList) := by
  have hclean : ∀ piece ∈ entries.map (·.line.toList), ∀ c ∈ piece, Text.endsLine c = false := by
    intro piece hpiece c hc
    obtain ⟨e, _, rfl⟩ := List.mem_map.mp hpiece
    exact Text.endsLine_eq_false (e.isPrintableAscii_line c hc)
  have hlines := Text.lines_flatMap_feed hclean
  rw [List.flatMap_map] at hlines
  exact hlines

/-- An entry is written in printable ASCII, its texts are read back under their names, and there is an
exception exactly if the entry has one. A log has one line for each entry. -/
theorem line_reads_back (e : LogEntry) (depth : Nat) :
    (∀ c ∈ e.line.toList, 0x20 ≤ c.toNat ∧ c.toNat < 0x7f) ∧
    (∃ ms : Json.Members, Json.parse? (depth + 1) e.line.toList = some (.object ms) ∧
      ms.get? "time" = some (.str e.time) ∧ ms.get? "level" = some (.str e.level) ∧
      ms.get? "logger" = some (.str e.logger) ∧ ms.get? "message" = some (.str e.message) ∧
      ms.get? "exception" = e.exception.map .str) ∧
    ∀ entries : List LogEntry, Text.lines (log entries) = entries.map (·.line.toList) := by
  refine ⟨e.isPrintableAscii_line, ⟨e.members, ?_, rfl, rfl, rfl, rfl, ?_⟩, lines_log⟩
  · rw [toList_line, members_eq]
    exact Json.parse?_render_textMembers e.nodup_names depth
  · unfold members
    cases e.exception with
    | none => rfl
    | some text => rfl

/-- A message with a quote, a line feed, a line separator and a character beyond sixteen bits. -/
theorem line_reads_back_escaped :
    let e : LogEntry := {
      time := "2024-02-29T23:59:59"
      level := "WARNING"
      logger := "audit.scan"
      message := "\"a\" \\ \n \u2028 𝄞"
      exception := some "ValueError: \r\n" }
    '\\' ∈ e.line.toList ∧ (0x20 ≤ '\\'.toNat ∧ '\\'.toNat < 0x7f) ∧
      (∃ ms : Json.Members, Json.parse? 1 e.line.toList = some (.object ms) ∧
        ms.get? "message" = some (.str "\"a\" \\ \n \u2028 𝄞") ∧
        ms.get? "exception" = some (.str "ValueError: \r\n")) ∧
      Text.lines (log [e, e]) = [e.line.toList, e.line.toList] := by
  intro e
  have hmem : '\\' ∈ e.line.toList := by
    rw [toList_line]
    decide +kernel
  obtain ⟨hprintable, ⟨ms, hread, _, _, _, hmessage, hexception⟩, hlines⟩ := e.line_reads_back 0
  exact ⟨hmem, hprintable _ hmem, ⟨ms, hread, hmessage, hexception⟩, hlines [e, e]⟩

end LogEntry
end SolidityAudit
