import Highlighter.Listing
import Highlighter.Proofs.Document.Depth
import Highlighter.Proofs.Line

/-!
# The records of a document

A record stands on a line of its document: its text is what the line holds between its positions
(`StandsOn`). The records come line by line and, on a line, by their positions (`Precedes`), since
the tokens of a line cover it in order; leaving some of them out keeps them in order
(`pairwise_precedes_records`).

No line of a text holds a line feed, so neither does the text of a record
(`newline_not_mem_text`).
-/

namespace Highlighter

namespace TokenRecord

/-- A record stands on a line: its text is what the line holds from its start to its end. -/
def StandsOn (record : TokenRecord) (line : Text) : Prop :=
  ∃ before after, line = before ++ (record.text ++ after) ∧
    record.start = Text.byteLength before ∧
    record.stop = Text.byteLength before + Text.byteLength record.text

/-- A record is on an earlier line than another, or before it on the same line. -/
def Precedes (record other : TokenRecord) : Prop :=
  record.line < other.line ∨ record.line = other.line ∧ record.start < other.start

theorem StandsOn.slice?_eq {record : TokenRecord} {line : Text} (h : record.StandsOn line) :
    Text.slice? record.start record.stop line = some record.text := by
  obtain ⟨before, after, rfl, hstart, hstop⟩ := h
  rw [hstart, hstop]
  exact Text.slice?_append before record.text after

theorem StandsOn.subset {record : TokenRecord} {line : Text} (h : record.StandsOn line) :
    record.text ⊆ line := by
  obtain ⟨before, after, rfl, -⟩ := h
  exact fun _ hc => List.mem_append_right _ (List.mem_append_left _ hc)

end TokenRecord

namespace Document

variable {number : Nat} {line : DocumentLine} {lines : List DocumentLine} {record : TokenRecord}

/-! ## On a line -/

/-- The records of a line that its tokens cover stand on it. -/
theorem standsOn_of_mem_lineRecords (h : CoversLine line.text line.tokens)
    (hmem : record ∈ lineRecords number line) :
    record.line = number ∧ record.StandsOn line.text := by
  obtain ⟨token, htoken, rfl⟩ := List.mem_map.1 hmem
  obtain ⟨before, text, after, hline, -, hstart, hstop⟩ := h.whole token htoken
  have htext : token.text? line.text = some text := by
    rw [Token.text?, hline, hstart, hstop, Text.slice?_append]
  refine ⟨rfl, before, after, ?_, hstart, ?_⟩
  · rw [htext, Option.getD_some, hline]
  · rw [htext, Option.getD_some, hstop]

theorem pairwise_precedes_lineRecords (h : CoversLine line.text line.tokens) :
    (lineRecords number line).Pairwise TokenRecord.Precedes := by
  rw [lineRecords, List.pairwise_map]
  refine h.ordered.imp_of_mem fun {token next} htoken _ hle => .inr ⟨rfl, ?_⟩
  obtain ⟨before, text, after, -, hne, hstart, hstop⟩ := h.whole token htoken
  have := Text.byteLength_pos hne
  dsimp only
  omega

/-! ## On all lines -/

theorem exists_of_mem_recordsFrom (h : record ∈ recordsFrom number lines) :
    ∃ i line, lines[i]? = some line ∧ record ∈ lineRecords (number + i) line := by
  induction lines generalizing number with
  | nil => cases h
  | cons line lines ih =>
    rcases List.mem_append.1 h with h | h
    · exact ⟨0, line, rfl, h⟩
    · obtain ⟨i, line, hline, hmem⟩ := ih h
      exact ⟨i + 1, line, hline, by rwa [Nat.add_right_comm] at hmem⟩

theorem pairwise_precedes_recordsFrom
    (h : ∀ line ∈ lines, CoversLine line.text line.tokens) :
    (recordsFrom number lines).Pairwise TokenRecord.Precedes := by
  induction lines generalizing number with
  | nil => exact .nil
  | cons line lines ih =>
    obtain ⟨hfirst, hrest⟩ := List.forall_mem_cons.1 h
    refine List.pairwise_append.2
      ⟨pairwise_precedes_lineRecords hfirst, ih hrest, fun record hmem other hother => .inl ?_⟩
    -- the records of later lines have greater numbers
    obtain ⟨i, line', hline', hother⟩ := exists_of_mem_recordsFrom hother
    have hcovers := hrest line' (List.mem_of_getElem? hline')
    rw [(standsOn_of_mem_lineRecords hfirst hmem).1,
      (standsOn_of_mem_lineRecords hcovers hother).1]
    omega

/-! ## Of a text -/

variable {source : Text} {skip : Bool}

/-- The tokens of a line of a document cover it. -/
theorem coversLine_of_mem_lines (h : line ∈ (ofText source).lines) :
    CoversLine line.text line.tokens := by
  obtain ⟨before, htokens⟩ := ReadFrom.exists_tokens_eq (coherent_ofText source) h
  rw [htokens]
  exact Lexer.coversLine_tokenizeLine before line.text

/-- A record of a text stands on the line of the text that has its number. -/
theorem exists_line_of_mem_records (h : record ∈ (ofText source).records skip) :
    1 ≤ record.line ∧
      ∃ line, (splitLines source)[record.line - 1]? = some line ∧ record.StandsOn line := by
  obtain ⟨i, line, hline, hmem⟩ := exists_of_mem_recordsFrom (List.mem_of_mem_filter h)
  have hcovers := coversLine_of_mem_lines (List.mem_of_getElem? hline)
  obtain ⟨hnumber, hstands⟩ := standsOn_of_mem_lineRecords hcovers hmem
  refine ⟨by omega, line.text, ?_, hstands⟩
  rw [← texts_ofText, texts, hnumber, Nat.add_sub_cancel_left, List.getElem?_map, hline,
    Option.map_some]

theorem pairwise_precedes_records :
    ((ofText source).records skip).Pairwise TokenRecord.Precedes :=
  (pairwise_precedes_recordsFrom fun _ => coversLine_of_mem_lines).filter _

/-- No text of a record holds a line feed. -/
theorem newline_not_mem_text (h : record ∈ (ofText source).records skip) : '\n' ∉ record.text := by
  obtain ⟨-, line, hline, hstands⟩ := exists_line_of_mem_records h
  exact fun hc => newline_not_mem_of_mem_splitLines (List.mem_of_getElem? hline)
    (hstands.subset hc)

end Document

end Highlighter
