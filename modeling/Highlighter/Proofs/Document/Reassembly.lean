import Highlighter.Proofs.Document.Coherence
import Highlighter.Proofs.Line

/-!
# Documents and their texts

The text of a document may be read again. All that a coherent document keeps follows from its
lines, so the document of its text is the same if it has the same lines
(`Coherent.ofText_text_eq_iff`), which is a question of texts alone (`splitLines_joinLines_iff`).

The lines of a new document are its own again, but for those that end in a carriage return even
without the one that is taken away. Edits may bring in more lines that are not: an inserted line
is kept as it is, with the line feeds in it, and all lines may be removed, while a text has one
line at least.
-/

namespace Highlighter.Document

variable {document document' : Document}

/-- What a coherent document keeps is told by its texts. -/
theorem Coherent.eq_of_texts (h : document.Coherent) (h' : document'.Coherent)
    (ht : document.texts = document'.texts) : document = document' := by
  have hlines : document.lines = document'.lines := by
    refine List.ext_getElem? fun i => ?_
    rw [h.getElem?_eq i, h'.getElem?_eq i]
    simp only [show document.lines.map (·.text) = document'.lines.map (·.text) from ht]
  have hfinal : document.final = document'.final := by
    rw [h.final_eq, h'.final_eq, hlines]
  cases document
  cases document'
  cases hlines
  cases hfinal
  rfl

/-- The document of the text of a coherent document is the same if it has the same lines. -/
theorem Coherent.ofText_text_eq_iff (h : document.Coherent) :
    ofText document.text = document ↔ splitLines document.text = document.texts := by
  rw [← texts_ofText]
  exact ⟨congrArg Document.texts, (coherent_ofText _).eq_of_texts h⟩

theorem lineCount_ofText (text : Text) : (ofText text).lineCount = text.count '\n' + 1 := by
  rw [← length_texts, texts_ofText, length_splitLines]

/-- A new document has one line more than its text has line feeds, none of them with a line feed
    in it, and its text is the one given without the carriage returns at the ends of the lines.
    After edits, a document is the document of its text just if there are lines, none of them
    holds a line feed, and none ends in a carriage return. -/
theorem ofText_text_reassembles (text : Text) :
    (ofText text).lineCount = text.count '\n' + 1 ∧
    (∀ line ∈ (ofText text).texts, '\n' ∉ line) ∧
    (ofText text).text = dropReturns text ∧
    ∀ edits : List Edit,
      let edited := (ofText text).afterEdits edits
      ofText edited.text = edited ↔
        edited.texts ≠ [] ∧ ∀ line ∈ edited.texts, '\n' ∉ line ∧ line.getLast? ≠ some '\r' := by
  refine ⟨lineCount_ofText text, fun line hmem => ?_, ?_, fun edits => ?_⟩
  · rw [texts_ofText] at hmem
    exact newline_not_mem_of_mem_splitLines hmem
  · rw [Document.text, texts_ofText, joinLines_splitLines]
  · intro edited
    have hc : edited.Coherent := ((Reachable.ofText text).afterEdits edits).coherent
    rw [hc.ofText_text_eq_iff]
    exact splitLines_joinLines_iff

end Highlighter.Document
