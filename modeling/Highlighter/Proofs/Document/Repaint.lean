import Highlighter.Proofs.Document.Coherence

/-!
# The range of a repaint

An edit repaints from where it is made up to the first line, not before the end of the lines
inserted, at which it is seen to make no difference; all other lines are kept, with all that
is kept for them (`SpliceExact`). It is enough that the document was coherent before the edit
(`isLeast_stop_splice`): then the contexts with which `relex` compares are those that come of
reading the text before the edit, though it never reads that text again.
-/

namespace Highlighter.Document

variable {document : Document} {index remove : Nat} {insert : List Text} {edited : Edited}

/-- What a splice does to a document: it repaints from `index` up to the first line, not
    before the end of the lines inserted, at which the contexts before and after the edit
    agree. Lines outside the repaint are kept, with their contexts and tokens. -/
structure SpliceExact (old : Document) (index remove : Nat) (insert : List Text)
    (edited : Edited) : Prop where
  inRange : index + remove ≤ old.lineCount
  texts : edited.document.texts =
    old.texts.take index ++ insert ++ old.texts.drop (index + remove)
  first : edited.repaint.first = index
  /-- The line `k` was the line `k - insert.length + remove` before the edit. -/
  stop : IsLeast {k | index + insert.length ≤ k ∧ (k = edited.document.lineCount ∨
    old.befores[k - insert.length + remove]? =
      some (contextAfter {} (edited.document.texts.take k)))} edited.repaint.stop
  before : ∀ i < index, edited.document.lines[i]? = old.lines[i]?
  after : ∀ i ≥ edited.repaint.stop,
    edited.document.lines[i]? = old.lines[i - insert.length + remove]?
  final : edited.repaint.stop < edited.document.lineCount → edited.document.final = old.final

theorem length_take_lines (h : document.splice index remove insert = .ok edited) :
    (document.lines.take index).length = index :=
  List.length_take_of_le (Nat.le_of_add_right_le (splice_eq_ok h).1)

/-- Before the edit, lines are kept. -/
theorem getElem?_lines_of_lt (h : document.splice index remove insert = .ok edited) {i : Nat}
    (hi : i < index) : edited.document.lines[i]? = document.lines[i]? := by
  rw [(splice_eq_ok h).2.1, List.getElem?_append_left (by rwa [length_take_lines h]),
    List.getElem?_take_of_lt hi]

/-- After the lines inserted, the lines to be read are lines of the document. -/
theorem getElem?_toRead {k : Nat} (hk : insert.length ≤ k) :
    (document.toRead index remove insert)[k]? =
      document.lines[index + k - insert.length + remove]? := by
  rw [toRead, List.getElem?_append_right (by simpa using hk), List.getElem?_drop, List.length_map]
  congr 1
  omega

theorem length_le_length_toRead : insert.length ≤ (document.toRead index remove insert).length := by
  simp [toRead]

/-- From the end of the repaint on, lines are kept. -/
theorem getElem?_lines_of_ge (h : document.splice index remove insert = .ok edited) {i : Nat}
    (hi : i ≥ edited.repaint.stop) :
    edited.document.lines[i]? = document.lines[i - insert.length + remove]? := by
  obtain ⟨-, hlines, -, -, hstop⟩ := splice_eq_ok h
  obtain ⟨j, rfl⟩ := Nat.exists_eq_add_of_le (hstop ▸ hi)
  have hm : insert.length ≤ (document.spliced index remove insert).count :=
    (isLeast_count_relex _ length_le_length_toRead).1.1
  rw [hlines, List.getElem?_append_right (by rw [length_take_lines h]; omega), length_take_lines h,
    Nat.add_assoc, Nat.add_sub_cancel_left, ← List.getElem?_drop, spliced, drop_lines_relex,
    List.getElem?_drop, ← spliced, getElem?_toRead (Nat.le_add_right_of_le hm)]

/-- The number of lines after an edit. -/
theorem lineCount_splice (h : document.splice index remove insert = .ok edited) :
    edited.document.lineCount = index + (document.toRead index remove insert).length := by
  obtain ⟨-, hlines, -⟩ := splice_eq_ok h
  rw [lineCount, hlines, List.length_append, length_take_lines h, spliced,
    ← List.length_map (fun line : DocumentLine => line.text), map_text_lines_relex, List.length_map]

/-- The lines to be read leave the contexts that the edited texts leave from scratch. -/
theorem contextAfter_take_toRead (hc : document.Coherent)
    (h : document.splice index remove insert = .ok edited) (k : Nat) :
    contextAfter (document.contextBefore index)
        (((document.toRead index remove insert).take k).map (·.text)) =
      contextAfter {} (edited.document.texts.take (index + k)) := by
  have hl : (document.texts.take index).length = index := by
    rw [texts, ← List.map_take, List.length_map, length_take_lines h]
  rw [texts_splice h, List.append_assoc, List.take_append, hl, Nat.add_sub_cancel_left,
    List.take_of_length_le (hl.le.trans (Nat.le_add_right ..)), contextAfter_append,
    (hc.readFrom_take index).1.final_eq, List.map_take, List.map_take, map_text_toRead, texts]

/-- Reading may stop where the contexts before and after the edit agree. -/
theorem mayStop_toRead (hc : document.Coherent)
    (h : document.splice index remove insert = .ok edited) {k : Nat} (hk : insert.length ≤ k) :
    MayStop (document.contextBefore index) (document.toRead index remove insert) k ↔
      index + k = edited.document.lineCount ∨
        document.befores[index + k - insert.length + remove]? =
          some (contextAfter {} (edited.document.texts.take (index + k))) := by
  rw [MayStop, contextAfter_take_toRead hc h, getElem?_toRead hk, lineCount_splice h, befores,
    List.getElem?_map, Nat.add_left_cancel_iff]

/-- The repaint stops as soon as the contexts before and after the edit agree. -/
theorem isLeast_stop_splice (hc : document.Coherent)
    (h : document.splice index remove insert = .ok edited) :
    IsLeast {k | index + insert.length ≤ k ∧ (k = edited.document.lineCount ∨
      document.befores[k - insert.length + remove]? =
        some (contextAfter {} (edited.document.texts.take k)))} edited.repaint.stop := by
  have hlength : insert.length ≤ (document.toRead index remove insert).length :=
    length_le_length_toRead
  obtain ⟨⟨hd, hs⟩, hmin⟩ := isLeast_count_relex (document.contextBefore index) hlength
  rw [(splice_eq_ok h).2.2.2.2]
  refine ⟨⟨Nat.add_le_add_left hd _, (mayStop_toRead hc h hd).1 hs⟩, fun k ⟨hk, hks⟩ => ?_⟩
  obtain ⟨j, rfl⟩ := Nat.exists_eq_add_of_le (Nat.le_of_add_right_le hk)
  have hj : insert.length ≤ j := Nat.le_of_add_le_add_left hk
  exact Nat.add_le_add_left (hmin ⟨hj, (mayStop_toRead hc h hj).2 hks⟩) _

/-- A splice that succeeds on a reachable document is exact, and replacing a line is a
    splice. -/
theorem splice_exact (hr : document.Reachable)
    (h : document.splice index remove insert = .ok edited) :
    SpliceExact document index remove insert edited ∧
      ∀ i text, i < document.lineCount →
        document.replaceLine i text = document.splice i 1 [text] := by
  obtain ⟨hrange, -, hfinal, hfirst, hstop⟩ := splice_eq_ok h
  refine ⟨⟨hrange, texts_splice h, hfirst, isLeast_stop_splice hr.coherent h,
    fun i hi => getElem?_lines_of_lt h hi, fun i hi => getElem?_lines_of_ge h hi, fun hlt => ?_⟩,
    fun i text hi => replaceLine_eq_splice hi⟩
  rw [hstop, lineCount_splice h] at hlt
  rw [hfinal, spliced, final?_relex_eq_none (Nat.lt_of_add_lt_add_left hlt), Option.getD_none]

/-- A literal that is opened and closed again in the lines inserted makes no difference
    after them. -/
theorem splice_exact_literal :
    ∃ edited, (ofText "a [\nb\nc ]".toList).splice 1 1 ["\"".toList, "d\"".toList, "e".toList] =
        .ok edited ∧
      edited.repaint = ⟨1, 4, true⟩ ∧
      SpliceExact (ofText "a [\nb\nc ]".toList) 1 1 ["\"".toList, "d\"".toList, "e".toList]
        edited :=
  ⟨_, rfl, by decide +kernel, (splice_exact (.ofText _) rfl).1⟩

end Highlighter.Document
