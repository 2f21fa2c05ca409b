import Highlighter.Document.Columns
import Highlighter.Proofs.Document.Coherence

/-!
# Columns against documents

A document in columns is edited as the document itself (`edit?_ofDocument`): the columns of a
document (`ofDocument`) become those of the document after the edit, and the answer is the same.
So no edit ever looks outside a column, and all that is known of documents holds of columns, too.

The columns that a host can come to (`Reachable`) hold no more lines than a word can count. Then
an edit is refused only if it goes beyond the last line, however large the words are that it
names, and a refused edit changes nothing (`refused_iff`):

* the range of a splice is compared by a difference that never wraps around
  (`isOutOfRange_iff`);
* where it is in range, the sum does not wrap around, either.
-/

namespace Highlighter

/-! ## Access to a column -/

namespace Column

variable {α : Type}

theorem put?_append_cons (done : List α) (item item' : α) (todo : List α) :
    put? (done ++ item :: todo) done.length item' = some (done ++ item' :: todo) := by
  rw [put?, if_pos (by simp), List.set_append_right _ _ (Nat.le_refl _), Nat.sub_self,
    List.set_cons_zero]

theorem replace?_of_le {column : List α} {start stop : Nat} (h : start ≤ stop)
    (h' : stop ≤ column.length) (items : List α) :
    replace? column start stop items =
      some (column.take start ++ items ++ column.drop stop) :=
  if_pos ⟨h, h'⟩

end Column

/-! ## Refused edits -/

namespace Document

variable {document : Document} {index remove : Nat} {insert : List Text} {text : Text}
  {e : EditError}

theorem splice_eq_error_iff :
    document.splice index remove insert = .error e ↔
      document.lineCount < index + remove ∧
        e = .spliceOutOfRange index remove document.lineCount := by
  by_cases h : document.lineCount < index + remove
  · simp [splice_eq_error h, h, eq_comm]
  · obtain ⟨edited, hok⟩ := exists_splice_eq_ok (Nat.le_of_not_lt h) insert
    simp [hok, h]

theorem replaceLine_eq_error_iff :
    document.replaceLine index text = .error e ↔
      document.lineCount ≤ index ∧ e = .lineOutOfRange index document.lineCount := by
  by_cases h : document.lineCount ≤ index
  · simp [replaceLine, h, eq_comm]
  · -- the splice of a line that is there is not refused
    have hlt : index < document.lineCount := Nat.lt_of_not_le h
    rw [replaceLine_eq_splice hlt, splice_eq_error_iff]
    exact iff_of_false (fun hs => Nat.not_le_of_lt hs.1 hlt) fun hs => h hs.1

theorem afterEdit_of_error (change : Edit) (h : document.edit change = .error e) :
    document.afterEdit change = document := by
  rw [afterEdit, h]

end Document

namespace Columns

variable {columns : Columns} {document : Document} {done todo : List DocumentLine}
  {line : DocumentLine} {ctx final : Context} {place dirtyEnd : Nat}

/-- The columns of a document. -/
def ofDocument (document : Document) : Columns :=
  ⟨document.texts, document.befores, document.tokenRows, document.final⟩

@[simp] theorem texts_ofDocument (document : Document) :
    (ofDocument document).texts = document.texts := rfl

@[simp] theorem befores_ofDocument (document : Document) :
    (ofDocument document).befores = document.befores := rfl

@[simp] theorem tokenRows_ofDocument (document : Document) :
    (ofDocument document).tokenRows = document.tokenRows := rfl

/-! ## Reading lines again -/

theorem isKept?_ofDocument :
    (ofDocument ⟨done ++ line :: todo, final⟩).isKept? done.length dirtyEnd ctx =
      some (decide (dirtyEnd - done.length = 0 ∧ line.before = ctx)) := by
  have hbefore : (Document.befores ⟨done ++ line :: todo, final⟩)[done.length]? =
      some line.before := by
    simp [Document.befores]
  rw [isKept?, befores_ofDocument, hbefore, Option.map_some]
  split
  · have hdirty : dirtyEnd - done.length ≠ 0 := by omega
    simp [hdirty]
  · have hclean : dirtyEnd - done.length = 0 := by omega
    simp [hclean]

theorem readLine?_ofDocument :
    (ofDocument ⟨done ++ line :: todo, final⟩).readLine? done.length ctx =
      let read := tokenizeLine ctx line.text
      some (read.2, ofDocument ⟨done ++ ⟨line.text, ctx, read.1⟩ :: todo, final⟩) := by
  have hput {α : Type} (f : DocumentLine → α) (item : α) :
      Column.put? (done.map f ++ f line :: todo.map f) done.length item =
        some (done.map f ++ item :: todo.map f) := by
    simpa using Column.put?_append_cons (done.map f) (f line) item (todo.map f)
  simp [readLine?, ofDocument, Document.texts, Document.befores, Document.tokenRows,
    hput (·.before), hput (·.tokens)]

/-- Lines in columns are read again as the lines of a document are, where `done` are the lines
    before those that are read. -/
theorem relexFrom?_ofDocument :
    (ofDocument ⟨done ++ todo, final⟩).relexFrom? done.length dirtyEnd ctx =
      let read := Document.relex (dirtyEnd - done.length) ctx todo
      some ((done.length + read.count, read.final?.isNone),
        ofDocument ⟨done ++ read.lines, read.final?.getD final⟩) := by
  induction todo generalizing done ctx with
  | nil =>
    rw [relexFrom?, if_neg (by simp [Document.texts]), Document.relex_nil]
    rfl
  | cons line todo ih =>
    rw [relexFrom?, if_pos (by simp [Document.texts]), isKept?_ofDocument]
    by_cases h : dirtyEnd - done.length = 0 ∧ line.before = ctx
    · rw [decide_eq_true h, h.1, Document.relex_cons_stop h.2]
      rfl
    · rw [decide_eq_false h, readLine?_ofDocument, Document.relex_cons_read h]
      -- the line that was read is done now
      have hread := @ih (done ++ [⟨line.text, ctx, (tokenizeLine ctx line.text).1⟩])
        (tokenizeLine ctx line.text).2
      rw [List.length_append, List.length_singleton, List.append_assoc, List.singleton_append,
        Nat.sub_add_eq] at hread
      dsimp only at hread ⊢
      rw [hread, List.append_assoc, List.singleton_append, Nat.add_assoc, Nat.add_comm 1]

/-- The columns of a text are those of its document. -/
theorem ofText?_eq (text : Text) : ofText? text = some (ofDocument (.ofText text)) := by
  have hunread (texts : List Text) :
      (⟨texts, .replicate texts.length {}, .replicate texts.length [], {}⟩ : Columns) =
        ofDocument ⟨[] ++ texts.map .unread, {}⟩ := by
    simp [ofDocument, Document.texts, Document.befores, Document.tokenRows, DocumentLine.unread,
      Function.comp_def, List.map_const']
  rw [ofText?, hunread, show 0 = ([] : List DocumentLine).length from rfl, relexFrom?_ofDocument]
  rfl

/-! ## Edits -/

variable {index remove : UInt64} {insert : List Text} {text : Text}

theorem replaceLines?_ofDocument {start stop : Nat} (h : start ≤ stop)
    (h' : stop ≤ document.lineCount) (insert : List Text) :
    (ofDocument document).replaceLines? start stop insert =
      some (ofDocument ⟨document.lines.take start ++
        (insert.map .unread ++ document.lines.drop stop), document.final⟩) := by
  rw [replaceLines?, texts_ofDocument, befores_ofDocument, tokenRows_ofDocument,
    Column.replace?_of_le h (by simpa using h'), Column.replace?_of_le h (by simpa using h'),
    Column.replace?_of_le h (by simpa using h')]
  simp [ofDocument, Document.texts, Document.befores, Document.tokenRows, DocumentLine.unread,
    List.map_take, List.map_drop, Function.comp_def, List.map_const']

/-- Where the lines can be counted by a word, the number of them is what it says. -/
theorem toNat_lineCount (h : columns.texts.length < UInt64.size) :
    columns.lineCount.toNat = columns.texts.length :=
  UInt64.toNat_ofNat_of_lt' h

/-- The range of a splice is compared with the number of lines as if words had no bound. -/
theorem isOutOfRange_iff (h : columns.texts.length < UInt64.size) :
    columns.isOutOfRange index remove ↔ columns.texts.length < index.toNat + remove.toNat := by
  have hcount := toNat_lineCount h
  simp only [isOutOfRange, Bool.or_eq_true, decide_eq_true_eq, UInt64.lt_iff_toNat_lt, hcount]
  by_cases hindex : columns.texts.length < index.toNat
  · exact iff_of_true (.inl hindex) (Nat.lt_add_right _ hindex)
  · have hle : index ≤ columns.lineCount := by
      rw [UInt64.le_iff_toNat_le, hcount]
      exact Nat.le_of_not_lt hindex
    rw [UInt64.toNat_sub_of_le _ _ hle, hcount]
    omega

/-- Where it is in range, the sum of its words does not wrap around. -/
theorem toNat_add_of_not_isOutOfRange (h : columns.texts.length < UInt64.size)
    (hr : ¬columns.isOutOfRange index remove) :
    (index + remove).toNat = index.toNat + remove.toNat := by
  rw [isOutOfRange_iff h] at hr
  rw [UInt64.toNat_add]
  exact Nat.mod_eq_of_lt (Nat.lt_of_le_of_lt (Nat.le_of_not_lt hr) h)

theorem contextBefore_eq (document : Document) (index : Nat) :
    (ofDocument document).befores[index]?.getD (ofDocument document).final =
      document.contextBefore index := by
  rw [Document.contextBefore, befores_ofDocument, Document.befores, List.getElem?_map]
  cases document.lines[index]? <;> rfl

/-- What an edit answers that has this outcome. -/
def answerOf : Except EditError Edited → Answer :=
  Except.map fun edited => (edited.repaint, edited.log)

/-- A splice of columns is that of the document, and never looks outside a column. -/
theorem splice?_ofDocument (h : document.lineCount < UInt64.size) (index remove : UInt64)
    (insert : List Text) :
    (ofDocument document).splice? index remove insert =
      some (answerOf (document.splice index.toNat remove.toNat insert),
        ofDocument (document.afterEdit (.splice index.toNat remove.toNat insert))) := by
  have hfits : (ofDocument document).texts.length < UInt64.size := by simpa using h
  rw [splice?, Document.afterEdit, Document.edit]
  by_cases hr : (ofDocument document).isOutOfRange index remove
  · have hrange : document.lineCount < index.toNat + remove.toNat := by
      simpa using (isOutOfRange_iff hfits).1 hr
    rw [if_pos hr, Document.splice_eq_error hrange, toNat_lineCount hfits]
    simp [answerOf, Except.map]
  · have hrange : index.toNat + remove.toNat ≤ document.lineCount := by
      simpa using mt (isOutOfRange_iff hfits).2 hr
    have hlength : (document.lines.take index.toNat).length = index.toNat :=
      List.length_take_of_le ((Nat.le_add_right ..).trans hrange)
    have hrelex := @relexFrom?_ofDocument (document.lines.take index.toNat)
      (insert.map .unread ++ document.lines.drop (index.toNat + remove.toNat))
      (document.contextBefore index.toNat) document.final (index.toNat + insert.length)
    rw [hlength, Nat.add_sub_cancel_left] at hrelex
    rw [if_neg hr, Document.splice, if_neg (Nat.not_lt_of_le hrange),
      toNat_add_of_not_isOutOfRange hfits hr]
    simp only [replaceLines?_ofDocument (Nat.le_add_right ..) hrange, contextBefore_eq,
      Option.bind_eq_bind, Option.bind_some, hrelex]
    rfl

/-- The edit of a document that a host asks for. -/
def Edit.toDocument : Edit → Highlighter.Edit
  | .replaceLine index text => .replaceLine index.toNat text
  | .splice index remove insert => .splice index.toNat remove.toNat insert

theorem replaceLine?_ofDocument (h : document.lineCount < UInt64.size) (index : UInt64)
    (text : Text) :
    (ofDocument document).replaceLine? index text =
      some (answerOf (document.replaceLine index.toNat text),
        ofDocument (document.afterEdit (.replaceLine index.toNat text))) := by
  have hfits : (ofDocument document).texts.length < UInt64.size := by simpa using h
  have hcount : (ofDocument document).lineCount.toNat = document.lineCount := by
    simpa using toNat_lineCount hfits
  rw [replaceLine?, Document.afterEdit, Document.edit]
  by_cases hr : document.lineCount ≤ index.toNat
  · rw [if_pos (by rwa [UInt64.le_iff_toNat_le, hcount]), Document.replaceLine, if_pos hr, hcount]
    rfl
  · rw [if_neg (by rwa [UInt64.le_iff_toNat_le, hcount]),
      Document.replaceLine_eq_splice (Nat.lt_of_not_le hr)]
    exact splice?_ofDocument h index 1 [text]

/-- Columns are edited as their document is. -/
theorem edit?_ofDocument (h : document.lineCount < UInt64.size) (e : Edit) :
    (ofDocument document).edit? e =
      some (answerOf (document.edit e.toDocument),
        ofDocument (document.afterEdit e.toDocument)) := by
  cases e with
  | replaceLine index text => exact replaceLine?_ofDocument h index text
  | splice index remove insert => exact splice?_ofDocument h index remove insert

/-! ## Any edits -/

/-- The columns that come of a text by edits, refused or not, as long as a word can count their
    lines. -/
inductive Reachable : Columns → Prop
  | ofText {text : Text} {columns : Columns} :
    ofText? text = some columns → columns.texts.length < UInt64.size → Reachable columns
  | edit {columns after : Columns} {e : Edit} {answer : Answer} :
    Reachable columns → columns.edit? e = some (answer, after) →
      after.texts.length < UInt64.size → Reachable after

/-- The columns that a host can come to are those of a document that edits can come to. -/
theorem Reachable.exists_document (h : columns.Reachable) :
    ∃ document : Document, document.Reachable ∧ document.lineCount < UInt64.size ∧
      columns = ofDocument document := by
  induction h with
  | @ofText text columns htext hfits =>
    obtain rfl := Option.some.inj (htext.symm.trans (ofText?_eq text))
    exact ⟨.ofText text, .ofText text, by simpa using hfits, rfl⟩
  | @edit columns after e answer _ hedit hfits ih =>
    obtain ⟨document, hreachable, hcount, rfl⟩ := ih
    cases hedit.symm.trans (edit?_ofDocument hcount e)
    exact ⟨_, hreachable.afterEdit e.toDocument, by simpa using hfits, rfl⟩

theorem answerOf_eq_error_iff {outcome : Except EditError Edited} {e : EditError} :
    answerOf outcome = .error e ↔ outcome = .error e := by
  cases outcome <;> simp [answerOf, Except.map]

/-- An edit is refused only if it goes beyond the last line, and then it says so and changes
    nothing. No edit looks outside a column. -/
theorem refused_iff (h : columns.Reachable) (index remove : UInt64) (text : Text)
    (insert : List Text) :
    let count := columns.texts.length
    (∃ answer after, columns.replaceLine? index text = some (answer, after) ∧
      ((∃ e, answer = .error e) ↔ count ≤ index.toNat) ∧
      ∀ e, answer = .error e → e = .lineOutOfRange index.toNat count ∧ after = columns) ∧
    (∃ answer after, columns.splice? index remove insert = some (answer, after) ∧
      ((∃ e, answer = .error e) ↔ count < index.toNat + remove.toNat) ∧
      ∀ e, answer = .error e →
        e = .spliceOutOfRange index.toNat remove.toNat count ∧ after = columns) := by
  obtain ⟨document, -, hcount, rfl⟩ := h.exists_document
  rw [texts_ofDocument, Document.length_texts]
  refine ⟨⟨_, _, replaceLine?_ofDocument hcount index text, ?_, fun e he => ?_⟩,
    ⟨_, _, splice?_ofDocument hcount index remove insert, ?_, fun e he => ?_⟩⟩
  · simp [answerOf_eq_error_iff, Document.replaceLine_eq_error_iff]
  · rw [answerOf_eq_error_iff] at he
    rw [Document.afterEdit_of_error (.replaceLine ..) he]
    exact ⟨(Document.replaceLine_eq_error_iff.1 he).2, rfl⟩
  · simp [answerOf_eq_error_iff, Document.splice_eq_error_iff]
  · rw [answerOf_eq_error_iff] at he
    rw [Document.afterEdit_of_error (.splice ..) he]
    exact ⟨(Document.splice_eq_error_iff.1 he).2, rfl⟩

/-- A range that ends after the largest word is refused, and one that ends with the last line is
    not. -/
theorem refused_iff_two_lines :
    let columns := ofDocument (.ofText "a\nb".toList)
    let last : UInt64 := 18446744073709551615
    columns.Reachable ∧
      columns.splice? last 2 [] = some (.error (.spliceOutOfRange last.toNat 2 2), columns) ∧
      ∃ repaint after, columns.splice? 0 2 [] = some (.ok repaint, after) := by
  intro columns last
  have hreachable : columns.Reachable :=
    .ofText (ofText?_eq "a\nb".toList) (by decide +kernel)
  have hcount : columns.texts.length = 2 := by decide +kernel
  refine ⟨hreachable, ?_, ?_⟩
  · obtain ⟨-, answer, after, hsplice, hiff, herror⟩ := refused_iff hreachable last 2 [] []
    rw [hcount] at hiff herror
    obtain ⟨e, rfl⟩ := hiff.2 (by decide)
    obtain ⟨rfl, rfl⟩ := herror e rfl
    exact hsplice
  · obtain ⟨-, answer, after, hsplice, hiff, -⟩ := refused_iff hreachable 0 2 [] []
    rw [hcount] at hiff
    cases answer with
    | error e => exact absurd (hiff.1 ⟨e, rfl⟩) (by decide)
    | ok repaint => exact ⟨repaint, after, hsplice⟩

end Columns

end Highlighter
