import Highlighter.Document.Edit
import Highlighter.Proofs.Document.Relex

/-!
# Edits against reading from scratch

A document is *coherent* if all that it keeps follows from the texts of its lines, read
from the beginning. The document of a text is coherent (`coherent_ofText`), and an edit
keeps it so (`Coherent.afterEdit`): the lines before the edit are read as before, and
those after it have been read in *some* context, which is all that `relex` asks for. So
every reachable document is coherent (`Reachable.coherent`), whatever the edits and
whether or not they were refused.

* `splice_eq_ok`: what an edit makes of a document that is not coherent, too;
* `afterEdits_fromScratch`: after edits, a document holds what reading the edited texts
  from scratch gives, line by line.
-/

namespace Highlighter

/-- The texts of lines after an edit, which is refused if it names lines that are not
    there. -/
def Edit.applyTo (texts : List Text) : Edit → List Text
  | .replaceLine index text => texts.set index text
  | .splice index remove insert =>
    if texts.length < index + remove then texts
    else texts.take index ++ insert ++ texts.drop (index + remove)

namespace Document

/-- The contexts before the lines. -/
def befores (document : Document) : List Context :=
  document.lines.map (·.before)

/-- The tokens of the lines. -/
def tokenRows (document : Document) : List (List Token) :=
  document.lines.map (·.tokens)

@[simp] theorem length_texts (document : Document) : document.texts.length = document.lineCount :=
  List.length_map _

@[simp] theorem length_befores (document : Document) :
    document.befores.length = document.lineCount :=
  List.length_map _

@[simp] theorem length_tokenRows (document : Document) :
    document.tokenRows.length = document.lineCount :=
  List.length_map _

/-! ## Coherence -/

/-- All that is kept follows from the texts, read from the beginning. -/
def Coherent (document : Document) : Prop :=
  ReadFrom {} document.lines document.final

/-- The documents that come of a text by edits, refused or not. -/
inductive Reachable : Document → Prop
  | ofText (text : Text) : Reachable (ofText text)
  | afterEdit {document : Document} (e : Edit) :
    Reachable document → Reachable (document.afterEdit e)

theorem Reachable.afterEdits {document : Document} (h : document.Reachable) (edits : List Edit) :
    (document.afterEdits edits).Reachable := by
  induction edits generalizing document with
  | nil => exact h
  | cons e edits ih => exact ih (h.afterEdit e)

theorem map_text_unread (texts : List Text) :
    (texts.map DocumentLine.unread).map (·.text) = texts := by
  simp [Function.comp_def, DocumentLine.unread]

@[simp] theorem texts_ofLines (texts : List Text) : (ofLines texts).texts = texts := by
  simp only [ofLines, Document.texts, map_text_lines_relex, map_text_unread]

theorem texts_ofText (text : Text) : (ofText text).texts = splitLines text :=
  texts_ofLines _

theorem coherent_ofLines (texts : List Text) : (ofLines texts).Coherent := by
  refine readFrom_relex (c := ({} : Context)) {} ?_
  simp only [List.drop_eq_nil_of_le, List.length_map, Nat.le_refl]
  exact .nil

theorem coherent_ofText (text : Text) : (ofText text).Coherent :=
  coherent_ofLines _

/-- In a coherent document, reading the lines before a place leaves the context kept there. -/
theorem Coherent.readFrom_take {document : Document} (h : document.Coherent) (index : Nat) :
    ReadFrom {} (document.lines.take index) (document.contextBefore index) ∧
      ReadFrom (document.contextBefore index) (document.lines.drop index) document.final := by
  rw [Coherent, ← List.take_append_drop index document.lines, readFrom_append] at h
  obtain ⟨between, h₁, h₂⟩ := h
  suffices hb : document.contextBefore index = between from hb ▸ ⟨h₁, h₂⟩
  rw [contextBefore, ← Nat.add_zero index, ← List.getElem?_drop]
  generalize document.lines.drop index = rest at h₂ ⊢
  cases h₂ with
  | nil => rfl
  | cons _ => rfl

/-! ## What an edit does -/

variable {document : Document} {index remove : Nat} {insert : List Text} {edited : Edited}

/-- The lines that a splice puts after `index`: those inserted, which are dirty, and those
    after the ones removed. -/
def toRead (document : Document) (index remove : Nat) (insert : List Text) :
    List DocumentLine :=
  insert.map .unread ++ document.lines.drop (index + remove)

/-- What comes of reading them. -/
def spliced (document : Document) (index remove : Nat) (insert : List Text) : Relexed :=
  relex insert.length (document.contextBefore index) (document.toRead index remove insert)

/-- A splice succeeds only in range, and then it is the lines read again that count. -/
theorem splice_eq_ok (h : document.splice index remove insert = .ok edited) :
    index + remove ≤ document.lineCount ∧
      edited.document.lines =
        document.lines.take index ++ (document.spliced index remove insert).lines ∧
      edited.document.final =
        (document.spliced index remove insert).final?.getD document.final ∧
      edited.repaint.first = index ∧
      edited.repaint.stop = index + (document.spliced index remove insert).count := by
  rw [Document.splice] at h
  split at h
  · cases h
  · cases h
    exact ⟨Nat.le_of_not_lt ‹_›, rfl, rfl, rfl, rfl⟩

/-- A splice out of range is refused. -/
theorem splice_eq_error (h : document.lineCount < index + remove) :
    document.splice index remove insert =
      .error (.spliceOutOfRange index remove document.lineCount) :=
  if_pos h

/-- A splice in range succeeds. -/
theorem exists_splice_eq_ok (h : index + remove ≤ document.lineCount) (insert : List Text) :
    ∃ edited, document.splice index remove insert = .ok edited :=
  ⟨_, if_neg (Nat.not_lt_of_le h)⟩

theorem map_text_toRead :
    (document.toRead index remove insert).map (·.text) =
      insert ++ document.texts.drop (index + remove) := by
  rw [toRead, List.map_append, map_text_unread, List.map_drop, texts]

theorem texts_splice (h : document.splice index remove insert = .ok edited) :
    edited.document.texts =
      document.texts.take index ++ insert ++ document.texts.drop (index + remove) := by
  obtain ⟨-, hlines, -⟩ := splice_eq_ok h
  rw [texts, hlines, List.map_append, spliced, map_text_lines_relex, map_text_toRead,
    List.map_take, List.append_assoc, texts]

/-- A splice keeps a document coherent: the lines after it have been read in some context. -/
theorem Coherent.splice (hc : document.Coherent)
    (h : document.splice index remove insert = .ok edited) : edited.document.Coherent := by
  obtain ⟨-, hlines, hfinal, -⟩ := splice_eq_ok h
  have kept : ReadFrom (document.contextBefore (index + remove))
      ((document.toRead index remove insert).drop insert.length) document.final := by
    rw [toRead, List.drop_left' (List.length_map _)]
    exact (hc.readFrom_take (index + remove)).2
  rw [Coherent, hlines, hfinal, readFrom_append]
  exact ⟨_, (hc.readFrom_take index).1, readFrom_relex _ kept⟩

/-! ## Any edits -/

/-- A replacement is the splice of one line. -/
theorem replaceLine_eq_splice {text : Text} (h : index < document.lineCount) :
    document.replaceLine index text = document.splice index 1 [text] :=
  if_neg (Nat.not_le_of_lt h)

theorem Coherent.afterEdit (hc : document.Coherent) (e : Edit) :
    (document.afterEdit e).Coherent := by
  rw [Document.afterEdit]
  split
  next edited h =>
    cases e with
    | splice => exact hc.splice h
    | replaceLine i text =>
      rw [edit, replaceLine] at h
      split at h
      · cases h
      · exact hc.splice h
  · exact hc

/-- The texts after an edit are those of the lines after it, whatever was kept. -/
theorem texts_afterEdit (document : Document) (e : Edit) :
    (document.afterEdit e).texts = e.applyTo document.texts := by
  cases e with
  | splice i r ts =>
    rw [Document.afterEdit, edit, Edit.applyTo, length_texts]
    by_cases hi : document.lineCount < i + r
    · rw [splice_eq_error hi, if_pos hi]
    · obtain ⟨edited, h⟩ := exists_splice_eq_ok (Nat.le_of_not_lt hi) ts
      rw [h, if_neg hi]
      exact texts_splice h
  | replaceLine i text =>
    rw [Document.afterEdit, edit, Edit.applyTo]
    by_cases hi : i < document.lineCount
    · obtain ⟨edited, h⟩ := exists_splice_eq_ok (show i + 1 ≤ document.lineCount from hi) [text]
      rw [replaceLine_eq_splice hi, h, List.set_eq_take_append_cons_drop,
        if_pos (by simpa using hi), List.append_cons]
      exact texts_splice h
    · rw [replaceLine, if_pos (Nat.le_of_not_lt hi), List.set_eq_of_length_le (by simpa using hi)]

theorem Reachable.coherent (h : document.Reachable) : document.Coherent := by
  induction h with
  | ofText text => exact coherent_ofText text
  | afterEdit e _ ih => exact ih.afterEdit e

theorem texts_afterEdits (document : Document) (edits : List Edit) :
    (document.afterEdits edits).texts = edits.foldl Edit.applyTo document.texts := by
  induction edits generalizing document with
  | nil => rfl
  | cons e edits ih => exact (ih _).trans (by rw [texts_afterEdit, List.foldl_cons])

/-- After edits, whether refused or not, a document has the edited lines, with one
    context and one row of tokens for each, and these are what comes of reading the lines
    from scratch; and so is the context after the last line. -/
theorem afterEdits_fromScratch (text : Text) (edits : List Edit) :
    let document := (ofText text).afterEdits edits
    document.texts = edits.foldl Edit.applyTo (splitLines text) ∧
    document.befores.length = document.texts.length ∧
    document.tokenRows.length = document.texts.length ∧
    (∀ i, document.befores[i]? = document.texts[i]?.map fun _ =>
      contextAfter {} (document.texts.take i)) ∧
    (∀ i, document.tokenRows[i]? = document.texts[i]?.map fun line =>
      (tokenizeLine (contextAfter {} (document.texts.take i)) line).1) ∧
    document.final = contextAfter {} document.texts := by
  intro document
  have hc : document.Coherent := ((Reachable.ofText text).afterEdits edits).coherent
  refine ⟨?_, by simp, by simp, fun i => ?_, fun i => ?_, hc.final_eq⟩
  · rw [show document.texts = _ from texts_afterEdits _ _, ofText, texts_ofLines]
  · rw [befores, List.getElem?_map, hc.getElem?_eq i, Option.map_map]
    rfl
  · rw [tokenRows, List.getElem?_map, hc.getElem?_eq i, Option.map_map]
    rfl

end Document

end Highlighter
