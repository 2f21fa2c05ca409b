import Highlighter.Document
import Highlighter.Log

/-!
# Editing documents

An edit puts lines in the place of others (`splice`), or replaces the text of one line
(`replaceLine`). It is refused if it names lines that the document does not have, and
then changes nothing.

An edit that succeeds answers the *repaint*: the range of the lines that were read
again. It begins at the edit and contains every line whose tokens have changed.
-/

namespace Highlighter

/-- A change to the lines of a document. -/
inductive Edit where
  /-- Gives a line another text. -/
  | replaceLine (index : Nat) (text : Text)
  /-- Removes lines from `index` on, and inserts lines in their place. -/
  | splice (index remove : Nat) (insert : List Text)

/-- Why an edit is refused. -/
inductive EditError where
  | lineOutOfRange (index lineCount : Nat)
  | spliceOutOfRange (index remove lineCount : Nat)
deriving DecidableEq

namespace EditError

/-- The message of a refused edit. -/
def message : EditError → Text
  | lineOutOfRange index lineCount =>
    "Line out of range: index ".toList ++ Text.ofNat index ++ ", document has ".toList
      ++ Text.ofNat lineCount ++ " lines".toList
  | spliceOutOfRange index remove lineCount =>
    "Splice out of range: ".toList ++ Text.ofNat remove ++ " lines at ".toList
      ++ Text.ofNat index ++ ", document has ".toList ++ Text.ofNat lineCount
      ++ " lines".toList

end EditError

/-- The lines that an edit made to be read again: from `first`, up to `stop`. -/
structure Repaint where
  first : Nat
  stop : Nat
  /-- Reading stopped before a line whose context came out as it was kept. -/
  converged : Bool
deriving DecidableEq

/-- What comes of an edit. -/
structure Edited where
  document : Document
  repaint : Repaint
  log : Log

namespace Document

/-- The records of a splice. -/
def spliceLog (index removed inserted : Nat) (repaint : Repaint) : Log :=
  (if repaint.converged then
    [⟨.trace, "state converged at line ".toList ++ Text.ofNat repaint.stop⟩] else []) ++
  [⟨.debug, "spliced ".toList ++ Text.ofNat inserted ++ " lines at ".toList
    ++ Text.ofNat index ++ " (".toList ++ Text.ofNat removed
    ++ " removed), re-tokenized lines ".toList ++ Text.ofNat repaint.first ++ "..".toList
    ++ Text.ofNat repaint.stop⟩]

/-- Removes `remove` lines from `index` on, and inserts lines in their place. -/
def splice (document : Document) (index remove : Nat) (insert : List Text) :
    Except EditError Edited :=
  if document.lineCount < index + remove then
    .error (.spliceOutOfRange index remove document.lineCount)
  else
    let kept := document.lines.drop (index + remove)
    let read := relex insert.length (document.contextBefore index)
      (insert.map .unread ++ kept)
    let repaint := ⟨index, index + read.count, read.final?.isNone⟩
    .ok ⟨⟨document.lines.take index ++ read.lines, read.final?.getD document.final⟩,
      repaint, spliceLog index remove insert.length repaint⟩

/-- Gives a line another text. -/
def replaceLine (document : Document) (index : Nat) (text : Text) : Except EditError Edited :=
  if document.lineCount ≤ index then .error (.lineOutOfRange index document.lineCount)
  else document.splice index 1 [text]

/-- Performs an edit. -/
def edit (document : Document) : Edit → Except EditError Edited
  | .replaceLine index text => document.replaceLine index text
  | .splice index remove insert => document.splice index remove insert

/-- The document after an edit, which a refused edit leaves as it was. -/
def afterEdit (document : Document) (e : Edit) : Document :=
  match document.edit e with
  | .ok edited => edited.document
  | .error _ => document

/-- The document after edits. -/
def afterEdits (document : Document) (edits : List Edit) : Document :=
  edits.foldl afterEdit document

end Document

end Highlighter
