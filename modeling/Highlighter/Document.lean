import Highlighter.Line

/-!
# Documents

A *document* keeps, for each of its lines, the context before it and its tokens, and
the context after the last line. All of this follows from the texts of the lines, by
reading them in order; after an edit, most of it still holds and need not be found
again.

`Document.relex` is the loop behind both: it reads lines from a given context on.
Some lines at the beginning are *dirty*, i.e., what is kept for them does not count;
from then on it stops at the first line before which the context comes out as it was
kept. What is kept for the following lines then holds for them too, since it follows
from that context and from their texts.
-/

namespace Highlighter

/-- A line of a document, with what is kept for it. -/
structure DocumentLine where
  text : Text
  /-- The context in which the line is read. -/
  before : Context
  tokens : List Token
deriving DecidableEq

namespace DocumentLine

/-- A line that was not read yet. -/
def unread (text : Text) : DocumentLine :=
  ⟨text, {}, []⟩

end DocumentLine

/-- Lines, with what follows from reading them in order. -/
structure Document where
  lines : List DocumentLine
  /-- The context after the last line. -/
  final : Context
deriving DecidableEq

namespace Document

/-- The outcome of reading lines again. -/
structure Relexed where
  lines : List DocumentLine
  /-- How many lines were read, all from the first. -/
  count : Nat
  /-- The context after the last line, if it was reached. -/
  final? : Option Context

/-- Reads lines in a context, at least as many as are dirty, and then up to the first
    before which the context is the one kept for it. -/
def relex : Nat → Context → List DocumentLine → Relexed
  | _, ctx, [] => ⟨[], 0, some ctx⟩
  | dirty, ctx, line :: rest =>
    -- what is kept from here on follows from this context, so it holds again
    if dirty = 0 ∧ line.before = ctx then ⟨line :: rest, 0, none⟩
    else
      let read := tokenizeLine ctx line.text
      let following := relex (dirty - 1) read.2 rest
      ⟨⟨line.text, ctx, read.1⟩ :: following.lines, following.count + 1, following.final?⟩

/-- The document of some lines. -/
def ofLines (texts : List Text) : Document :=
  let read := relex texts.length {} (texts.map .unread)
  ⟨read.lines, read.final?.getD {}⟩

/-- The document of a text. -/
def ofText (text : Text) : Document :=
  ofLines (splitLines text)

/-! ### What a document holds -/

/-- The number of lines. -/
def lineCount (document : Document) : Nat :=
  document.lines.length

/-- The texts of the lines. -/
def texts (document : Document) : List Text :=
  document.lines.map (·.text)

/-- The text of the document, whose lines are joined by line feeds. -/
def text (document : Document) : Text :=
  joinLines document.texts

/-- The context before a line, or at the end of the document. -/
def contextBefore (document : Document) (index : Nat) : Context :=
  match document.lines[index]? with
  | some line => line.before
  | none => document.final

end Document

end Highlighter
