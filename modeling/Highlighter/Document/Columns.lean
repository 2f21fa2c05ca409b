import Highlighter.Document.Edit

/-!
# Documents in columns

Where a document is edited in place, it is kept in *columns*: its texts, the contexts
before its lines and their tokens are three lists, and a line is a place in each. A
host names lines by words of 64 bits, and the sum of two such words may wrap around.

Every function here answers `none` if it accesses a column at a place that it does not
have, be it to look something up, to put it there, or to take a range out of it.
-/

namespace Highlighter

/-! ## Access to a column -/

namespace Column

variable {α : Type}

/-- Puts an item at a place of a column. -/
def put? (column : List α) (place : Nat) (item : α) : Option (List α) :=
  if place < column.length then some (column.set place item) else none

/-- Puts items in the place of those from `start` up to `stop`. -/
def replace? (column : List α) (start stop : Nat) (items : List α) : Option (List α) :=
  if start ≤ stop ∧ stop ≤ column.length then
    some (column.take start ++ items ++ column.drop stop)
  else none

end Column

/-! ## Documents -/

/-- The lines of a document, one column for each thing that is kept for them. -/
structure Columns where
  texts : List Text
  befores : List Context
  tokenRows : List (List Token)
  /-- The context after the last line. -/
  final : Context
deriving DecidableEq

namespace Columns

/-- The number of lines. -/
def lineCount (columns : Columns) : UInt64 :=
  .ofNat columns.texts.length

/-- Whether the context that comes out is the one kept for a line, where something is
    kept, i.e., after the dirty lines. -/
def isKept? (columns : Columns) (place dirtyEnd : Nat) (ctx : Context) : Option Bool :=
  if place < dirtyEnd then some false
  else columns.befores[place]?.map fun before => decide (before = ctx)

/-- Keeps what comes of reading a line in a context, which is the context after it. -/
def readLine? (columns : Columns) (place : Nat) (ctx : Context) : Option (Context × Columns) := do
  let text ← columns.texts[place]?
  let read := tokenizeLine ctx text
  let befores ← Column.put? columns.befores place ctx
  let tokenRows ← Column.put? columns.tokenRows place read.1
  return (read.2, { columns with befores, tokenRows })

theorem texts_of_readLine? {columns after : Columns} {place : Nat} {ctx ctx' : Context}
    (h : columns.readLine? place ctx = some (ctx', after)) : after.texts = columns.texts := by
  simp only [readLine?, Option.bind_eq_bind, Option.bind_eq_some_iff] at h
  obtain ⟨_, -, _, -, _, -, h⟩ := h
  cases h
  rfl

/-- Reads lines from `place` on, up to the dirty end, and then up to the first before which
    the context is the one kept for it. Answers the line where it stopped, and whether the
    context was kept there. -/
def relexFrom? (columns : Columns) (place dirtyEnd : Nat) (ctx : Context) :
    Option ((Nat × Bool) × Columns) :=
  if place < columns.texts.length then
    match columns.isKept? place dirtyEnd ctx with
    | none => none
    | some true => some ((place, true), columns)
    | some false =>
      match _h : columns.readLine? place ctx with
      | none => none
      | some (ctx', after) => after.relexFrom? (place + 1) dirtyEnd ctx'
  else some ((place, false), { columns with final := ctx })
termination_by columns.texts.length - place
decreasing_by
  rw [texts_of_readLine? _h]
  omega

/-- The columns of a text. -/
def ofText? (text : Text) : Option Columns :=
  let texts := splitLines text
  let unread : Columns :=
    ⟨texts, .replicate texts.length {}, .replicate texts.length [], {}⟩
  (unread.relexFrom? 0 texts.length {}).map (·.2)

/-! ## Edits -/

/-- A change to the lines of a document, as a host asks for it. -/
inductive Edit where
  /-- Gives a line another text. -/
  | replaceLine (index : UInt64) (text : Text)
  /-- Removes lines from `index` on, and inserts lines in their place. -/
  | splice (index remove : UInt64) (insert : List Text)

/-- What an edit answers: why it is refused, or what was read again. -/
abbrev Answer := Except EditError (Repaint × Log)

/-- Puts lines that are not read yet in the place of others. -/
def replaceLines? (columns : Columns) (start stop : Nat) (insert : List Text) :
    Option Columns := do
  let texts ← Column.replace? columns.texts start stop insert
  let befores ← Column.replace? columns.befores start stop (.replicate insert.length {})
  let tokenRows ← Column.replace? columns.tokenRows start stop (.replicate insert.length [])
  return { columns with texts, befores, tokenRows }

/-- A range of lines goes beyond the last one. -/
def isOutOfRange (columns : Columns) (index remove : UInt64) : Bool :=
  -- the sum of the two might wrap around, the difference does not
  columns.lineCount < index || columns.lineCount - index < remove

/-- Removes `remove` lines from `index` on, and inserts lines in their place. -/
def splice? (columns : Columns) (index remove : UInt64) (insert : List Text) :
    Option (Answer × Columns) :=
  if columns.isOutOfRange index remove then
    some (.error (.spliceOutOfRange index.toNat remove.toNat columns.lineCount.toNat), columns)
  else do
    let start := index.toNat
    let ctx := columns.befores[start]?.getD columns.final
    let replaced ← columns.replaceLines? start (index + remove).toNat insert
    let ((stop, converged), after) ← replaced.relexFrom? start (start + insert.length) ctx
    let repaint : Repaint := ⟨start, stop, converged⟩
    return (.ok (repaint, Document.spliceLog start remove.toNat insert.length repaint), after)

/-- Gives a line another text. -/
def replaceLine? (columns : Columns) (index : UInt64) (text : Text) :
    Option (Answer × Columns) :=
  if columns.lineCount ≤ index then
    some (.error (.lineOutOfRange index.toNat columns.lineCount.toNat), columns)
  else columns.splice? index 1 [text]

/-- Performs an edit. -/
def edit? (columns : Columns) : Edit → Option (Answer × Columns)
  | .replaceLine index text => columns.replaceLine? index text
  | .splice index remove insert => columns.splice? index remove insert

end Columns

end Highlighter
