import Highlighter.Literal

/-!
# The context of a token

How a text is read depends on what stands before it only through the *context*: the
literal that is open, if any, the place in the statement, and, for every bracket
that is open, whether the statement around it already has its keyword.

At most one word of a statement is coloured as its keyword. The flag `locked` says
that this has happened; an opening bracket begins statements of its own, so it puts
the flag away on the stack `locks`, from which the closing bracket takes it back.

The operations below are the ways in which tokens and lines change the context.
-/

namespace Highlighter

/-! ### Locks of the brackets that are open -/

/-- The locks put away by the brackets that are open, innermost first. -/
abbrev Locks := List Bool

namespace Locks

/-- Takes back the innermost lock; a bracket that was never opened had none. -/
def pop : Locks → Bool × Locks
  | [] => (false, [])
  | lock :: rest => (lock, rest)

end Locks

/-! ### Contexts -/

/-- What the reading of a text depends on, besides the text. A new context is the
    one at the beginning of a document. -/
structure Context where
  /-- The literal that is open. -/
  literal : Option Literal := none
  /-- An expression may start here, so a sign or a point belongs to a number. -/
  expressionStart : Bool := true
  /-- A word here may lead a statement. -/
  promotable : Bool := true
  /-- The token before is a dot. -/
  afterDot : Bool := false
  /-- The token before takes a reference to the word that follows. -/
  afterReference : Bool := false
  /-- The statement already has its keyword. -/
  locked : Bool := false
  /-- The locks of the statements around, innermost first. -/
  locks : Locks := []
deriving DecidableEq

namespace Context

/-- A literal is open. -/
def inLiteral (ctx : Context) : Bool :=
  ctx.literal.isSome

/-- The number of brackets that are open. -/
def depth (ctx : Context) : Nat :=
  ctx.locks.length

/-- After the last token of an expression. -/
def endExpression (ctx : Context) : Context :=
  { ctx with
    expressionStart := false, promotable := false, afterDot := false, afterReference := false }

/-- Where a new expression may start. -/
def openExpression (ctx : Context) : Context :=
  { ctx with
    expressionStart := true, promotable := true, afterDot := false, afterReference := false }

/-- Where a new statement starts, among the brackets that are open. -/
def startStatement (ctx : Context) : Context :=
  { ctx.openExpression with locked := false }

/-- At the beginning of a line: a new statement, unless a literal goes on. -/
def startLine (ctx : Context) : Context :=
  if ctx.inLiteral then ctx else ctx.startStatement

/-- After an opening bracket. -/
def enterBracket (ctx : Context) : Context :=
  { ctx.openExpression with locked := false, locks := ctx.locked :: ctx.locks }

/-- After a closing bracket. -/
def leaveBracket (ctx : Context) : Context :=
  { ctx.endExpression with locked := (Locks.pop ctx.locks).1, locks := (Locks.pop ctx.locks).2 }

/-- After a dot, where a property is named. -/
def enterProperty (ctx : Context) : Context :=
  { ctx.endExpression with afterDot := true }

/-- After the mark of a reference to the word that follows; where the expression
    stands is left as it was. -/
def enterReference (ctx : Context) : Context :=
  { ctx with afterReference := true, afterDot := false }

/-- After a decorator: an expression may start, but no keyword. -/
def afterDecorator (ctx : Context) : Context :=
  { ctx.openExpression with promotable := false }

/-- After the keyword of a statement, before its first argument. -/
def afterKeyword (ctx : Context) : Context :=
  { ctx.openExpression with promotable := false, locked := true }

/-- After the quote that opens a literal. -/
def enterLiteral (ctx : Context) (l : Literal) : Context :=
  { ctx.endExpression with literal := some l }

/-- After the sequence that closes a literal. -/
def leaveLiteral (ctx : Context) : Context :=
  { ctx.endExpression with literal := none }

/-- A word here leads the statement, if an argument follows it. -/
def mayPromote (ctx : Context) : Bool :=
  ctx.expressionStart && ctx.promotable && !ctx.afterDot && !ctx.afterReference && !ctx.locked

end Context

end Highlighter
