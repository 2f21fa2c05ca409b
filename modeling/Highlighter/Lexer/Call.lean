import Highlighter.Lexer

/-!
# Calling a lexer by hand

A host may drive a lexer itself, one recognizer at a time and in any order, even where
the text does not begin as the recognizer expects. A *call* names one such step;
`Lexer.call` performs it, and `Lexer.callAll` performs a sequence of them on a line.

A recognizer that is called out of place takes the characters it would have taken
(or those that remain, if they are fewer) and changes the context as ever.
-/

namespace Highlighter.Lexer

/-- A step of a host that drives a lexer. -/
inductive Call where
  /-- Reads the next token. -/
  | next
  /-- Reads the tokens up to the end of the line. -/
  | rest
  | number
  | operator
  /-- Passes the opening of a literal. -/
  | openLiteral
  /-- Passes what the line holds of the open literal. -/
  | insideLiteral
  | word
  | comma
  | openBracket
  | closeBracket
  | decorator
  | comment
  /-- Asks for the line. -/
  | line
  /-- Passes a number of characters. -/
  | advanceBy (count : Nat)
  | skipBlanks
  /-- Begins a statement. -/
  | startStatement
  /-- Begins a line. -/
  | startLine
  /-- Forgets the context. -/
  | reset

/-- What a call answers. -/
inductive Answer where
  | nothing
  | token (token? : Option Token)
  | tokens (tokens : List Token)
  /-- The category recognized, if the recognizer found something. -/
  | category (category? : Option Category)
  | flag (holds : Bool)
  | text (text : Text)

/-- Passes a lexeme and answers its category. -/
def acceptCategory (lexer : Lexer) (lexeme : Lexeme) : Answer × Lexer :=
  (.category (some lexeme.category), lexer.accept lexeme)

/-- Passes a lexeme if there is one, and answers its category. -/
def acceptCategory? (lexer : Lexer) : Option Lexeme → Answer × Lexer
  | some lexeme => lexer.acceptCategory lexeme
  | none => (.category none, lexer)

/-- Passes the opening of a literal, if one stands here. -/
def openLiteral (lexer : Lexer) : Answer × Lexer :=
  match Literal.open? lexer.cursor.rest with
  | none => (.flag false, lexer)
  | some l =>
    (.flag true,
      { lexer with
        cursor := lexer.cursor.advanceBy l.openingWidth
        context := lexer.context.enterLiteral l })

/-- Performs one call. -/
def call (lexer : Lexer) : Call → Answer × Lexer
  | .next => (.token lexer.next.1, lexer.next.2)
  | .rest => (.tokens lexer.rest.1, lexer.rest.2)
  | .number => lexer.acceptCategory? (Lexeme.number? lexer.context lexer.cursor.rest)
  | .operator => lexer.acceptCategory? (Lexeme.operator? lexer.context lexer.cursor.rest)
  | .openLiteral => lexer.openLiteral
  | .insideLiteral =>
    lexer.acceptCategory (Lexeme.insideLiteral lexer.context lexer.cursor.rest)
  | .word => lexer.acceptCategory (Lexeme.word lexer.context lexer.cursor.rest)
  | .comma => lexer.acceptCategory (Lexeme.comma lexer.context)
  | .openBracket => lexer.acceptCategory (Lexeme.openBracket lexer.context)
  | .closeBracket => lexer.acceptCategory (Lexeme.closeBracket lexer.context)
  | .decorator => lexer.acceptCategory (Lexeme.decorator lexer.context lexer.cursor.rest)
  | .comment => lexer.acceptCategory (Lexeme.comment lexer.context lexer.cursor.rest)
  | .line => (.text lexer.cursor.line, lexer)
  | .advanceBy count => (.nothing, { lexer with cursor := lexer.cursor.advanceBy count })
  | .skipBlanks => (.nothing, { lexer with cursor := lexer.cursor.skipBlanks })
  | .startStatement => (.nothing, { lexer with context := lexer.context.startStatement })
  | .startLine => (.nothing, { lexer with context := lexer.context.startLine })
  | .reset => (.nothing, { lexer with context := {} })

/-- Performs calls one after the other, and gives each answer with the lexer after it. -/
def callAll (lexer : Lexer) : List Call → List (Answer × Lexer)
  | [] => []
  | c :: calls => lexer.call c :: (lexer.call c).2.callAll calls

end Highlighter.Lexer
