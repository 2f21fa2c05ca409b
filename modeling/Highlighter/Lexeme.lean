import Highlighter.Category
import Highlighter.Context
import Highlighter.Numeral

/-!
# Lexemes

A *lexeme* is what is recognized at the beginning of a text: its category, its width
in characters, and the context after it. A recognizer is a function of the context
and of the text that remains, so nothing of what was read before can bear on it
except through the context; and as it only says how many characters it takes, what
it leaves is always the rest of the same text.

Each kind of lexeme has its recognizer. Those that depend on the characters they find
(`number?`, `operator?`, `literal?`) may find nothing; the others are meant for a
text that begins as they expect, and are used as such by `Lexeme.next`, which puts
them in order. A width past the end of the text stands for the whole of it.
-/

namespace Highlighter

/-- What is recognized at the beginning of a text. -/
structure Lexeme where
  category : Category
  /-- The number of characters it takes. -/
  width : Nat
  /-- The context after it. -/
  context : Context

namespace Lexeme

/-! ## Numbers and literals -/

/-- A numeral. -/
def number? (ctx : Context) (text : Text) : Option Lexeme :=
  (Numeral.width? ctx.expressionStart text).map fun width =>
    ⟨.number, width, ctx.endExpression⟩

/-- What a text holds of the literal that is open: up to the end of its closing
    sequence, or else all of it. Where no literal is open, nothing. -/
def insideLiteral (ctx : Context) (text : Text) : Lexeme :=
  match ctx.literal with
  | none => ⟨.string, 0, ctx⟩
  | some l =>
    match l.widthWithin? text with
    | some width => ⟨.string, width, ctx.leaveLiteral⟩
    | none => ⟨.string, text.length, ctx⟩

/-- A literal, as far as the text holds it. -/
def literal? (ctx : Context) (text : Text) : Option Lexeme :=
  (Literal.open? text).map fun l =>
    let body := insideLiteral (ctx.enterLiteral l) (text.drop l.openingWidth)
    { body with width := l.openingWidth + body.width }

/-! ## Marks -/

/-- A comment, which takes the rest of the line. -/
def comment (ctx : Context) (text : Text) : Lexeme :=
  ⟨.comment, text.length, ctx.startStatement⟩

/-- A comma, which separates statements. -/
def comma (ctx : Context) : Lexeme :=
  ⟨.punctuation, 1, ctx.startStatement⟩

/-- An opening bracket. -/
def openBracket (ctx : Context) : Lexeme :=
  ⟨.bracket, 1, ctx.enterBracket⟩

/-- A closing bracket. -/
def closeBracket (ctx : Context) : Lexeme :=
  ⟨.bracket, 1, ctx.leaveBracket⟩

/-- A decorator (an annotation of what follows): its mark with the word after it. -/
def decorator (ctx : Context) (text : Text) : Lexeme :=
  ⟨.decorator, 1 + ((text.drop 1).takeWhile isWordPart).length, ctx.afterDecorator⟩

/-! ## Operators -/

/-- The operator of three characters, which ends an expression. -/
def ellipsis : Text := ['.', '.', '.']

/-- The operators of two characters. -/
def pairs : List Text :=
  [['=', '='], ['!', '='], ['>', '='], ['<', '='], ['&', '&'], ['|', '|'], ['|', '>']]

/-- An operator, the longest of those the text begins with, or a dot. The mark of a
    reference takes one only if a word follows it directly. -/
def operator? (ctx : Context) (text : Text) : Option Lexeme :=
  if ellipsis.isPrefixOf text then some ⟨.operator, 3, ctx.endExpression⟩
  else if pairs.any (·.isPrefixOf text) then some ⟨.operator, 2, ctx.openExpression⟩
  else
    match text with
    | [] => none
    | c :: rest =>
      if c = referenceMark then
        some ⟨.operator, 1,
          if rest.head?.any isWordStart then ctx.enterReference else ctx.openExpression⟩
      else if c = '.' then some ⟨.punctuation, 1, ctx.enterProperty⟩
      else if isSimpleOperator c then some ⟨.operator, 1, ctx.openExpression⟩
      else none

/-! ## Words -/

/-- What follows a word begins an argument of it, so that the word leads a
    statement. A bracket, a dot or a literal right after the word does not, for it
    makes a call, a property or an index; after blanks, whatever may start an
    expression does. -/
def beginsArgument (text : Text) : Bool :=
  if (text.head?.any fun c => c == '(' || c == '[' || c == '.') || Literal.opensIn text then false
  else
    match text.dropWhile isBlank with
    | [] => false
    | first :: rest =>
      let digitNext := rest.head?.any Char.isDigit
      if first == ',' || first == commentMark || isCloseBracket first then false
      else
        isWordStart first || first.isDigit
          || (first == '.' && digitNext) || (first == '-' && digitNext)
          || isOpenBracket first || first == decoratorMark
          || (first == referenceMark && rest.head?.any isWordStart)
          || Literal.opensIn (first :: rest)

/-- A word: the keyword of its statement, the name of a property, a word to which a
    reference is taken, or any other. -/
def word (ctx : Context) (text : Text) : Lexeme :=
  let width := (text.takeWhile isWordPart).length
  if ctx.mayPromote && beginsArgument (text.drop width) then
    ⟨.keyword, width, ctx.afterKeyword⟩
  else
    ⟨if ctx.afterDot then .property
      else if ctx.afterReference then .reference
      else .name,
      width, ctx.endExpression⟩

/-! ## All of them -/

/-- A single character that begins nothing longer. -/
def single (ctx : Context) (c : Char) : Lexeme :=
  if isOperatorMark c then ⟨.operator, 1, ctx.openExpression⟩
  else ⟨.unclassified, 1, ctx.endExpression⟩

/-- The lexeme at the beginning of a text that is not blank, outside literals. -/
def next (ctx : Context) (c : Char) (rest : Text) : Lexeme :=
  -- before operators, since a sign, a point or an escape mark may begin one of these
  match number? ctx (c :: rest) with
  | some lexeme => lexeme
  | none =>
    match literal? ctx (c :: rest) with
    | some lexeme => lexeme
    | none =>
      if c = commentMark then comment ctx (c :: rest)
      else if c = ',' then comma ctx
      else if isOpenBracket c then openBracket ctx
      else if isCloseBracket c then closeBracket ctx
      else if c = decoratorMark then decorator ctx (c :: rest)
      else
        match operator? ctx (c :: rest) with
        | some lexeme => lexeme
        | none => if isWordStart c then word ctx (c :: rest) else single ctx c

/-! ## Lexemes take characters -/

theorem width_number?_pos {ctx : Context} {text : Text} {lexeme : Lexeme}
    (h : number? ctx text = some lexeme) : 0 < lexeme.width := by
  obtain ⟨width, hw, rfl⟩ := Option.map_eq_some_iff.1 h
  exact Numeral.width?_pos hw

theorem width_literal?_pos {ctx : Context} {text : Text} {lexeme : Lexeme}
    (h : literal? ctx text = some lexeme) : 0 < lexeme.width := by
  obtain ⟨l, -, rfl⟩ := Option.map_eq_some_iff.1 h
  simp only [Literal.openingWidth]
  omega

theorem width_operator?_pos {ctx : Context} {text : Text} {lexeme : Lexeme}
    (h : operator? ctx text = some lexeme) : 0 < lexeme.width := by
  unfold operator? at h
  grind

theorem width_word (ctx : Context) (text : Text) :
    (word ctx text).width = (text.takeWhile isWordPart).length := by
  rw [word, apply_ite Lexeme.width]
  exact ite_self _

theorem isWordPart_of_isWordStart {c : Char} (h : isWordStart c) : isWordPart c := by
  simp only [isWordStart, isWordPart, Char.isAlphanum, Bool.or_eq_true] at h ⊢
  grind

/-- A lexeme takes characters. -/
theorem width_next_pos (ctx : Context) (c : Char) (rest : Text) :
    0 < (next ctx c rest).width := by
  unfold next
  split
  · exact width_number?_pos ‹_›
  split
  · exact width_literal?_pos ‹_›
  split
  · simp [comment]
  split
  · simp [comma]
  split
  · simp [openBracket]
  split
  · simp [closeBracket]
  split
  · simp only [decorator]; omega
  split
  · exact width_operator?_pos ‹_›
  split
  · simp [width_word, isWordPart_of_isWordStart ‹_›]
  · unfold single; split <;> simp

/-- What a line holds of an open literal takes characters. -/
theorem width_insideLiteral_pos {ctx : Context} {text : Text} (h : ctx.inLiteral)
    (ht : text ≠ []) : 0 < (insideLiteral ctx text).width := by
  obtain ⟨l, hl⟩ := Option.isSome_iff_exists.1 h
  unfold insideLiteral
  rw [hl]
  split
  · contradiction
  split
  · exact Literal.widthAfter?_pos ‹_›
  · exact List.length_pos_iff.2 ht

end Lexeme

end Highlighter
