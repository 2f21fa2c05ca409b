import Highlighter.Cursor.Bytes
import Highlighter.Lexer.Call

/-!
# Lexing a line in bytes

A lexer that stands in a line by a number of bytes (`ByteLexer`). Its recognizers pass what they
find, piece by piece, and some of them measure it in bytes before they pass it in characters:

* the digits of a numeral are counted as bytes (`Numeral.bytesWidth?`);
* the escape marks before a quote are counted as characters, and cut off as bytes
  (`ByteLexer.openLiteral?`);
* within a literal, the closing sequence and the escape are passed as texts, and anything else as
  single characters (`ByteLexer.insideLiteral?`).

A host may call each recognizer by hand, also where the text does not begin as the recognizer
expects (`ByteLexer.call?`).

Every function here answers `none` if a text is cut where it may not be, or if a token ends before
it starts. What is recognized takes bytes (`ByteLexer.gains_of_recognize?`), so a token brings the
lexer forward wherever it stands (`ByteLexer.remaining_next?_lt`), and reading comes to an end.
-/

namespace Highlighter

/-! ## Numerals -/

namespace Numeral

/-- The byte of a decimal digit. -/
def isDigitByte (b : UInt8) : Bool :=
  0x30 ≤ b && b ≤ 0x39

/-- The byte of a digit of a hexadecimal number. -/
def isHexDigitByte (b : UInt8) : Bool :=
  isDigitByte b || (0x61 ≤ b && b ≤ 0x66) || (0x41 ≤ b && b ≤ 0x46)

/-- The number of bytes of a class at the beginning of a text. -/
def byteCount (isIn : UInt8 → Bool) (text : Text) : Nat :=
  ((Text.bytes text).takeWhile isIn).length

/-- The width of a point with the digits after it, if there are any. -/
def pointBytesWidth? : Text → Option Nat
  | '.' :: rest =>
    match byteCount isDigitByte rest with
    | 0 => none
    | n + 1 => some (n + 2)
  | _ => none

/-- The width of a hexadecimal number. -/
def hexBytesWidth? : Text → Option Nat
  | '0' :: 'x' :: rest =>
    match byteCount isHexDigitByte rest with
    | 0 => none
    | n + 1 => some (n + 3)
  | _ => none

/-- The width of a decimal number without sign, if there is one. What stands after its digits is cut
    off the text. -/
def decimalBytesWidth? (text : Text) : Option (Option Nat) :=
  match byteCount isDigitByte text with
  | 0 => some none
  | n + 1 =>
    (Text.dropBytes? (n + 1) text).map fun after =>
      some (n + 1 + (pointBytesWidth? after).getD 0)

/-- The width of a decimal number with its sign, if there is one. -/
def signedBytesWidth? : Text → Option (Option Nat)
  | '-' :: rest => (decimalBytesWidth? rest).map fun width? => width?.map (· + 1)
  | _ => some none

/-- The width of the numeral at the beginning of a text, if there is one, where an expression starts
    or not. -/
def bytesWidth? (expressionStart : Bool) (text : Text) : Option (Option Nat) := do
  match hexBytesWidth? text with
  | some width => return some width
  | none =>
    match ← (if expressionStart then signedBytesWidth? text else some none) with
    | some width => return some width
    | none =>
      match ← decimalBytesWidth? text with
      | some width => return some width
      | none => return if expressionStart then pointBytesWidth? text else none

theorem pointBytesWidth?_pos {text : Text} {width : Nat} (h : pointBytesWidth? text = some width) :
    0 < width := by
  fun_cases pointBytesWidth? text <;> grind [pointBytesWidth?]

theorem hexBytesWidth?_pos {text : Text} {width : Nat} (h : hexBytesWidth? text = some width) :
    0 < width := by
  fun_cases hexBytesWidth? text <;> grind [hexBytesWidth?]

theorem decimalBytesWidth?_pos {text : Text} {width : Nat}
    (h : decimalBytesWidth? text = some (some width)) : 0 < width := by
  fun_cases decimalBytesWidth? text <;> grind [decimalBytesWidth?, Option.map_eq_some_iff]

theorem signedBytesWidth?_pos {text : Text} {width : Nat}
    (h : signedBytesWidth? text = some (some width)) : 0 < width := by
  fun_cases signedBytesWidth? text <;> grind [signedBytesWidth?, Option.map_eq_some_iff]

/-- A numeral has bytes. -/
theorem bytesWidth?_pos {expressionStart : Bool} {text : Text} {width : Nat}
    (h : bytesWidth? expressionStart text = some (some width)) : 0 < width := by
  rw [bytesWidth?] at h
  split at h
  next hhex =>
    cases h
    exact hexBytesWidth?_pos hhex
  next =>
    obtain ⟨signed?, hsigned, h⟩ := Option.bind_eq_some_iff.1 h
    cases signed? with
    | some signed =>
      cases h
      split at hsigned
      · exact signedBytesWidth?_pos hsigned
      · cases hsigned
    | none =>
      obtain ⟨decimal?, hdecimal, h⟩ := Option.bind_eq_some_iff.1 h
      cases decimal? with
      | some decimal =>
        cases h
        exact decimalBytesWidth?_pos hdecimal
      | none =>
        cases expressionStart with
        | true => exact pointBytesWidth?_pos (Option.some.inj h)
        | false => cases h

end Numeral

/-! ## Lexers -/

/-- A place in a line, by a number of bytes, with the context there. -/
structure ByteLexer where
  cursor : ByteCursor
  context : Context
  /-- Where the last token that was asked for begins. -/
  tokenStart : Nat

namespace ByteLexer

/-- The lexer at the beginning of a line. -/
def ofLine (line : Text) (ctx : Context) : ByteLexer :=
  ⟨.ofLine line, ctx, 0⟩

/-! ### Recognizers -/

/-- Passes one character, whatever it is, as a token that leaves a context. -/
def single? (lexer : ByteLexer) (category : Category) (context : Context) :
    Option (Category × ByteLexer) := do
  let cursor ← lexer.cursor.advance?
  return (category, { lexer with cursor, context })

/-- Passes a numeral, if there is one. -/
def number? (lexer : ByteLexer) : Option (Option Category × ByteLexer) := do
  let rest ← lexer.cursor.rest?
  match ← Numeral.bytesWidth? lexer.context.expressionStart rest with
  | none => return (none, lexer)
  | some width =>
    let cursor ← lexer.cursor.advanceBy? width
    return (some .number, { lexer with cursor, context := lexer.context.endExpression })

/-- Passes the opening of a literal, if one stands here, and says whether it does. -/
def openLiteral? (lexer : ByteLexer) : Option (Bool × ByteLexer) := do
  let rest ← lexer.cursor.rest?
  let run := Literal.runLength rest
  -- escape marks are bytes, so their number is a place in the text, too
  let after ← Text.dropBytes? run rest
  match after.head?.bind Quote.ofChar? with
  | none => return (false, lexer)
  | some quote =>
    let cursor ← lexer.cursor.advanceBy? (run + 1)
    return (true, { lexer with cursor, context := lexer.context.enterLiteral ⟨quote, run⟩ })

/-- Passes the escape of a literal if it stands here. -/
def passEscape? (cursor : ByteCursor) (l : Literal) : Option ByteCursor :=
  match l.escape? with
  | none => some cursor
  | some mark => (cursor.matchText? mark).map Prod.snd

/-- Passes a character of a literal; after an escape, it belongs to the literal whatever it is. -/
def passWithin? (cursor : ByteCursor) (l : Literal) : Option ByteCursor :=
  (passEscape? cursor l).bind ByteCursor.advance?

theorem gains_of_passWithin? {cursor after : ByteCursor} {l : Literal} (hmore : ¬cursor.isAtEnd)
    (h : passWithin? cursor l = some after) : cursor.Gains 1 after := by
  obtain ⟨between, hescape, hadvance⟩ := Option.bind_eq_some_iff.1 h
  rw [passEscape?] at hescape
  split at hescape
  next =>
    obtain rfl := Option.some.inj hescape
    exact ByteCursor.gains_one_of_advance? hmore hadvance
  next mark hmark =>
    obtain ⟨⟨stands, passed⟩, hmatch, rfl⟩ := Option.map_eq_some_iff.1 hescape
    have hgains := ByteCursor.gains_of_matchText? hmatch
    cases stands with
    | true =>
      have hpos := List.length_pos_iff.2 (Text.bytes_ne_nil (Literal.ne_nil_of_escape? hmark))
      exact (hgains.mono hpos).trans (ByteCursor.gains_of_advance? hadvance)
    | false =>
      obtain rfl : cursor = passed := Eq.symm hgains
      exact ByteCursor.gains_one_of_advance? hmore hadvance

/-- Passes what the line holds of the literal that is open. -/
def insideLiteral? (lexer : ByteLexer) : Option ByteLexer := do
  if _h : lexer.cursor.isAtEnd then return lexer
  else
    match lexer.context.literal with
    | none => return lexer
    | some l =>
      match ← lexer.cursor.matchText? l.closing with
      | (true, cursor) => return { lexer with cursor, context := lexer.context.leaveLiteral }
      | (false, _) =>
        match _hwithin : passWithin? lexer.cursor l with
        | none => none
        | some cursor => insideLiteral? { lexer with cursor }
termination_by lexer.cursor.remaining
decreasing_by exact (gains_of_passWithin? ‹_› ‹_›).remaining_lt ‹_›

/-- Passes a comment. -/
def comment (lexer : ByteLexer) : ByteLexer :=
  { lexer with cursor := lexer.cursor.skipToEnd, context := lexer.context.startStatement }

/-- Passes a comma. -/
def comma? (lexer : ByteLexer) : Option (Category × ByteLexer) :=
  lexer.single? .punctuation lexer.context.startStatement

/-- Passes an opening bracket. -/
def openBracket? (lexer : ByteLexer) : Option (Category × ByteLexer) :=
  lexer.single? .bracket lexer.context.enterBracket

/-- Passes a closing bracket. -/
def closeBracket? (lexer : ByteLexer) : Option (Category × ByteLexer) :=
  lexer.single? .bracket lexer.context.leaveBracket

/-- Passes a decorator. -/
def decorator? (lexer : ByteLexer) : Option (Category × ByteLexer) := do
  let cursor ← lexer.cursor.advance?
  let (_, cursor) ← cursor.takeWhile? isWordPart
  return (.decorator, { lexer with cursor, context := lexer.context.afterDecorator })

/-- Passes the mark of a reference. -/
def reference? (lexer : ByteLexer) : Option (Category × ByteLexer) := do
  let cursor ← lexer.cursor.advance?
  let c ← cursor.peek? 0
  let context :=
    if !cursor.isAtEnd && c != referenceMark && isWordStart c then lexer.context.enterReference
    else lexer.context.openExpression
  return (.operator, { lexer with cursor, context })

/-- Passes an operator or a dot, if there is one. -/
def operator? (lexer : ByteLexer) : Option (Option Category × ByteLexer) := do
  match ← lexer.cursor.matchAny? [Lexeme.ellipsis] with
  | (true, cursor) =>
    return (some .operator, { lexer with cursor, context := lexer.context.endExpression })
  | (false, cursor) =>
    match ← cursor.matchAny? Lexeme.pairs with
    | (true, cursor) =>
      return (some .operator, { lexer with cursor, context := lexer.context.openExpression })
    | (false, cursor) =>
      let lexer := { lexer with cursor }
      let c ← cursor.peek? 0
      if c = referenceMark then
        let (category, after) ← lexer.reference?
        return (some category, after)
      else if c = '.' then
        let (category, after) ← lexer.single? .punctuation lexer.context.enterProperty
        return (some category, after)
      else if isSimpleOperator c then
        let (category, after) ← lexer.single? .operator lexer.context.openExpression
        return (some category, after)
      else return (none, lexer)

/-- Passes a word. -/
def word? (lexer : ByteLexer) : Option (Category × ByteLexer) := do
  let ctx := lexer.context
  let (_, cursor) ← lexer.cursor.takeWhile? isWordPart
  let isKeyword ←
    (if ctx.mayPromote then cursor.rest?.map Lexeme.beginsArgument else some false)
  if isKeyword then return (.keyword, { lexer with cursor, context := ctx.afterKeyword })
  else
    let category : Category :=
      if ctx.afterDot then .property else if ctx.afterReference then .reference else .name
    return (category, { lexer with cursor, context := ctx.endExpression })

/-- Passes a word, or else a single character that begins nothing longer. -/
def wordOrSingle? (lexer : ByteLexer) : Option (Category × ByteLexer) := do
  let c ← lexer.cursor.peek? 0
  if isWordStart c then lexer.word?
  else if isOperatorMark c then lexer.single? .operator lexer.context.openExpression
  else lexer.single? .unclassified lexer.context.endExpression

/-- Passes what begins here, outside literals. -/
def recognize? (lexer : ByteLexer) : Option (Category × ByteLexer) := do
  match ← lexer.number? with
  | (some category, after) => return (category, after)
  | (none, lexer) =>
    match ← lexer.openLiteral? with
    | (true, lexer) => return (.string, ← lexer.insideLiteral?)
    | (false, lexer) =>
      let c ← lexer.cursor.peek? 0
      if c = commentMark then return (.comment, lexer.comment)
      else if c = ',' then lexer.comma?
      else if isOpenBracket c then lexer.openBracket?
      else if isCloseBracket c then lexer.closeBracket?
      else if c = decoratorMark then lexer.decorator?
      else
        match ← lexer.operator? with
        | (some category, after) => return (category, after)
        | (none, lexer) => lexer.wordOrSingle?

/-! ### Tokens -/

/-- The token that has been passed. -/
def finish? (lexer : ByteLexer) (category : Category) : Option Token :=
  (Span.ofBounds? lexer.tokenStart lexer.cursor.position).map fun span => ⟨category, span⟩

/-- Reads the next token. -/
def next? (lexer : ByteLexer) : Option (Option Token × ByteLexer) := do
  if lexer.context.inLiteral then
    let lexer := { lexer with tokenStart := lexer.cursor.position }
    if lexer.cursor.isAtEnd then return (none, lexer)
    else
      let after ← lexer.insideLiteral?
      return (some (← after.finish? .string), after)
  else
    let context :=
      if lexer.cursor.isAtStart then lexer.context.startLine else lexer.context
    let cursor ← lexer.cursor.skipBlanks?
    let lexer : ByteLexer := ⟨cursor, context, cursor.position⟩
    if cursor.isAtEnd then return (none, lexer)
    else
      let (category, after) ← lexer.recognize?
      return (some (← after.finish? category), after)

/-! ### Reading comes to an end -/

section

variable {lexer after : ByteLexer} {category : Category}

theorem gains_of_single? {passed : Category} {context : Context} (hmore : ¬lexer.cursor.isAtEnd)
    (h : lexer.single? category context = some (passed, after)) :
    lexer.cursor.Gains 1 after.cursor := by
  obtain ⟨cursor, hadvance, h⟩ := Option.bind_eq_some_iff.1 h
  cases h
  exact ByteCursor.gains_one_of_advance? hmore hadvance

/-- A numeral is passed, or nothing. -/
theorem gains_of_number? {found? : Option Category} (hmore : ¬lexer.cursor.isAtEnd)
    (h : lexer.number? = some (found?, after)) :
    if found?.isSome then lexer.cursor.Gains 1 after.cursor else after = lexer := by
  obtain ⟨rest, -, h⟩ := Option.bind_eq_some_iff.1 h
  obtain ⟨width?, hwidth, h⟩ := Option.bind_eq_some_iff.1 h
  cases width? with
  | none =>
    cases h
    rfl
  | some width =>
    obtain ⟨cursor, hadvance, h⟩ := Option.bind_eq_some_iff.1 h
    cases h
    exact ByteCursor.gains_one_of_advanceBy? hmore (Numeral.bytesWidth?_pos hwidth) hadvance

/-- The opening of a literal is passed, or nothing. -/
theorem gains_of_openLiteral? {opened : Bool} (hmore : ¬lexer.cursor.isAtEnd)
    (h : lexer.openLiteral? = some (opened, after)) :
    if opened then lexer.cursor.Gains 1 after.cursor else after = lexer := by
  obtain ⟨rest, -, h⟩ := Option.bind_eq_some_iff.1 h
  obtain ⟨behind, -, h⟩ := Option.bind_eq_some_iff.1 h
  split at h
  next =>
    cases h
    rfl
  next =>
    obtain ⟨cursor, hadvance, h⟩ := Option.bind_eq_some_iff.1 h
    cases h
    exact ByteCursor.gains_one_of_advanceBy? hmore (Nat.succ_pos _) hadvance

/-- In a literal, what closes it is passed, or else a character and what the line holds after it. -/
theorem cases_of_insideLiteral? {l : Literal} (hmore : ¬lexer.cursor.isAtEnd)
    (hl : lexer.context.literal = some l) (h : lexer.insideLiteral? = some after) :
    lexer.cursor.matchText? l.closing = some (true, after.cursor) ∨
      ∃ cursor, passWithin? lexer.cursor l = some cursor ∧
        insideLiteral? { lexer with cursor } = some after := by
  rw [insideLiteral?, dif_neg hmore, hl] at h
  obtain ⟨⟨closes, cursor⟩, hmatch, h⟩ := Option.bind_eq_some_iff.1 h
  cases closes with
  | true =>
    cases h
    exact .inl hmatch
  | false =>
    right
    dsimp only at h
    split at h
    · cases h
    next cursor hwithin => exact ⟨cursor, hwithin, h⟩

theorem gains_of_closing {cursor passed : ByteCursor} {l : Literal}
    (h : cursor.matchText? l.closing = some (true, passed)) : cursor.Gains 1 passed :=
  (ByteCursor.gains_of_matchText? h).mono
    (List.length_pos_iff.2 (Text.bytes_ne_nil (List.cons_ne_nil _ _)))

theorem gains_of_insideLiteral? (h : lexer.insideLiteral? = some after) :
    lexer.cursor.Gains 0 after.cursor := by
  induction lexer using insideLiteral?.induct with
  | case1 lexer hend =>
    rw [insideLiteral?, dif_pos hend] at h
    cases h
    exact .refl _
  | case2 lexer hmore hnone =>
    rw [insideLiteral?, dif_neg hmore, hnone] at h
    cases h
    exact .refl _
  | case3 lexer hmore l hl ih =>
    rcases cases_of_insideLiteral? hmore hl h with hclosing | ⟨cursor, hwithin, hfurther⟩
    · exact (gains_of_closing hclosing).mono (Nat.zero_le 1)
    · exact ((gains_of_passWithin? hmore hwithin).trans (ih cursor hwithin hfurther)).mono
        (Nat.zero_le 1)

theorem gains_one_of_insideLiteral? (h : lexer.insideLiteral? = some after)
    (hmore : ¬lexer.cursor.isAtEnd) (hin : lexer.context.inLiteral) :
    lexer.cursor.Gains 1 after.cursor := by
  obtain ⟨l, hl⟩ := Option.isSome_iff_exists.1 hin
  rcases cases_of_insideLiteral? hmore hl h with hclosing | ⟨cursor, hwithin, hfurther⟩
  · exact gains_of_closing hclosing
  · exact (gains_of_passWithin? hmore hwithin).trans (gains_of_insideLiteral? hfurther)

theorem gains_of_decorator? (hmore : ¬lexer.cursor.isAtEnd)
    (h : lexer.decorator? = some (category, after)) : lexer.cursor.Gains 1 after.cursor := by
  obtain ⟨between, hadvance, h⟩ := Option.bind_eq_some_iff.1 h
  obtain ⟨⟨count, cursor⟩, htake, h⟩ := Option.bind_eq_some_iff.1 h
  cases h
  exact (ByteCursor.gains_one_of_advance? hmore hadvance).trans
    (ByteCursor.gains_of_takeWhile? htake)

theorem gains_of_reference? (hmore : ¬lexer.cursor.isAtEnd)
    (h : lexer.reference? = some (category, after)) : lexer.cursor.Gains 1 after.cursor := by
  obtain ⟨cursor, hadvance, h⟩ := Option.bind_eq_some_iff.1 h
  obtain ⟨c, -, h⟩ := Option.bind_eq_some_iff.1 h
  cases h
  exact ByteCursor.gains_one_of_advance? hmore hadvance

/-- An operator is passed, or nothing. -/
theorem gains_of_operator? {found? : Option Category} (hmore : ¬lexer.cursor.isAtEnd)
    (h : lexer.operator? = some (found?, after)) :
    if found?.isSome then lexer.cursor.Gains 1 after.cursor else after = lexer := by
  obtain ⟨⟨ellipsis, cursor⟩, hellipsis, h⟩ := Option.bind_eq_some_iff.1 h
  have hgains := ByteCursor.gains_of_matchAny? (by decide) hellipsis
  cases ellipsis with
  | true =>
    cases h
    exact hgains
  | false =>
    obtain rfl : lexer.cursor = cursor := Eq.symm hgains
    obtain ⟨⟨pair, cursor⟩, hpair, h⟩ := Option.bind_eq_some_iff.1 h
    have hgains := ByteCursor.gains_of_matchAny? (by decide) hpair
    cases pair with
    | true =>
      cases h
      exact hgains
    | false =>
      obtain rfl : lexer.cursor = cursor := Eq.symm hgains
      obtain ⟨c, -, h⟩ := Option.bind_eq_some_iff.1 h
      split at h
      next =>
        obtain ⟨⟨passed, last⟩, hpassed, h⟩ := Option.bind_eq_some_iff.1 h
        cases h
        exact gains_of_reference? hmore hpassed
      split at h
      next =>
        obtain ⟨⟨passed, last⟩, hpassed, h⟩ := Option.bind_eq_some_iff.1 h
        cases h
        exact gains_of_single? hmore hpassed
      split at h
      next =>
        obtain ⟨⟨passed, last⟩, hpassed, h⟩ := Option.bind_eq_some_iff.1 h
        cases h
        exact gains_of_single? hmore hpassed
      next =>
        cases h
        rfl

theorem gains_of_word? {c : Char} (hmore : ¬lexer.cursor.isAtEnd)
    (hc : lexer.cursor.peek? 0 = some c) (hstart : isWordStart c)
    (h : lexer.word? = some (category, after)) : lexer.cursor.Gains 1 after.cursor := by
  obtain ⟨⟨count, cursor⟩, htake, h⟩ := Option.bind_eq_some_iff.1 h
  have hgains := ByteCursor.gains_one_of_takeWhile? hmore hc
    (Lexeme.isWordPart_of_isWordStart hstart) htake
  obtain ⟨isKeyword, -, h⟩ := Option.bind_eq_some_iff.1 h
  split at h <;>
  · cases h
    exact hgains

theorem gains_of_wordOrSingle? (hmore : ¬lexer.cursor.isAtEnd)
    (h : lexer.wordOrSingle? = some (category, after)) : lexer.cursor.Gains 1 after.cursor := by
  obtain ⟨c, hc, h⟩ := Option.bind_eq_some_iff.1 h
  split at h
  next hstart => exact gains_of_word? hmore hc hstart h
  split at h <;> exact gains_of_single? hmore h

/-- What is recognized takes bytes. -/
theorem gains_of_recognize? (hmore : ¬lexer.cursor.isAtEnd)
    (h : lexer.recognize? = some (category, after)) : lexer.cursor.Gains 1 after.cursor := by
  obtain ⟨⟨numeral?, behind⟩, hnumeral, hother⟩ := Option.bind_eq_some_iff.1 h
  have hgains := gains_of_number? hmore hnumeral
  cases numeral? with
  | some numeral =>
    cases hother
    exact hgains
  | none =>
    obtain rfl : lexer = behind := Eq.symm hgains
    obtain ⟨⟨opened, within⟩, hopened, hother⟩ := Option.bind_eq_some_iff.1 hother
    have hgains := gains_of_openLiteral? hmore hopened
    cases opened with
    | true =>
      obtain ⟨last, hinside, hlast⟩ := Option.bind_eq_some_iff.1 hother
      cases hlast
      exact hgains.trans (gains_of_insideLiteral? hinside)
    | false =>
      obtain rfl : lexer = within := Eq.symm hgains
      obtain ⟨c, -, hmark⟩ := Option.bind_eq_some_iff.1 hother
      split at hmark
      next =>
        cases hmark
        exact ByteCursor.gains_one_of_skipToEnd hmore
      split at hmark
      next => exact gains_of_single? hmore hmark
      split at hmark
      next => exact gains_of_single? hmore hmark
      split at hmark
      next => exact gains_of_single? hmore hmark
      split at hmark
      next => exact gains_of_decorator? hmore hmark
      obtain ⟨⟨mark?, passed⟩, hoperator, hword⟩ := Option.bind_eq_some_iff.1 hmark
      have hgains := gains_of_operator? hmore hoperator
      cases mark? with
      | some mark =>
        cases hword
        exact hgains
      | none =>
        obtain rfl : lexer = passed := Eq.symm hgains
        exact gains_of_wordOrSingle? hmore hword

/-- A token brings the lexer forward. -/
theorem remaining_next?_lt {token : Token} (h : lexer.next? = some (some token, after)) :
    after.cursor.remaining < lexer.cursor.remaining := by
  rw [next?] at h
  split at h
  next hin =>
    dsimp only at h
    split at h
    · cases h
    next hmore =>
      obtain ⟨last, hinside, h⟩ := Option.bind_eq_some_iff.1 h
      obtain ⟨found, -, h⟩ := Option.bind_eq_some_iff.1 h
      cases h
      exact (gains_one_of_insideLiteral? hinside hmore hin).remaining_lt hmore
  next =>
    obtain ⟨cursor, hblanks, h⟩ := Option.bind_eq_some_iff.1 h
    dsimp only at h
    split at h
    · cases h
    next hmore =>
      obtain ⟨⟨category, last⟩, hrecognize, h⟩ := Option.bind_eq_some_iff.1 h
      obtain ⟨found, -, h⟩ := Option.bind_eq_some_iff.1 h
      cases h
      exact Nat.lt_of_lt_of_le ((gains_of_recognize? hmore hrecognize).remaining_lt hmore)
        (ByteCursor.gains_of_skipBlanks? hblanks).remaining_le

end

/-- Reads the tokens up to the end of the line, each with the lexer after it, and the lexer at the
    end. -/
def steps? (lexer : ByteLexer) : Option (List (Token × ByteLexer) × ByteLexer) :=
  match _h : lexer.next? with
  | none => none
  | some (none, after) => some ([], after)
  | some (some token, after) =>
    after.steps?.map fun (following, last) => ((token, after) :: following, last)
termination_by lexer.cursor.remaining
decreasing_by exact remaining_next?_lt ‹_›

/-! ### Calls -/

/-- The answer of a recognizer that may find nothing. -/
def answer? (found? : Option (Option Category × ByteLexer)) : Option (Lexer.Answer × ByteLexer) :=
  found?.map fun (category?, after) => (.category category?, after)

/-- The answer of a recognizer that passes something in any case. -/
def answer (found? : Option (Category × ByteLexer)) : Option (Lexer.Answer × ByteLexer) :=
  found?.map fun (category, after) => (.category (some category), after)

/-- Performs one call. -/
def call? (lexer : ByteLexer) : Lexer.Call → Option (Lexer.Answer × ByteLexer)
  | .next => lexer.next?.map fun (token?, after) => (.token token?, after)
  | .rest => lexer.steps?.map fun (steps, last) => (.tokens (steps.map Prod.fst), last)
  | .number => answer? lexer.number?
  | .operator => answer? lexer.operator?
  | .openLiteral => lexer.openLiteral?.map fun (opened, after) => (.flag opened, after)
  | .insideLiteral => answer (lexer.insideLiteral?.map fun after => (.string, after))
  | .word => answer lexer.word?
  | .comma => answer lexer.comma?
  | .openBracket => answer lexer.openBracket?
  | .closeBracket => answer lexer.closeBracket?
  | .decorator => answer lexer.decorator?
  | .comment => answer (some (.comment, lexer.comment))
  | .line => some (.text lexer.cursor.line, lexer)
  | .advanceBy count =>
    (lexer.cursor.advanceBy? count).map fun cursor => (.nothing, { lexer with cursor })
  | .skipBlanks => lexer.cursor.skipBlanks?.map fun cursor => (.nothing, { lexer with cursor })
  | .startStatement => some (.nothing, { lexer with context := lexer.context.startStatement })
  | .startLine => some (.nothing, { lexer with context := lexer.context.startLine })
  | .reset => some (.nothing, { lexer with context := {} })

/-- Performs calls one after the other, and gives each answer with the lexer after it. -/
def callAll? (lexer : ByteLexer) : List Lexer.Call → Option (List (Lexer.Answer × ByteLexer))
  | [] => some []
  | c :: calls => do
    let (answer, after) ← lexer.call? c
    return (answer, after) :: (← after.callAll? calls)

end ByteLexer

end Highlighter
