import Highlighter.Lexer.Call
import Highlighter.Proofs.Lexeme.Lookahead
import Mathlib.Data.List.Infix
import Mathlib.Data.List.TakeWhile

/-!
# The longest numeral

The texts that are numerals are given by a grammar (`Numeral.IsNumeral`): hexadecimal numbers,
decimal numbers with or without a fraction, and, only where an expression starts, decimal numbers
with a sign, and a point with digits. The recognizer of numbers tries these four one after the
other and takes the first that it finds. That is the longest numeral that stands there
(`Numeral.isLongest_width?`), for two reasons:

* what is tried for one alternative is the longest text of it (`isLongest_digitsWidth?`,
  `Numeral.isLongest_decimalWidth?`);
* where one alternative is found, none of those after it could be longer (`IsLongest.or`): they
  begin with other characters, except that the first digit of a hexadecimal number is a decimal
  number, too.

So a lexer that is called to recognize a number passes the longest numeral, if there is one, and
otherwise stays as it is (`Lexer.call_number_longest`).
-/

namespace Highlighter

variable {text rest part : Text} {c : Char} {isIn : Char → Bool}

/-! ## Longest texts -/

/-- What a width is for a class of texts: that of the longest of them with which a text begins, if
    it begins with any. -/
structure IsLongest (accepts : Text → Prop) (text : Text) (width? : Option Nat) : Prop where
  accepted : ∀ width ∈ width?, ∃ part, accepts part ∧ part <+: text ∧ part.length = width
  longest : ∀ part, accepts part → part <+: text → ∃ width ∈ width?, part.length ≤ width

namespace IsLongest

variable {accepts accepts' : Text → Prop} {width? width'? : Option Nat}

theorem of_forall_not (h : ∀ part, accepts part → ¬part <+: text) :
    IsLongest accepts text none where
  accepted _ hw := by cases hw
  longest part ha hp := absurd hp (h part ha)

theorem congr (h : IsLongest accepts text width?) (hiff : ∀ part, accepts' part ↔ accepts part) :
    IsLongest accepts' text width? where
  accepted width hw := by
    obtain ⟨part, ha, hp⟩ := h.accepted width hw
    exact ⟨part, (hiff part).2 ha, hp⟩
  longest part ha hp := h.longest part ((hiff part).1 ha) hp

/-- A character in front of all texts of a class. -/
theorem cons (h : IsLongest accepts rest width?) (c : Char) :
    IsLongest (fun text => ∃ part, text = c :: part ∧ accepts part) (c :: rest)
      (width?.map (· + 1)) where
  accepted width hw := by
    obtain ⟨n, hn, rfl⟩ := Option.map_eq_some_iff.1 hw
    obtain ⟨part, ha, hp, rfl⟩ := h.accepted n hn
    exact ⟨c :: part, ⟨part, rfl, ha⟩, (List.prefix_cons_inj c).2 hp, rfl⟩
  longest := by
    rintro _ ⟨part, rfl, ha⟩ hp
    obtain ⟨n, hn, hle⟩ := h.longest part ha ((List.prefix_cons_inj c).1 hp)
    exact ⟨n + 1, Option.map_eq_some_iff.2 ⟨n, hn, rfl⟩, Nat.succ_le_succ hle⟩

/-- Where another character comes first, or none, no text of the class is found. -/
theorem of_head?_ne (h : text.head? ≠ some c) :
    IsLongest (fun text => ∃ part, text = c :: part ∧ accepts part) text none := by
  refine .of_forall_not ?_
  rintro _ ⟨part, rfl, -⟩ ⟨tail, rfl⟩
  exact h rfl

/-- A class of texts that only counts under a condition. -/
theorem ite (h : IsLongest accepts text width?) (condition : Bool) :
    IsLongest (fun part => condition ∧ accepts part) text
      (if condition then width? else none) := by
  cases condition with
  | true => exact h.congr fun _ => and_iff_right rfl
  | false => exact .of_forall_not fun _ ha => absurd ha.1 Bool.false_ne_true

/-- Of two classes the first decides, if what is found of it is too short for no text of the
    second. -/
theorem or (h : IsLongest accepts text width?) (h' : IsLongest accepts' text width'?)
    (hle : ∀ width ∈ width?, ∀ part, accepts' part → part <+: text → part.length ≤ width) :
    IsLongest (fun part => accepts part ∨ accepts' part) text (width?.or width'?) where
  accepted width hw := by
    rcases Option.or_eq_some_iff.1 hw with hw | ⟨-, hw⟩
    · obtain ⟨part, ha, hp⟩ := h.accepted width hw
      exact ⟨part, .inl ha, hp⟩
    · obtain ⟨part, ha, hp⟩ := h'.accepted width hw
      exact ⟨part, .inr ha, hp⟩
  longest part ha hp := by
    rcases ha with ha | ha
    · obtain ⟨width, hw, hwidth⟩ := h.longest part ha hp
      exact ⟨width, Option.or_eq_some_iff.2 (.inl hw), hwidth⟩
    · cases width? with
      | none =>
        rw [Option.none_or]
        exact h'.longest part ha hp
      | some width => exact ⟨width, rfl, hle width rfl part ha hp⟩

end IsLongest

/-! ## Digits -/

/-- One digit or more, of a class of digits. -/
def IsDigits (isIn : Char → Bool) (text : Text) : Prop :=
  text ≠ [] ∧ ∀ c ∈ text, isIn c

/-- The number of digits with which a text begins, if it begins with any. -/
def digitsWidth? (isIn : Char → Bool) (text : Text) : Option Nat :=
  match (text.takeWhile isIn).length with
  | 0 => none
  | n + 1 => some (n + 1)

theorem digitsWidth?_eq_some_iff {width : Nat} :
    digitsWidth? isIn text = some width ↔ (text.takeWhile isIn).length = width ∧ 0 < width := by
  rw [digitsWidth?]
  split <;> grind

/-- As many digits are found as are there. -/
theorem isLongest_digitsWidth? (isIn : Char → Bool) (text : Text) :
    IsLongest (IsDigits isIn) text (digitsWidth? isIn text) where
  accepted width hw := by
    obtain ⟨hlength, hpos⟩ := digitsWidth?_eq_some_iff.1 hw
    refine ⟨text.takeWhile isIn, ⟨?_, fun c hc => ?_⟩, List.takeWhile_prefix isIn, hlength⟩
    · exact List.length_pos_iff.1 (hlength ▸ hpos)
    · exact List.all_eq_true.1 List.all_takeWhile c hc
  longest part ha hp := by
    obtain ⟨tail, rfl⟩ := hp
    have hle : part.length ≤ ((part ++ tail).takeWhile isIn).length := by
      rw [List.takeWhile_append_of_pos ha.2, List.length_append]
      exact Nat.le_add_right ..
    have hpos : 0 < part.length := List.length_pos_iff.2 ha.1
    exact ⟨_, digitsWidth?_eq_some_iff.2 ⟨rfl, hpos.trans_le hle⟩, hle⟩

namespace Numeral

/-! ## The grammar -/

/-- Digits, with or without a point and more digits after them. -/
inductive IsDecimal : Text → Prop
  | whole {digits : Text} : IsDigits Char.isDigit digits → IsDecimal digits
  | fraction {digits fraction : Text} :
    IsDigits Char.isDigit digits → IsDigits Char.isDigit fraction →
      IsDecimal (digits ++ '.' :: fraction)

/-- The numerals, where an expression starts or not. -/
inductive IsNumeral (expressionStart : Bool) : Text → Prop
  | hex {digits : Text} :
    IsDigits isHexDigit digits → IsNumeral expressionStart ('0' :: 'x' :: digits)
  | decimal {number : Text} : IsDecimal number → IsNumeral expressionStart number
  | signed {number : Text} :
    expressionStart → IsDecimal number → IsNumeral expressionStart ('-' :: number)
  | point {digits : Text} :
    expressionStart → IsDigits Char.isDigit digits → IsNumeral expressionStart ('.' :: digits)

theorem IsDecimal.exists_cons (h : IsDecimal text) :
    ∃ d rest, text = d :: rest ∧ d.isDigit := by
  cases h with
  | whole h =>
    obtain ⟨d, rest, rfl⟩ := List.exists_cons_of_ne_nil h.1
    exact ⟨d, rest, rfl, h.2 d List.mem_cons_self⟩
  | fraction h _ =>
    obtain ⟨d, rest, rfl⟩ := List.exists_cons_of_ne_nil h.1
    exact ⟨d, _, rfl, h.2 d List.mem_cons_self⟩

/-- A decimal number that stands at the beginning of a text begins with its first character. -/
theorem IsDecimal.isDigit_of_prefix (h : IsDecimal part) (hp : part <+: c :: rest) : c.isDigit := by
  obtain ⟨d, tail, rfl, hd⟩ := h.exists_cons
  obtain ⟨rfl, -⟩ := List.cons_prefix_cons.1 hp
  exact hd

theorem isNumeral_iff {expressionStart : Bool} :
    IsNumeral expressionStart text ↔
      (∃ part, text = '0' :: part ∧ ∃ digits, part = 'x' :: digits ∧ IsDigits isHexDigit digits) ∨
      (expressionStart ∧ ∃ number, text = '-' :: number ∧ IsDecimal number) ∨
      IsDecimal text ∨
      (expressionStart ∧ ∃ digits, text = '.' :: digits ∧ IsDigits Char.isDigit digits) := by
  constructor
  · intro h
    cases h with
    | hex h => exact .inl ⟨_, rfl, _, rfl, h⟩
    | decimal h => exact .inr (.inr (.inl h))
    | signed hs h => exact .inr (.inl ⟨hs, _, rfl, h⟩)
    | point hs h => exact .inr (.inr (.inr ⟨hs, _, rfl, h⟩))
  · rintro (⟨_, rfl, _, rfl, h⟩ | ⟨hs, _, rfl, h⟩ | h | ⟨hs, _, rfl, h⟩)
    exacts [.hex h, .signed hs h, .decimal h, .point hs h]

/-! ## One alternative after the other -/

theorem pointWidth?_cons (rest : Text) :
    pointWidth? ('.' :: rest) = (digitsWidth? Char.isDigit rest).map (· + 1) := by
  rw [pointWidth?, digitCount, digitsWidth?]
  cases (rest.takeWhile Char.isDigit).length <;> rfl

theorem hexWidth?_cons (rest : Text) :
    hexWidth? ('0' :: 'x' :: rest) = ((digitsWidth? isHexDigit rest).map (· + 1)).map (· + 1) := by
  rw [hexWidth?, digitsWidth?]
  cases (rest.takeWhile isHexDigit).length <;> rfl

theorem decimalWidth?_eq (text : Text) :
    decimalWidth? text = (digitsWidth? Char.isDigit text).map fun count =>
      count + (pointWidth? (text.drop count)).getD 0 := by
  rw [decimalWidth?, digitCount, digitsWidth?]
  cases (text.takeWhile Char.isDigit).length <;> rfl

theorem isLongest_pointWidth? (text : Text) :
    IsLongest (fun part => ∃ digits, part = '.' :: digits ∧ IsDigits Char.isDigit digits) text
      (pointWidth? text) := by
  by_cases h : text.head? = some '.'
  · obtain ⟨rest, rfl⟩ := List.head?_eq_some_iff.1 h
    rw [pointWidth?_cons]
    exact (isLongest_digitsWidth? Char.isDigit rest).cons '.'
  · rw [pointWidth?.eq_2 text fun rest heq => h (by rw [heq]; rfl)]
    exact .of_head?_ne h

theorem isLongest_decimalWidth? (text : Text) : IsLongest IsDecimal text (decimalWidth? text) where
  accepted width hw := by
    rw [decimalWidth?_eq] at hw
    obtain ⟨count, hcount, rfl⟩ := Option.map_eq_some_iff.1 hw
    obtain ⟨digits, hdigits, ⟨tail, rfl⟩, rfl⟩ := (isLongest_digitsWidth? ..).accepted count hcount
    rw [List.drop_left]
    cases hpoint : pointWidth? tail with
    | none => exact ⟨digits, .whole hdigits, List.prefix_append .., rfl⟩
    | some n =>
      obtain ⟨_, ⟨fraction, rfl, hfraction⟩, hp, rfl⟩ :=
        (isLongest_pointWidth? tail).accepted n hpoint
      exact ⟨digits ++ '.' :: fraction, .fraction hdigits hfraction,
        (List.prefix_append_right_inj digits).2 hp, List.length_append⟩
  longest part ha hp := by
    rw [decimalWidth?_eq]
    cases ha with
    | whole h =>
      obtain ⟨count, hcount, hle⟩ := (isLongest_digitsWidth? ..).longest part h hp
      exact ⟨_, Option.map_eq_some_iff.2 ⟨count, hcount, rfl⟩, Nat.le_add_right_of_le hle⟩
    | @fraction digits fraction h hfraction =>
      obtain ⟨tail, rfl⟩ := hp
      rw [List.append_assoc, List.cons_append]
      -- the point ends the digits before it
      have hrun : digitsWidth? Char.isDigit (digits ++ '.' :: (fraction ++ tail)) =
          some digits.length := by
        rw [digitsWidth?_eq_some_iff, takeWhile_append_cons (by decide),
          List.takeWhile_eq_self_iff.2 h.2]
        exact ⟨rfl, List.length_pos_iff.2 h.1⟩
      obtain ⟨n, hn, hle⟩ := (isLongest_pointWidth? ('.' :: (fraction ++ tail))).longest
        ('.' :: fraction) ⟨fraction, rfl, hfraction⟩ (List.prefix_append ('.' :: fraction) tail)
      refine ⟨digits.length + n, ?_, ?_⟩
      · rw [hrun, Option.map_some, List.drop_left, Option.mem_def.1 hn]
        rfl
      · rw [List.length_append]
        exact Nat.add_le_add_left hle _

theorem isLongest_signedWidth? (text : Text) :
    IsLongest (fun part => ∃ number, part = '-' :: number ∧ IsDecimal number) text
      (signedWidth? text) := by
  by_cases h : text.head? = some '-'
  · obtain ⟨rest, rfl⟩ := List.head?_eq_some_iff.1 h
    exact (isLongest_decimalWidth? rest).cons '-'
  · rw [signedWidth?.eq_2 text fun rest heq => h (by rw [heq]; rfl)]
    exact .of_head?_ne h

theorem isLongest_hexWidth? (text : Text) :
    IsLongest (fun part => ∃ tail, part = '0' :: tail ∧
      ∃ digits, tail = 'x' :: digits ∧ IsDigits isHexDigit digits) text (hexWidth? text) := by
  by_cases h : ∃ rest, text = '0' :: 'x' :: rest
  · obtain ⟨rest, rfl⟩ := h
    rw [hexWidth?_cons]
    exact ((isLongest_digitsWidth? isHexDigit rest).cons 'x').cons '0'
  · rw [hexWidth?.eq_2 text fun rest heq => h ⟨rest, heq⟩]
    refine .of_forall_not ?_
    rintro _ ⟨_, rfl, digits, rfl, -⟩ ⟨tail, rfl⟩
    exact h ⟨_, rfl⟩

/-! ## All of them -/

/-- The first alternative that is found is the longest numeral. -/
theorem isLongest_width? (expressionStart : Bool) (text : Text) :
    IsLongest (IsNumeral expressionStart) text (width? expressionStart text) := by
  have hhex := isLongest_hexWidth? text
  have hsigned := (isLongest_signedWidth? text).ite expressionStart
  have hdecimal := isLongest_decimalWidth? text
  have hpoint := (isLongest_pointWidth? text).ite expressionStart
  refine (hhex.or (hsigned.or (hdecimal.or hpoint ?_) ?_) ?_).congr fun _ => isNumeral_iff
  · -- no decimal number begins with a point
    rintro width hw _ ⟨-, digits, rfl, -⟩ ⟨tail, rfl⟩
    obtain ⟨part, ha, hp, -⟩ := hdecimal.accepted width hw
    exact absurd (ha.isDigit_of_prefix hp) (by decide)
  · -- a sign is no digit and no point
    intro width hw part ha hp
    obtain ⟨_, ⟨-, number, rfl, -⟩, ⟨tail, rfl⟩, -⟩ := hsigned.accepted width hw
    rcases ha with ha | ⟨-, digits, rfl, -⟩
    · exact absurd (ha.isDigit_of_prefix hp) (by decide)
    · exact absurd (List.cons_prefix_cons.1 hp).1 (by decide)
  · -- only the zero of a hexadecimal number is a number, too
    intro width hw part ha hp
    obtain ⟨_, ⟨_, rfl, digits, rfl, -⟩, ⟨tail, rfl⟩, -⟩ := hhex.accepted width hw
    rcases ha with ⟨-, number, rfl, -⟩ | ha | ⟨-, digits, rfl, -⟩
    · exact absurd (List.cons_prefix_cons.1 hp).1 (by decide)
    · obtain ⟨one, hone, hle⟩ := hdecimal.longest part ha hp
      have hzero : decimalWidth? ('0' :: 'x' :: (digits ++ tail)) = some 1 := rfl
      obtain rfl : one = 1 := Option.some.inj (hone.symm.trans hzero)
      exact hle.trans (hexWidth?_pos hw)
    · exact absurd (List.cons_prefix_cons.1 hp).1 (by decide)

/-- A point is part of a number only with a digit right after it. -/
example : width? true "-1..5".toList = some 2 := by decide

/-! ## Numerals in bytes -/

theorem utf8Size_of_isHexDigit (h : isHexDigit c) : c.utf8Size = 1 := by
  have hle {d : Char} (hd : d.val ≤ 127) (hc : c.val ≤ d.val) : c.utf8Size = 1 :=
    Char.utf8Size_eq_one_iff.2 (UInt32.le_trans hc hd)
  simp only [isHexDigit, Bool.or_eq_true, Bool.and_eq_true, decide_eq_true_eq] at h
  rcases h with (hdigit | ⟨-, hlower⟩) | ⟨-, hupper⟩
  · exact hle (d := '9') (by decide) (of_decide_eq_true (Bool.and_eq_true_iff.1 hdigit).2)
  · exact hle (d := 'f') (by decide) hlower
  · exact hle (d := 'F') (by decide) hupper

theorem byteLength_cons_eq (hc : c.utf8Size = 1) (h : Text.byteLength text = text.length) :
    Text.byteLength (c :: text) = (c :: text).length := by
  rw [Text.byteLength_cons, hc, h, List.length_cons, Nat.add_comm]

theorem byteLength_of_isDigits (h : IsDigits isHexDigit text) :
    Text.byteLength text = text.length := by
  obtain ⟨-, h⟩ := h
  induction text with
  | nil => rfl
  | cons c rest ih =>
    exact byteLength_cons_eq (utf8Size_of_isHexDigit (h c List.mem_cons_self))
      (ih fun d hd => h d (List.mem_cons_of_mem c hd))

theorem byteLength_of_isDigits_isDigit (h : IsDigits Char.isDigit text) :
    Text.byteLength text = text.length :=
  byteLength_of_isDigits ⟨h.1, fun c hc => by simp [isHexDigit, h.2 c hc]⟩

theorem byteLength_of_isDecimal (h : IsDecimal text) : Text.byteLength text = text.length := by
  cases h with
  | whole h => exact byteLength_of_isDigits_isDigit h
  | fraction h hfraction =>
    rw [Text.byteLength_append, byteLength_of_isDigits_isDigit h, List.length_append,
      byteLength_cons_eq rfl (byteLength_of_isDigits_isDigit hfraction)]

/-- A numeral has as many bytes as characters. -/
theorem IsNumeral.byteLength_eq {expressionStart : Bool} (h : IsNumeral expressionStart text) :
    Text.byteLength text = text.length := by
  cases h with
  | hex h => exact byteLength_cons_eq rfl (byteLength_cons_eq rfl (byteLength_of_isDigits h))
  | decimal h => exact byteLength_of_isDecimal h
  | signed _ h => exact byteLength_cons_eq rfl (byteLength_of_isDecimal h)
  | point _ h => exact byteLength_cons_eq rfl (byteLength_of_isDigits_isDigit h)

end Numeral

namespace Lexer

/-- A lexer passes a numeral, the longest that stands where it is, and ends the expression. -/
structure PassesNumeral (lexer after : Lexer) (numeral : Text) : Prop where
  isNumeral : Numeral.IsNumeral lexer.context.expressionStart numeral
  rest : lexer.cursor.rest = numeral ++ after.cursor.rest
  longest : ∀ part, Numeral.IsNumeral lexer.context.expressionStart part →
    part <+: lexer.cursor.rest → part.length ≤ numeral.length
  line : after.cursor.line = lexer.cursor.line
  /-- A numeral has as many bytes as characters. -/
  position : after.cursor.position = lexer.cursor.position + numeral.length
  /-- Neither the literal nor the locks change. -/
  context : after.context = { lexer.context with
    expressionStart := false, promotable := false, afterDot := false, afterReference := false }
  tokenStart : after.tokenStart = lexer.tokenStart

theorem passesNumeral_accept {lexer : Lexer} {numeral : Text}
    (hnumeral : Numeral.IsNumeral lexer.context.expressionStart numeral)
    (hp : numeral <+: lexer.cursor.rest)
    (hlongest : ∀ part, Numeral.IsNumeral lexer.context.expressionStart part →
      part <+: lexer.cursor.rest → part.length ≤ numeral.length) :
    lexer.PassesNumeral (lexer.accept ⟨.number, numeral.length, lexer.context.endExpression⟩)
      numeral where
  isNumeral := hnumeral
  rest := by
    rw [accept, Cursor.rest_advanceBy]
    exact List.prefix_append_drop hp
  longest := hlongest
  line := lexer.cursor.line_advanceBy _
  position := by
    rw [accept, Cursor.position_advanceBy, ← List.prefix_iff_eq_take.1 hp, hnumeral.byteLength_eq]
  context := rfl
  tokenStart := rfl

/-- A lexer that is called to recognize a number passes the longest numeral that stands where it
    is, or otherwise, if none does, it stays as it is. -/
theorem call_number_longest (lexer : Lexer) :
    let found := ∃ part, Numeral.IsNumeral lexer.context.expressionStart part ∧
      part <+: lexer.cursor.rest
    ((lexer.call .number).1 = .category (some .number) ↔ found) ∧
    (found → ∃ numeral, lexer.PassesNumeral (lexer.call .number).2 numeral) ∧
    (¬found → lexer.call .number = (.category none, lexer)) := by
  intro found
  obtain ⟨haccepted, hlongest⟩ :=
    Numeral.isLongest_width? lexer.context.expressionStart lexer.cursor.rest
  rw [call, Lexeme.number?]
  cases hwidth : Numeral.width? lexer.context.expressionStart lexer.cursor.rest with
  | none =>
    have hnot : ¬found := by
      rintro ⟨part, hpart, hp⟩
      obtain ⟨width, hw, -⟩ := hlongest part hpart hp
      rw [hwidth] at hw
      cases hw
    exact ⟨iff_of_false (fun h => by cases h) hnot, fun hfound => absurd hfound hnot, fun _ => rfl⟩
  | some width =>
    obtain ⟨numeral, hnumeral, hp, rfl⟩ := haccepted width hwidth
    have hfound : found := ⟨numeral, hnumeral, hp⟩
    refine ⟨iff_of_true rfl hfound, fun _ => ⟨numeral, passesNumeral_accept hnumeral hp ?_⟩,
      fun hnot => absurd hfound hnot⟩
    intro part hpart hpart'
    obtain ⟨width, hw, hle⟩ := hlongest part hpart hpart'
    exact Option.some.inj (hwidth.symm.trans hw) ▸ hle

end Lexer

end Highlighter
