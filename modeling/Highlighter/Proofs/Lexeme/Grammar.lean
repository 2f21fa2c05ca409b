import Highlighter.Proofs.Lexeme.Argument
import Mathlib.Data.List.Infix
import Mathlib.Data.List.TakeWhile

/-!
# The texts of lexemes

A lexeme of a category has one of the texts of the category, and it takes as much as it can
(`Category.Admits`): a word goes on as long as characters of words follow, and of the operators
that begin at a place the longest is taken (`IsOperator`).

The first character alone tells whether there is such a lexeme. Every character of ASCII begins
one (`beginsLexeme`) or is blank, except the control characters; these, and all characters
outside of ASCII, are *foreign* (`isForeign_eq`). A foreign character begins nothing: it is
unclassified, alone, and nothing else is (`category_next_eq_unclassified_iff`).
-/

namespace Highlighter

/-! ## First characters -/

/-- A character with which some lexeme begins. -/
def beginsLexeme (c : Char) : Bool :=
  isWordStart c || c.isDigit || isQuote c || isOpenBracket c || isCloseBracket c ||
    isOperatorMark c || [commentMark, decoratorMark, ',', '.'].contains c

/-- A character without a meaning: one outside of ASCII, or a control character other than the
    tab and the carriage return. -/
def isForeign (c : Char) : Bool :=
  128 ≤ c.toNat || (c.toNat < 32 || c.toNat == 127) && c != '\t' && c != '\r'

variable {ctx : Context} {c : Char} {op text rest : Text} {lexeme : Lexeme}

/-- Letters and digits are in ASCII. -/
theorem not_isWordStart_and_not_isDigit (h : 128 ≤ c.toNat) : ¬isWordStart c ∧ ¬c.isDigit := by
  have hlt {n : UInt32} (hn : n.toNat < 128) : ¬c.val ≤ n := fun hle => by
    have hc : c.val.toNat ≤ n.toNat := UInt32.le_iff_toNat_le.1 hle
    have hval : c.val.toNat = c.toNat := rfl
    omega
  constructor
  · intro hword
    rcases Bool.or_eq_true_iff.1 hword with hletter | hunderscore
    · rcases Bool.or_eq_true_iff.1 hletter with hupper | hlower
      · have hZ : c.val ≤ 'Z'.val := (of_decide_eq_true hupper).2
        exact hlt (by decide) hZ
      · have hz : c.val ≤ 'z'.val := of_decide_eq_true (Bool.and_eq_true_iff.1 hlower).2
        exact hlt (by decide) hz
    · obtain rfl : c = '_' := eq_of_beq hunderscore
      exact absurd h (by decide)
  · intro hdigit
    have hnine : c.val ≤ '9'.val := of_decide_eq_true (Bool.and_eq_true_iff.1 hdigit).2
    exact hlt (by decide) hnine

/-- Only characters of ASCII have a meaning. -/
theorem not_isBlank_and_not_beginsLexeme (h : 128 ≤ c.toNat) :
    isBlank c = false ∧ beginsLexeme c = false := by
  have hne {d : Char} (hd : d.toNat < 128) : c ≠ d := by
    rintro rfl
    omega
  obtain ⟨hword, hdigit⟩ := not_isWordStart_and_not_isDigit h
  constructor
  · simp (disch := decide) [isBlank, hne]
  · simp (disch := decide) [beginsLexeme, hword, hdigit, isQuote, isOpenBracket, isCloseBracket,
      isOperatorMark, isSimpleOperator, hne]

/-- A character is foreign if it is not blank and no lexeme begins with it. -/
theorem isForeign_eq (c : Char) : isForeign c = !(isBlank c || beginsLexeme c) := by
  by_cases h : c.toNat < 128
  · have hascii : ∀ n < 128, isForeign (Char.ofNat n) =
        !(isBlank (Char.ofNat n) || beginsLexeme (Char.ofNat n)) := by decide
    have hc := hascii c.toNat h
    rwa [Char.ofNat_toNat] at hc
  · obtain ⟨hblank, hbegins⟩ := not_isBlank_and_not_beginsLexeme (Nat.not_lt.1 h)
    simp [isForeign, Nat.not_lt.1 h, hblank, hbegins]

/-! ## The texts of a category -/

/-- The operators of Raven. -/
def operators : List Text :=
  [['.', '.', '.'],
    ['=', '='], ['!', '='], ['>', '='], ['<', '='], ['&', '&'], ['|', '|'], ['|', '>'],
    ['='], ['+'], ['-'], ['*'], ['/'], ['^'], ['>'], ['<'], [':'], ['|'], ['&'],
    ['!'], ['%'], ['~'], ['?'], ['$'], [';'], ['\\'], ['\'']]

/-- A text is an operator, and what stands there begins with no longer one. -/
structure IsOperator (text rest : Text) : Prop where
  mem : text ∈ operators
  longest : ∀ op ∈ operators, op <+: text ++ rest → op.length ≤ text.length
  /-- Before a quote, escape marks belong to a literal. -/
  not_opening : ∀ l : Literal, ¬l.opening <+: text ++ rest

/-- A text goes on with the characters of a word after its first, as far as these go. -/
structure IsRun (isFirst : Char → Bool) (text rest : Text) : Prop where
  first : ∃ c tail, text = c :: tail ∧ isFirst c ∧ ∀ d ∈ tail, isWordPart d
  longest : ¬rest.head?.any isWordPart

/-- The texts of a category, where `rest` comes after them on the line. Those of numbers and of
    literals are a matter of their own. -/
def Category.Admits (category : Category) (text rest : Text) : Prop :=
  match category with
  | .keyword | .name | .reference | .property => IsRun isWordStart text rest
  | .decorator => IsRun (· == decoratorMark) text rest
  | .bracket => ∃ c, text = [c] ∧ (isOpenBracket c ∨ isCloseBracket c)
  | .punctuation => text = [','] ∨ text = ['.'] ∧ ¬Lexeme.ellipsis <+: text ++ rest
  | .comment => text.head? = some commentMark ∧ rest = []
  | .operator => IsOperator text rest
  | .unclassified => ∃ c, text = [c] ∧ isForeign c
  | .number | .string => True

theorem Category.admits_of_mem {category : Category} (h : IsRun isWordStart text rest)
    (hc : category ∈ [.keyword, .name, .reference, .property]) : category.Admits text rest := by
  simp only [List.mem_cons, List.not_mem_nil, or_false] at hc
  rcases hc with rfl | rfl | rfl | rfl <;> exact h

/-! ## Runs -/

/-- Whatever is taken as long as characters of words follow is a run. -/
theorem isRun_cons {isFirst : Char → Bool} (h : isFirst c) :
    IsRun isFirst ((c :: rest).take ((rest.takeWhile isWordPart).length + 1))
      ((c :: rest).drop ((rest.takeWhile isWordPart).length + 1)) := by
  obtain ⟨htake, hdrop⟩ := Text.take_length_takeWhile isWordPart rest
  rw [List.take_succ_cons, List.drop_succ_cons, htake, hdrop]
  refine ⟨⟨c, _, rfl, h, fun d hd => ?_⟩, ?_⟩
  · exact List.all_eq_true.1 List.all_takeWhile d hd
  · have hhead := List.head?_dropWhile_not isWordPart rest
    cases hrest : (rest.dropWhile isWordPart).head? <;> simp_all

/-! ## Operators -/

namespace Lexeme

/-- An operator is the longest that stands there, if it is no single character with which one of
    the pairs begins. -/
theorem isOperator_of_prefix (hop : op ∈ operators) (hp : op <+: text)
    (hopening : ∀ l : Literal, ¬l.opening <+: text)
    (hpairs : op.length = 1 → ∀ pair ∈ pairs, ¬pair <+: text) :
    IsOperator (text.take op.length) (text.drop op.length) := by
  rw [← List.prefix_iff_eq_take.1 hp]
  have htext : op ++ text.drop op.length = text := (List.prefix_append_drop hp).symm
  refine ⟨hop, fun longer hlonger hlp => ?_, htext.symm ▸ hopening⟩
  rw [htext] at hlp
  by_contra hlt
  have hprefix : op <+: longer := List.prefix_of_prefix_length_le hp hlp (by omega)
  -- in the table, only pairs go on from another operator, and that is a single character
  have htable : ∀ op ∈ operators, ∀ longer ∈ operators, op <+: longer →
      op.length < longer.length → op.length = 1 ∧ longer ∈ pairs := by decide
  obtain ⟨hone, hpair⟩ := htable op hop longer hlonger hprefix (by omega)
  exact hpairs hone longer hpair hlp

theorem mem_operators_of_isOperatorMark (h : isOperatorMark c) : [c] ∈ operators := by
  simpa [operators, isOperatorMark, isSimpleOperator, or_assoc] using h

/-! ## What is recognized -/

/-- Whatever is recognized is a text of its category, if operators are not taken from literals and
    only foreign characters are unclassified. -/
theorem Recognized.admits (h : Recognized ctx text lexeme)
    (hopening : lexeme.category = .operator → ∀ l : Literal, ¬l.opening <+: text)
    (hforeign : lexeme.category = .unclassified → ∀ c ∈ text.head?, isForeign c) :
    lexeme.category.Admits (text.take lexeme.width) (text.drop lexeme.width) := by
  cases h with
  | number => trivial
  | literal =>
    rw [category_insideLiteral]
    trivial
  | comment => exact ⟨rfl, List.drop_length⟩
  | comma => exact .inl rfl
  | openBracket h => exact ⟨_, rfl, .inl h⟩
  | closeBracket h => exact ⟨_, rfl, .inr h⟩
  | decorator =>
    rw [Lexeme.decorator, List.drop_succ_cons, List.drop_zero, Nat.add_comm]
    exact isRun_cons (by simp)
  | ellipsis h =>
    exact isOperator_of_prefix (by decide) h (hopening rfl) fun hlength =>
      absurd hlength (by decide)
  | @pair _ op hmem h =>
    have htable : ∀ op ∈ pairs, op ∈ operators ∧ op.length = 2 := by decide
    obtain ⟨hop, hlength⟩ := htable op hmem
    rw [← hlength]
    exact isOperator_of_prefix hop h (hopening rfl) (by omega)
  | reference h =>
    exact isOperator_of_prefix (by decide) (List.prefix_append [referenceMark] _) (hopening rfl)
      fun _ => not_prefix_referenceMark h
  | dot h => exact .inr ⟨rfl, h⟩
  | @mark c _ h hpairs =>
    exact isOperator_of_prefix (mem_operators_of_isOperatorMark h) (List.prefix_append [c] _)
      (hopening rfl) fun _ => hpairs
  | word h =>
    refine Category.admits_of_mem ?_ (category_word_mem ..)
    rw [width_word, List.takeWhile_cons_of_pos (isWordPart_of_isWordStart h), List.length_cons]
    exact isRun_cons h
  | other => exact ⟨_, rfl, hforeign rfl _ rfl⟩

/-! ## What is classified -/

/-- A numeral begins with a digit, or with a mark that else is an operator or punctuation. -/
theorem beginsLexeme_of_width? {expressionStart : Bool} {width : Nat}
    (h : Numeral.width? expressionStart (c :: rest) = some width) : beginsLexeme c := by
  rcases Numeral.isSome_width?.1 (Option.isSome_of_eq_some h) with hd | ⟨-, _, _, heq, hc, -⟩
  · have hd : c.isDigit := by simpa using hd
    simp [beginsLexeme, hd]
  · obtain ⟨rfl, -⟩ := List.cons.inj heq
    rcases hc with rfl | rfl <;> decide

theorem beginsLexeme_of_prefix (hop : op.head?.any beginsLexeme) (hp : op <+: c :: rest) :
    beginsLexeme c := by
  obtain ⟨d, hd, hbegins⟩ := (Option.any_eq_true ..).1 hop
  obtain ⟨tail, rfl⟩ := List.head?_eq_some_iff.1 hd
  obtain ⟨rfl, -⟩ := List.cons_prefix_cons.1 hp
  exact hbegins

/-- Whatever is classified begins with a character that has a meaning. -/
theorem Recognized.head_beginsLexeme (h : Recognized ctx (c :: rest) lexeme)
    (hc : lexeme.category ≠ .unclassified) : beginsLexeme c := by
  generalize htext : c :: rest = text at h
  cases h with
  | number h => exact beginsLexeme_of_width? (htext ▸ h)
  | @literal l =>
    rcases Literal.head_of_opening htext with rfl | rfl
    · decide
    · cases l.quote <;> decide
  | ellipsis h => exact beginsLexeme_of_prefix (by decide) (htext ▸ h)
  | @pair _ op hmem h =>
    have htable : ∀ op ∈ pairs, op.head?.any beginsLexeme := by decide
    exact beginsLexeme_of_prefix (htable op hmem) (htext ▸ h)
  | comment | comma | decorator | reference | dot =>
    cases htext
    decide
  | openBracket h | closeBracket h | mark h | word h =>
    cases htext
    simp [beginsLexeme, h]
  | other => exact absurd rfl hc

theorem category_operator? (h : operator? ctx text = some lexeme) :
    lexeme.category ≠ .unclassified := by
  unfold operator? at h
  grind

/-- A dot is an operator or punctuation, whatever comes after it. -/
theorem operator?_dot : operator? ctx ('.' :: rest) ≠ none := by
  rw [operator?]
  split_ifs <;> simp_all

/-- Only what none of the recognizers takes is unclassified: no numeral, no literal, and no
    character that decides by itself. -/
theorem eq_none_of_category_next (h : (next ctx c rest).category = .unclassified) :
    number? ctx (c :: rest) = none ∧ literal? ctx (c :: rest) = none ∧
      (beginsLexeme c → c.isDigit ∨ isQuote c) := by
  rw [next] at h
  split at h
  next hnumber =>
    obtain ⟨_, _, rfl⟩ := Option.map_eq_some_iff.1 hnumber
    cases h
  next hnumber =>
  split at h
  next hliteral =>
    obtain ⟨_, _, rfl⟩ := Option.map_eq_some_iff.1 hliteral
    simp [category_insideLiteral] at h
  next hliteral =>
  refine ⟨hnumber, hliteral, fun hb => ?_⟩
  -- comments, commas, brackets and decorators have categories of their own
  split at h
  · cases h
  split at h
  · cases h
  split at h
  · cases h
  split at h
  · cases h
  split at h
  · cases h
  split at h
  next hoperator => exact absurd h (category_operator? hoperator)
  next hoperator =>
  have hdot : c ≠ '.' := by
    rintro rfl
    exact operator?_dot hoperator
  split at h
  · simpa [h] using category_word_mem ctx (c :: rest)
  rw [single] at h
  split at h
  · cases h
  · simpa [beginsLexeme, *] using hb

/-- A character that some lexeme begins with is classified. -/
theorem not_beginsLexeme_of_category (h : (next ctx c rest).category = .unclassified) :
    ¬beginsLexeme c := by
  obtain ⟨hnumber, hliteral, hbegins⟩ := eq_none_of_category_next h
  intro hb
  rcases hbegins hb with hdigit | hquote
  · have hsome : (Numeral.width? ctx.expressionStart (c :: rest)).isSome :=
      Numeral.isSome_width?.2 (.inl (by simpa using hdigit))
    rw [Option.map_eq_none_iff.1 hnumber] at hsome
    cases hsome
  · have hopen := Option.map_eq_none_iff.1 hliteral
    rcases (Bool.or_eq_true_iff.1 hquote).imp eq_of_beq eq_of_beq with rfl | rfl <;> cases hopen

/-- The first character alone tells whether a lexeme is classified. -/
theorem category_next_eq_unclassified_iff :
    (next ctx c rest).category = .unclassified ↔ ¬beginsLexeme c :=
  ⟨not_beginsLexeme_of_category, fun hb => by
    by_contra hc
    exact hb ((recognized_next ctx c rest).head_beginsLexeme hc)⟩

theorem category_next_of_isForeign (h : isForeign c) :
    (next ctx c rest).category = .unclassified := by
  rw [isForeign_eq] at h
  rw [category_next_eq_unclassified_iff]
  simp_all

/-- Where no blank comes next, whatever is recognized is a text of its category. -/
theorem admits_next (hb : ¬isBlank c) :
    (next ctx c rest).category.Admits ((c :: rest).take (next ctx c rest).width)
      ((c :: rest).drop (next ctx c rest).width) := by
  refine (recognized_next ctx c rest).admits (fun hc l hl => ?_) fun hc d hd => ?_
  · -- a literal would have had its turn before operators
    obtain ⟨body, hbody⟩ := hl
    rw [next_opening hbody.symm, category_insideLiteral] at hc
    cases hc
  · obtain rfl : c = d := Option.some.inj hd
    rw [isForeign_eq]
    simp [hb, category_next_eq_unclassified_iff.1 hc]

end Lexeme

end Highlighter
